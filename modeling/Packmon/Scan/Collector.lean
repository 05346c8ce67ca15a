import Packmon.Domain.Packages
import Packmon.Library.GoPath

/-!
# Collecting packages

The packages of all parsed lockfiles and SBOMs are collected in one list, listings of one identity merged
into the first of them, which also gives the entry its source file.  `finalizePackageCollection` then
drops Go versions that only a go.sum still mentions and, unless asked to keep them, development packages.

Which versions look stale is decided by the source file an entry was first listed in, so by the order of
the inputs: a version some go.mod selects is dropped when a go.sum listed it earlier and another version
of the module was listed by a go.mod first.  `collectsFaithfully_iff` says for which inputs no order does
harm: every version that could look stale in one order is listed by go.sum files only and is stale in
every order.
-/

namespace Packmon.Scan

open Domain GoText

inductive SourceType
  | lockfile
  | sbom
  deriving DecidableEq, Repr

/-- A parsed lockfile or SBOM. -/
structure Input where
  sourceFile : String
  sourceType : SourceType
  packages : List Package
  deriving DecidableEq, Repr

structure CollectedPackage where
  package : Package
  sourceFile : String
  sourceType : SourceType
  deriving DecidableEq, Repr

def CollectedPackage.key (entry : CollectedPackage) : Identity := entry.package.identity

/-- A further listing changes the metadata of the entry; the source stays the first one. -/
def CollectedPackage.mergeListing (entry item : CollectedPackage) : CollectedPackage :=
  { entry with package := mergePackageMetadata entry.package item.package }

/-- What `add` is called with for one input. -/
def Input.entries (input : Input) : List CollectedPackage :=
  input.packages.map fun pkg => ⟨pkg, input.sourceFile, input.sourceType⟩

/-- The entries after the inputs, in this order. -/
def collected (inputs : List Input) : List CollectedPackage :=
  KeyedMerge.collect CollectedPackage.key CollectedPackage.mergeListing (inputs.flatMap Input.entries)

def isGoSumSource (sourceFile : String) : Bool :=
  equalFold (GoPath.base (GoPath.clean sourceFile)) "go.sum"

/-- The text under which a Go version counts as selected. -/
def goVersionKey (x : Identity) : String := x.name ++ "@" ++ x.version

/-- A Go entry that did not come from a go.sum. -/
def CollectedPackage.isSelected (entry : CollectedPackage) : Bool :=
  entry.package.ecosystem = .go && !isGoSumSource entry.sourceFile

def filterStaleGoSumVersions (entries : List CollectedPackage) : List CollectedPackage :=
  let selected := (entries.filter CollectedPackage.isSelected).map fun entry => goVersionKey entry.key
  let selectedNames := (entries.filter CollectedPackage.isSelected).map (·.package.name)
  if selectedNames = [] then entries
  else entries.filter fun entry =>
    !(entry.package.ecosystem = .go && isGoSumSource entry.sourceFile &&
      entry.package.name ∈ selectedNames && goVersionKey entry.key ∉ selected)

def filterDev (entries : List CollectedPackage) : List CollectedPackage :=
  entries.filter fun entry => !entry.package.dev

/-- The entries the scan goes on with. -/
def finalizePackageCollection (entries : List CollectedPackage) (includeDev : Bool) :
    List CollectedPackage :=
  if includeDev then filterStaleGoSumVersions entries else filterDev (filterStaleGoSumVersions entries)

/-- The identities of some entries. -/
def identities (entries : List CollectedPackage) : List Identity := entries.map CollectedPackage.key

/-! ### What the entries are -/

/-- The input lists the identity. -/
def Input.lists (input : Input) (x : Identity) : Bool := input.packages.any fun pkg => pkg.identity = x

def Input.isGoSum (input : Input) : Bool := isGoSumSource input.sourceFile

/-- Some input lists the identity. -/
def Listed (inputs : List Input) (x : Identity) : Prop := ∃ input ∈ inputs, input.lists x = true

/-- The first input that lists the identity. -/
def firstListing (order : List Input) (x : Identity) : Option Input := order.find? fun input => input.lists x

section

variable {inputs order : List Input} {entry : CollectedPackage} {x : Identity}

lemma key_mergeListing (entry item : CollectedPackage) :
    (entry.mergeListing item).key = entry.key := rfl

lemma Input.lists_iff {input : Input} :
    input.lists x = true ↔ ∃ pkg ∈ input.packages, pkg.identity = x := by
  simp [Input.lists]

lemma firstListing_isSome : (∃ input, firstListing order x = some input) ↔ Listed order x := by
  rw [← Option.isSome_iff_exists]
  simp [firstListing, Listed]

lemma mem_of_firstListing {input : Input} (h : firstListing order x = some input) : input ∈ order :=
  List.mem_of_find?_eq_some h

lemma lists_of_firstListing {input : Input} (h : firstListing order x = some input) :
    input.lists x = true := by
  simpa using List.find?_some h

lemma listed_perm (h : order.Perm inputs) : Listed order x ↔ Listed inputs x := by
  simp [Listed, h.mem_iff]

/-- The identities of the entries are the listed ones. -/
lemma mem_identities_collected : x ∈ identities (collected inputs) ↔ Listed inputs x := by
  rw [identities, collected, KeyedMerge.mem_map_key_collect key_mergeListing]
  constructor
  · intro hmem
    obtain ⟨item, hitem, rfl⟩ := List.mem_map.mp hmem
    obtain ⟨input, hinput, hentry⟩ := List.mem_flatMap.mp hitem
    obtain ⟨pkg, hpkg, rfl⟩ := List.mem_map.mp hentry
    exact ⟨input, hinput, Input.lists_iff.mpr ⟨pkg, hpkg, rfl⟩⟩
  · rintro ⟨input, hinput, hlists⟩
    obtain ⟨pkg, hpkg, rfl⟩ := Input.lists_iff.mp hlists
    refine List.mem_map.mpr ⟨⟨pkg, input.sourceFile, input.sourceType⟩, ?_, rfl⟩
    exact List.mem_flatMap.mpr ⟨input, hinput, List.mem_map.mpr ⟨pkg, hpkg, rfl⟩⟩

/-- The first listing of an identity comes from the first input that lists it. -/
lemma sourceFile_find_entries (order : List Input) (x : Identity) :
    ((order.flatMap Input.entries).find? fun item => item.key = x).map CollectedPackage.sourceFile =
      (firstListing order x).map Input.sourceFile := by
  induction order with
  | nil => rfl
  | cons input order ih =>
    rw [List.flatMap_cons, List.find?_append, firstListing, List.find?_cons]
    by_cases hlists : input.lists x = true
    · obtain ⟨item, hitem⟩ : ∃ item, (input.entries.find? fun item => item.key = x) = some item := by
        rw [← Option.isSome_iff_exists, List.find?_isSome]
        obtain ⟨pkg, hpkg, rfl⟩ := Input.lists_iff.mp hlists
        exact ⟨_, List.mem_map.mpr ⟨pkg, hpkg, rfl⟩, by simp [CollectedPackage.key]⟩
      obtain ⟨pkg, -, rfl⟩ := List.mem_map.mp (List.mem_of_find?_eq_some hitem)
      simp [hitem, hlists]
    · have hnone : (input.entries.find? fun item => item.key = x) = none := by
        rw [List.find?_eq_none]
        intro item hitem
        obtain ⟨pkg, hpkg, rfl⟩ := List.mem_map.mp hitem
        simp only [decide_eq_true_eq]
        exact fun heq => hlists (Input.lists_iff.mpr ⟨pkg, hpkg, heq⟩)
      simp only [hnone, Option.none_or, hlists]
      exact ih

/-- Later listings change neither the source nor anything but the metadata. -/
lemma sourceFile_foldl (first : CollectedPackage) (rest : List CollectedPackage) :
    (rest.foldl CollectedPackage.mergeListing first).sourceFile = first.sourceFile := by
  induction rest generalizing first with
  | nil => rfl
  | cons next rest ih => rw [List.foldl_cons, ih]; rfl

lemma package_foldl (first : CollectedPackage) (rest : List CollectedPackage) :
    (rest.foldl CollectedPackage.mergeListing first).package =
      (rest.map CollectedPackage.package).foldl mergePackageMetadata first.package := by
  induction rest generalizing first with
  | nil => rfl
  | cons next rest ih => rw [List.foldl_cons, ih]; rfl

/-- An entry has the source of the first input that lists it. -/
lemma sourceFile_collected (h : entry ∈ collected order) :
    ∃ input, firstListing order entry.key = some input ∧ entry.sourceFile = input.sourceFile := by
  rw [collected, KeyedMerge.mem_collect_iff key_mergeListing] at h
  have hfind := sourceFile_find_entries order entry.key
  rw [← List.head?_filter] at hfind
  change ((KeyedMerge.group CollectedPackage.key (order.flatMap Input.entries) entry.key).head?).map _ = _
    at hfind
  rcases hg : KeyedMerge.group CollectedPackage.key (order.flatMap Input.entries) entry.key with _ | ⟨first, rest⟩
  · rw [hg] at h
    exact absurd h (by simp [KeyedMerge.mergeAll])
  · rw [hg] at h hfind
    obtain ⟨input, hinput, hsource⟩ := Option.map_eq_some_iff.mp hfind.symm
    refine ⟨input, hinput, ?_⟩
    rw [hsource, ← Option.some.inj h, sourceFile_foldl]

/-- An entry is a development package exactly when every listing of it says so. -/
lemma dev_collected (h : entry ∈ collected order) :
    entry.package.dev = true ↔
      ∀ input ∈ order, ∀ pkg ∈ input.packages, pkg.identity = entry.key → pkg.dev = true := by
  rw [collected, KeyedMerge.mem_collect_iff key_mergeListing] at h
  have hlisting {item : CollectedPackage} :
      item ∈ KeyedMerge.group CollectedPackage.key (order.flatMap Input.entries) entry.key ↔
        (∃ input ∈ order, item ∈ input.entries) ∧ item.key = entry.key := by
    rw [KeyedMerge.mem_group, List.mem_flatMap]
  rcases hg : KeyedMerge.group CollectedPackage.key (order.flatMap Input.entries) entry.key with _ | ⟨first, rest⟩
  · rw [hg] at h
    exact absurd h (by simp [KeyedMerge.mergeAll])
  · rw [hg] at h
    have hdev : entry.package.dev = (first :: rest).all fun item => item.package.dev := by
      rw [← Option.some.inj h, package_foldl, dev_foldl_mergePackageMetadata, ← List.map_cons, List.all_map]
      rfl
    rw [hdev, List.all_eq_true, ← hg]
    constructor
    · intro hall input hinput pkg hpkg hid
      exact hall ⟨pkg, input.sourceFile, input.sourceType⟩
        (hlisting.mpr ⟨⟨input, hinput, List.mem_map.mpr ⟨pkg, hpkg, rfl⟩⟩, hid⟩)
    · intro hall item hitem
      obtain ⟨⟨input, hinput, hentry⟩, hkey⟩ := hlisting.mp hitem
      obtain ⟨pkg, hpkg, rfl⟩ := List.mem_map.mp hentry
      exact hall input hinput pkg hpkg hkey

end

/-! ### Which versions the go.sum filter drops -/

/-- The version counts as selected: the first input that lists it is no go.sum. -/
def SelectedIn (order : List Input) (x : Identity) : Prop :=
  x.ecosystem = .go ∧ ∃ input, firstListing order x = some input ∧ input.isGoSum = false

/-- The version is dropped: it is not selected, nor is one that reads the same, but another version of
the module is. -/
def DroppedIn (order : List Input) (x : Identity) : Prop :=
  x.ecosystem = .go ∧ (∃ y, y.name = x.name ∧ SelectedIn order y) ∧
    ∀ z, goVersionKey z = goVersionKey x → ¬ SelectedIn order z

section

variable {inputs order : List Input} {x : Identity}

lemma exists_isSelected_iff {p : Identity → Prop} :
    (∃ entry ∈ collected order, entry.isSelected = true ∧ p entry.key) ↔
      ∃ y, p y ∧ SelectedIn order y := by
  constructor
  · rintro ⟨entry, hentry, hselected, hp⟩
    obtain ⟨input, hfirst, hsource⟩ := sourceFile_collected hentry
    simp only [CollectedPackage.isSelected, Bool.and_eq_true, decide_eq_true_eq, Bool.not_eq_true'] at hselected
    have hsum : input.isGoSum = false := by
      rw [Input.isGoSum, ← hsource]
      exact hselected.2
    exact ⟨entry.key, hp, hselected.1, input, hfirst, hsum⟩
  · rintro ⟨y, hp, hgo, input, hfirst, hsum⟩
    have hlisted : Listed order y := firstListing_isSome.mp ⟨input, hfirst⟩
    obtain ⟨entry, hentry, rfl⟩ := List.mem_map.mp (mem_identities_collected.mpr hlisted)
    obtain ⟨input', hfirst', hsource⟩ := sourceFile_collected hentry
    obtain rfl := Option.some.inj (hfirst.symm.trans hfirst')
    have hgoEntry : entry.package.ecosystem = .go := hgo
    have hsumEntry : isGoSumSource entry.sourceFile = false := hsource ▸ hsum
    exact ⟨entry, hentry, by simp [CollectedPackage.isSelected, hgoEntry, hsumEntry], hp⟩

lemma mem_selectedNames {name : String} :
    name ∈ ((collected order).filter CollectedPackage.isSelected).map (·.package.name) ↔
      ∃ y, y.name = name ∧ SelectedIn order y := by
  rw [← exists_isSelected_iff]
  simp [CollectedPackage.key, Package.identity, and_assoc]

lemma mem_selected {text : String} :
    text ∈ ((collected order).filter CollectedPackage.isSelected).map
        (fun entry => goVersionKey entry.key) ↔
      ∃ y, goVersionKey y = text ∧ SelectedIn order y := by
  rw [← exists_isSelected_iff]
  simp [and_assoc]

/-- What the filter asks of an entry says that its version is dropped. -/
lemma droppedIn_key_iff {entry : CollectedPackage} (hentry : entry ∈ collected order) :
    DroppedIn order entry.key ↔
      entry.package.ecosystem = .go ∧ isGoSumSource entry.sourceFile = true ∧
        (∃ y, y.name = entry.package.name ∧ SelectedIn order y) ∧
        ¬ ∃ y, goVersionKey y = goVersionKey entry.key ∧ SelectedIn order y := by
  obtain ⟨input, hfirst, hsource⟩ := sourceFile_collected hentry
  constructor
  · rintro ⟨hgo, hname, hno⟩
    refine ⟨hgo, ?_, hname, fun ⟨z, hz, hsel⟩ => hno z hz hsel⟩
    by_contra hsum
    rw [Bool.not_eq_true, hsource] at hsum
    exact hno entry.key rfl ⟨hgo, input, hfirst, hsum⟩
  · rintro ⟨hgo, -, hname, hno⟩
    exact ⟨hgo, hname, fun z hz hsel => hno ⟨z, hz, hsel⟩⟩

lemma mem_filterStale {entry : CollectedPackage} :
    entry ∈ filterStaleGoSumVersions (collected order) ↔
      entry ∈ collected order ∧ ¬ DroppedIn order entry.key := by
  rw [filterStaleGoSumVersions]
  split
  · -- nothing is dropped when no name is selected, so the early return agrees with the filter
    next hempty =>
    refine ⟨fun hentry => ⟨hentry, fun hdrop => ?_⟩, fun h => h.1⟩
    obtain ⟨-, -, hname, -⟩ := (droppedIn_key_iff hentry).mp hdrop
    exact absurd (mem_selectedNames.mpr hname) (by simp [hempty])
  · rw [List.mem_filter]
    refine and_congr_right fun hentry => ?_
    rw [droppedIn_key_iff hentry, ← mem_selectedNames, ← mem_selected]
    rw [Bool.not_eq_true', ← Bool.not_eq_true]
    simp only [Bool.and_eq_true, decide_eq_true_eq, and_assoc]

/-- The go.sum filter drops exactly the versions that are dropped in the order of the inputs. -/
lemma mem_identities_filterStale :
    x ∈ identities (filterStaleGoSumVersions (collected order)) ↔
      Listed order x ∧ ¬ DroppedIn order x := by
  constructor
  · intro hx
    obtain ⟨entry, hentry, rfl⟩ := List.mem_map.mp hx
    obtain ⟨hin, hnot⟩ := mem_filterStale.mp hentry
    exact ⟨mem_identities_collected.mp (List.mem_map_of_mem hin), hnot⟩
  · rintro ⟨hlisted, hnot⟩
    obtain ⟨entry, hentry, rfl⟩ := List.mem_map.mp (mem_identities_collected.mpr hlisted)
    exact List.mem_map_of_mem (mem_filterStale.mpr ⟨hentry, hnot⟩)

end

/-! ### Orders of the inputs -/

/-- The version looks stale in some order: another version `y` of the module can be selected, by an input
`m` that is no go.sum, while every version that reads like this one is still listed by a go.sum first,
by one that does not list `y` or by one collected after `m`. -/
def MayLookStale (inputs : List Input) (x : Identity) : Prop :=
  ∃ y, y.ecosystem = .go ∧ y.name = x.name ∧
    ∃ m ∈ inputs, m.isGoSum = false ∧ m.lists y = true ∧
      ∀ z, z.ecosystem = .go → Listed inputs z → goVersionKey z = goVersionKey x →
        (∃ s ∈ inputs, s.isGoSum = true ∧ s.lists z = true ∧ s.lists y = false) ∨
        (m.lists z = false ∧ ∃ s ∈ inputs, s.isGoSum = true ∧ s.lists z = true)

/-- The version is stale whatever the order: only go.sum files list it, or anything that reads the same,
and some version of the module is listed, by other files only. -/
def IsStale (inputs : List Input) (x : Identity) : Prop :=
  (∀ z, z.ecosystem = .go → goVersionKey z = goVersionKey x →
    ∀ input ∈ inputs, input.lists z = true → input.isGoSum = true) ∧
  ∃ y, y.ecosystem = .go ∧ y.name = x.name ∧ Listed inputs y ∧
    ∀ input ∈ inputs, input.lists y = true → input.isGoSum = false

section

variable {inputs order : List Input} {x y z : Identity} {m : Input}

/-- If the first listing of each of two versions lists the other too, it is one listing. -/
lemma firstListing_eq {a b : Input} (ha : firstListing order x = some a)
    (hb : firstListing order y = some b) (hay : a.lists y = true) (hbx : b.lists x = true) : a = b := by
  induction order with
  | nil => exact absurd ha (by simp [firstListing])
  | cons first order ih =>
    simp only [firstListing, List.find?_cons] at ha hb ih
    cases hx : first.lists x with
    | true =>
      simp only [hx, Option.some.injEq] at ha
      subst ha
      simpa [hay] using hb
    | false =>
      cases hy : first.lists y with
      | true =>
        simp only [hy, Option.some.injEq] at hb
        subst hb
        exact absurd hbx (by simp [hx])
      | false =>
        simp only [hx] at ha
        simp only [hy] at hb
        exact ih ha hb

/-- What lists the version in a first part of the inputs decides. -/
lemma firstListing_append {front : List Input} (back : List Input) (h : Listed front x) :
    ∃ input ∈ front, firstListing (front ++ back) x = some input := by
  obtain ⟨input, hinput⟩ := firstListing_isSome.mpr h
  refine ⟨input, mem_of_firstListing hinput, ?_⟩
  rw [firstListing, List.find?_append]
  change (firstListing front x).or _ = _
  rw [hinput, Option.some_or]

/-- A version that is dropped in an order may look stale. -/
lemma mayLookStale_of_droppedIn (hperm : order.Perm inputs) (h : DroppedIn order x) :
    MayLookStale inputs x := by
  obtain ⟨-, ⟨y, hname, hgo, m, hm, hmsum⟩, hno⟩ := h
  refine ⟨y, hgo, hname, m, hperm.mem_iff.mp (mem_of_firstListing hm), hmsum, lists_of_firstListing hm, ?_⟩
  intro z hzgo hlisted hkey
  obtain ⟨s, hs⟩ := firstListing_isSome.mpr ((listed_perm hperm).mpr hlisted)
  have hssum : s.isGoSum = true := by
    by_contra hsum
    exact hno z hkey ⟨hzgo, s, hs, by simpa using hsum⟩
  have hsmem : s ∈ inputs := hperm.mem_iff.mp (mem_of_firstListing hs)
  cases hsy : s.lists y with
  | false => exact Or.inl ⟨s, hsmem, hssum, lists_of_firstListing hs, hsy⟩
  | true =>
    refine Or.inr ⟨?_, s, hsmem, hssum, lists_of_firstListing hs⟩
    by_contra hmz
    have heq : m = s := firstListing_eq hm hs (by simpa using hmz) hsy
    exact absurd hssum (by simp [← heq, hmsum])

/-- The order that selects `y` by `m` as early as it can without selecting what go.sum files list: the
go.sum files that do not list `y`, then `m`, then the other go.sum files, then the rest. -/
def selectingOrder (inputs : List Input) (y : Identity) (m : Input) : List Input :=
  inputs.filter (fun s => s.isGoSum && !s.lists y) ++
    m :: (inputs.filter (fun s => s.isGoSum && s.lists y) ++
      (inputs.filter fun input => !input.isGoSum).erase m)

lemma selectingOrder_perm (hm : m ∈ inputs) (hmsum : m.isGoSum = false) :
    (selectingOrder inputs y m).Perm inputs := by
  have hrest : (m :: (inputs.filter fun input => !input.isGoSum).erase m).Perm
      (inputs.filter fun input => !input.isGoSum) :=
    (List.perm_cons_erase (by simp [hm, hmsum])).symm
  have hsums : (inputs.filter (fun s => s.isGoSum && !s.lists y) ++
      inputs.filter (fun s => s.isGoSum && s.lists y)).Perm (inputs.filter Input.isGoSum) := by
    have h := List.filter_append_perm (fun s => !s.lists y) (inputs.filter Input.isGoSum)
    simpa only [List.filter_filter, Bool.not_not, Bool.and_comm] using h
  calc selectingOrder inputs y m
      |>.Perm (inputs.filter (fun s => s.isGoSum && !s.lists y) ++
        (inputs.filter (fun s => s.isGoSum && s.lists y) ++
          m :: (inputs.filter fun input => !input.isGoSum).erase m)) :=
        List.perm_middle.symm.append_left _
    _ |>.Perm (inputs.filter Input.isGoSum ++ inputs.filter fun input => !input.isGoSum) := by
        rw [← List.append_assoc]
        exact hsums.append hrest
    _ |>.Perm inputs := List.filter_append_perm Input.isGoSum inputs

/-- A version that may look stale is dropped in some order. -/
lemma exists_droppedIn (hgo : x.ecosystem = .go) (h : MayLookStale inputs x) :
    ∃ order, order.Perm inputs ∧ DroppedIn order x := by
  obtain ⟨y, hygo, hname, m, hm, hmsum, hmy, hclass⟩ := h
  have hperm := selectingOrder_perm (y := y) hm hmsum
  refine ⟨selectingOrder inputs y m, hperm, hgo, ⟨y, hname, hygo, m, ?_, hmsum⟩, ?_⟩
  · have hnone : (inputs.filter (fun s => s.isGoSum && !s.lists y)).find? (fun input => input.lists y) =
        none := by
      simp
    simp [firstListing, selectingOrder, List.find?_append, hnone, hmy]
  · rintro z hkey ⟨hzgo, input, hfirst, hsum⟩
    have hlisted : Listed inputs z := (listed_perm hperm).mp (firstListing_isSome.mp ⟨input, hfirst⟩)
    rcases hclass z hzgo hlisted hkey with ⟨s, hs, hssum, hsz, hsy⟩ | ⟨hmz, s, hs, hssum, hsz⟩
    · -- a go.sum that does not list `y` stands in front of `m`
      have hfront : Listed (inputs.filter fun s => s.isGoSum && !s.lists y) z :=
        ⟨s, by simp [hs, hssum, hsy], hsz⟩
      obtain ⟨first, hmem, hfirst'⟩ := firstListing_append
        (m :: (inputs.filter (fun s => s.isGoSum && s.lists y) ++
          (inputs.filter fun input => !input.isGoSum).erase m)) hfront
      obtain rfl := Option.some.inj (hfirst.symm.trans hfirst')
      simp only [List.mem_filter, Bool.and_eq_true] at hmem
      exact absurd hmem.2.1 (by simp [hsum])
    · -- all go.sum files stand in front of the rest, and `m` does not list the version
      have hsplit : selectingOrder inputs y m =
          (inputs.filter (fun s => s.isGoSum && !s.lists y) ++
            m :: inputs.filter fun s => s.isGoSum && s.lists y) ++
          (inputs.filter fun input => !input.isGoSum).erase m := by
        simp [selectingOrder]
      have hfront : Listed (inputs.filter (fun s => s.isGoSum && !s.lists y) ++
          m :: inputs.filter fun s => s.isGoSum && s.lists y) z := by
        refine ⟨s, ?_, hsz⟩
        cases hsy : s.lists y <;> simp [hs, hssum, hsy]
      obtain ⟨first, hmem, hfirst'⟩ := firstListing_append
        ((inputs.filter fun input => !input.isGoSum).erase m) hfront
      rw [← hsplit] at hfirst'
      obtain rfl := Option.some.inj (hfirst.symm.trans hfirst')
      have hne : input ≠ m := by
        rintro rfl
        exact absurd (lists_of_firstListing hfirst) (by simp [hmz])
      simp only [List.mem_append, List.mem_cons, List.mem_filter, Bool.and_eq_true, hne, false_or] at hmem
      rcases hmem with hmem | hmem
      · exact absurd hmem.2.1 (by simp [hsum])
      · exact absurd hmem.2.1 (by simp [hsum])

/-- A stale version is dropped in every order. -/
lemma IsStale.droppedIn (h : IsStale inputs x) (hgo : x.ecosystem = .go) (hperm : order.Perm inputs) :
    DroppedIn order x := by
  obtain ⟨hclass, y, hygo, hname, hlisted, hy⟩ := h
  refine ⟨hgo, ⟨y, hname, hygo, ?_⟩, ?_⟩
  · obtain ⟨input, hinput⟩ := firstListing_isSome.mpr ((listed_perm hperm).mpr hlisted)
    exact ⟨input, hinput, hy input (hperm.mem_iff.mp (mem_of_firstListing hinput)) (lists_of_firstListing hinput)⟩
  · rintro z hkey ⟨hzgo, input, hinput, hsum⟩
    have := hclass z hzgo hkey input (hperm.mem_iff.mp (mem_of_firstListing hinput))
      (lists_of_firstListing hinput)
    exact absurd this (by simp [hsum])

/-- A version that is dropped in every order is stale. -/
lemma isStale_of_droppedIn (h : ∀ order, order.Perm inputs → DroppedIn order x) : IsStale inputs x := by
  constructor
  · -- collected first, an input that is no go.sum would select the version
    intro z hzgo hkey input hinput hlists
    by_contra hsum
    obtain ⟨-, -, hno⟩ := h _ (List.perm_cons_erase hinput).symm
    refine hno z hkey ⟨hzgo, input, ?_, by simpa using hsum⟩
    simp [firstListing, hlists]
  · -- with all go.sum files first, only what none of them lists is selected
    have hperm := List.filter_append_perm Input.isGoSum inputs
    obtain ⟨-, ⟨y, hname, hygo, first, hfirst, hsum⟩, -⟩ := h _ hperm
    refine ⟨y, hygo, hname, (listed_perm hperm).mp (firstListing_isSome.mp ⟨first, hfirst⟩), ?_⟩
    intro input hinput hlists
    by_contra hgosum
    have hfront : Listed (inputs.filter Input.isGoSum) y := ⟨input, by simp [hinput, hgosum], hlists⟩
    obtain ⟨first', hmem, hfirst'⟩ := firstListing_append (inputs.filter fun input => !input.isGoSum) hfront
    obtain rfl := Option.some.inj (hfirst.symm.trans hfirst')
    exact absurd (List.mem_filter.mp hmem).2 (by simp [hsum])

end

/-! ### What the collection drops -/

/-- What a scan may rely on: the go.sum filter drops a version only if every input that lists it is a
go.sum, the development filter drops a package only if every listing of it is one, and which packages are
left does not depend on the order of the inputs. -/
structure CollectsFaithfully (inputs : List Input) : Prop where
  stale : ∀ order, order.Perm inputs → ∀ x ∈ identities (collected order),
    x ∉ identities (filterStaleGoSumVersions (collected order)) →
    ∀ input ∈ inputs, input.lists x = true → input.isGoSum = true
  dev : ∀ order, order.Perm inputs → ∀ x ∈ identities (filterStaleGoSumVersions (collected order)),
    x ∉ identities (filterDev (filterStaleGoSumVersions (collected order))) →
    ∀ input ∈ inputs, ∀ pkg ∈ input.packages, pkg.identity = x → pkg.dev = true
  order : ∀ order order', order.Perm inputs → order'.Perm inputs → ∀ includeDev x,
    x ∈ identities (finalizePackageCollection (collected order) includeDev) ↔
      x ∈ identities (finalizePackageCollection (collected order') includeDev)

section

variable {inputs order : List Input} {x : Identity}

/-- Only a package that every listing marks as development is left out for it. -/
lemma mem_identities_filterDev :
    x ∈ identities (filterDev (filterStaleGoSumVersions (collected order))) ↔
      x ∈ identities (filterStaleGoSumVersions (collected order)) ∧
        ¬ ∀ input ∈ order, ∀ pkg ∈ input.packages, pkg.identity = x → pkg.dev = true := by
  constructor
  · intro hx
    obtain ⟨entry, hentry, rfl⟩ := List.mem_map.mp hx
    obtain ⟨hstale, hdev⟩ := List.mem_filter.mp hentry
    refine ⟨List.mem_map_of_mem hstale, ?_⟩
    rw [← dev_collected (mem_filterStale.mp hstale).1]
    simpa using hdev
  · rintro ⟨hx, hdev⟩
    obtain ⟨entry, hstale, rfl⟩ := List.mem_map.mp hx
    rw [← dev_collected (mem_filterStale.mp hstale).1] at hdev
    exact List.mem_map_of_mem (List.mem_filter.mpr ⟨hstale, by simpa using hdev⟩)

lemma mem_identities_finalize (includeDev : Bool) :
    x ∈ identities (finalizePackageCollection (collected order) includeDev) ↔
      (Listed order x ∧ ¬ DroppedIn order x) ∧
        (includeDev = true ∨
          ¬ ∀ input ∈ order, ∀ pkg ∈ input.packages, pkg.identity = x → pkg.dev = true) := by
  rw [← mem_identities_filterStale]
  cases includeDev with
  | true => simp [finalizePackageCollection]
  | false =>
    rw [finalizePackageCollection, if_neg (by simp), mem_identities_filterDev]
    simp

end

/-- The collection is faithful exactly when every Go version that may look stale in some order is stale
in all of them. -/
theorem collectsFaithfully_iff (inputs : List Input) :
    CollectsFaithfully inputs ↔
      ∀ x, Listed inputs x → x.ecosystem = .go → MayLookStale inputs x → IsStale inputs x := by
  constructor
  · intro h x hlisted hgo hmay
    obtain ⟨order, hperm, hdropped⟩ := exists_droppedIn hgo hmay
    apply isStale_of_droppedIn
    intro order' hperm'
    by_contra hkept
    -- kept in one order and dropped in the other, with development packages included
    have hin : x ∈ identities (finalizePackageCollection (collected order') true) :=
      (mem_identities_finalize true).mpr ⟨⟨(listed_perm hperm').mpr hlisted, hkept⟩, Or.inl rfl⟩
    rw [h.order order' order hperm' hperm, mem_identities_finalize] at hin
    exact hin.1.2 hdropped
  · intro h
    have hstale {order : List Input} (hperm : order.Perm inputs) {x : Identity} (hlisted : Listed order x)
        (hdropped : DroppedIn order x) : IsStale inputs x :=
      h x ((listed_perm hperm).mp hlisted) hdropped.1 (mayLookStale_of_droppedIn hperm hdropped)
    refine ⟨?_, ?_, ?_⟩
    · intro order hperm x hx hdropped
      have hlisted := mem_identities_collected.mp hx
      rw [mem_identities_filterStale, not_and, not_not] at hdropped
      have hdrop := hdropped hlisted
      exact (hstale hperm hlisted hdrop).1 x hdrop.1 rfl
    · intro order hperm x hx hdropped input hinput
      rw [mem_identities_filterDev, not_and, not_not] at hdropped
      exact hdropped hx input (hperm.mem_iff.mpr hinput)
    · intro order order' hperm hperm' includeDev x
      have hmem (a : Input) : a ∈ order ↔ a ∈ order' := hperm.mem_iff.trans hperm'.mem_iff.symm
      have hlisted : Listed order x ↔ Listed order' x := by simp only [Listed, hmem]
      have hdropped (hl : Listed inputs x) : DroppedIn order x ↔ DroppedIn order' x := by
        constructor
        · intro hd
          exact (hstale hperm ((listed_perm hperm).mpr hl) hd).droppedIn hd.1 hperm'
        · intro hd
          exact (hstale hperm' ((listed_perm hperm').mpr hl) hd).droppedIn hd.1 hperm
      rw [mem_identities_finalize, mem_identities_finalize]
      simp only [hmem, hlisted]
      refine and_congr_left' (and_congr_right fun hl => not_congr ?_)
      exact hdropped ((listed_perm hperm').mp hl)

/-- Two modules in one repository: the first requires version 2 and its go.sum still lists both versions,
the second requires version 1.  Collected in this order, version 1 has the go.sum as its source and is
dropped. -/
def twoModules : List Input :=
  let goPackage (version : String) : Package := { name := "example.com/m", version, ecosystem := .go }
  [⟨"a/go.mod", .lockfile, [goPackage "v2.0.0"]⟩,
    ⟨"a/go.sum", .lockfile, [goPackage "v1.0.0", goPackage "v2.0.0"]⟩,
    ⟨"b/go.mod", .lockfile, [goPackage "v1.0.0"]⟩]

theorem twoModules_not_collectsFaithfully : ¬ CollectsFaithfully twoModules := by
  intro h
  have hdropped : (⟨"example.com/m", "v1.0.0", .go⟩ : Identity) ∉
      identities (filterStaleGoSumVersions (collected twoModules)) := by
    decide
  have := h.stale twoModules (List.Perm.refl _) ⟨"example.com/m", "v1.0.0", .go⟩ (by decide) hdropped
    ⟨"b/go.mod", .lockfile, [{ name := "example.com/m", version := "v1.0.0", ecosystem := .go }]⟩
    (by decide) (by decide)
  exact absurd this (by decide)

end Packmon.Scan

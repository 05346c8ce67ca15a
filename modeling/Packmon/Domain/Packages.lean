import Packmon.Library.GoText
import Packmon.Library.KeyedMerge
import Packmon.Library.SortedSets

/-!
# Packages and their merge

A package of a lockfile or an SBOM carries, besides its identity, flags and sets that say where it comes
from.  Listings of one identity are merged pairwise by `mergePackageMetadata`: production wins over
development, every other flag and set is united.  Merging two or more listings gives, for every field
but the declared version, a value of the multiset of the listings (`foldl_mergePackageMetadata`), so
`dedup` does not depend on the order of the listings that declare no version (`dedup_perm`).
-/

namespace Packmon.Domain

open GoText SortedSets

/-- The ecosystems with a constant of their own. -/
inductive Ecosystem
  | npm | pypi | go | maven | cargo | nuget | composer | gem | pub | actions | cocoapods | swiftpm | hex
  | cran | docker | chocolatey
  deriving DecidableEq, Repr

/-- The identifier of an ecosystem, by which parents are sorted. -/
def Ecosystem.text : Ecosystem → String
  | .npm => "npm"
  | .pypi => "pypi"
  | .go => "go"
  | .maven => "maven"
  | .cargo => "cargo"
  | .nuget => "nuget"
  | .composer => "composer"
  | .gem => "gem"
  | .pub => "pub"
  | .actions => "actions"
  | .cocoapods => "cocoapods"
  | .swiftpm => "swiftpm"
  | .hex => "hex"
  | .cran => "cran"
  | .docker => "docker"
  | .chocolatey => "chocolatey"

lemma Ecosystem.text_injective : Function.Injective Ecosystem.text := by
  intro a b h
  cases a <;> cases b <;> first | rfl | exact absurd h (by decide)

structure PackageParent where
  name : String
  version : String
  ecosystem : Ecosystem
  deriving DecidableEq, Repr

/-- What parents are compared by. -/
def PackageParent.sortKey (parent : PackageParent) : List String :=
  [parent.ecosystem.text, parent.name, parent.version]

lemma PackageParent.sortKey_injective : Function.Injective PackageParent.sortKey := by
  rintro ⟨name, version, ecosystem⟩ ⟨name', version', ecosystem'⟩ h
  simp only [sortKey, List.cons.injEq, and_true] at h
  obtain ⟨heco, rfl, rfl⟩ := h
  rw [Ecosystem.text_injective heco]

structure Package where
  name : String
  version : String
  ecosystem : Ecosystem
  dev : Bool := false
  direct : Bool := false
  indirect : Bool := false
  optional : Bool := false
  peer : Bool := false
  via : List String := []
  parents : List PackageParent := []
  sourceRefs : List String := []
  declaredVersion : String := ""
  deriving DecidableEq, Repr

/-- The fields that make two listings the same package. -/
structure Identity where
  name : String
  version : String
  ecosystem : Ecosystem
  deriving DecidableEq, Repr

def Package.identity (pkg : Package) : Identity := ⟨pkg.name, pkg.version, pkg.ecosystem⟩

/-! ### Sets of texts and parents -/

/-- The trimmed texts that are not blank. -/
def cleaned (values : List String) : List String := (values.map trimSpace).filter (· ≠ "")

@[simp] lemma mem_cleaned {values : List String} {value : String} :
    value ∈ cleaned values ↔ value ≠ "" ∧ ∃ raw ∈ values, trimSpace raw = value := by
  simp [cleaned, and_comm]

/-- The trimmed texts that are not blank, each once and sorted. -/
def stringSet (values : List String) : List String := sortedSet id (cleaned values)

def mergePackageStringSet (left right : List String) : List String := stringSet (left ++ right)

lemma stringSet_congr {xs ys : List String} (h : ∀ value, value ∈ cleaned xs ↔ value ∈ cleaned ys) :
    stringSet xs = stringSet ys :=
  sortedSet_congr Function.injective_id h

lemma mem_stringSet {values : List String} {value : String} :
    value ∈ stringSet values ↔ value ≠ "" ∧ ∃ raw ∈ values, trimSpace raw = value := by
  rw [stringSet, mem_sortedSet, mem_cleaned]

/-- A member of a set is trimmed already. -/
lemma mem_cleaned_stringSet {values : List String} {value : String} :
    value ∈ cleaned (stringSet values) ↔ value ∈ cleaned values := by
  simp only [mem_cleaned, mem_stringSet]
  constructor
  · rintro ⟨hne, -, ⟨-, raw, hraw, rfl⟩, rfl⟩
    rw [trimSpace_trimSpace] at hne ⊢
    exact ⟨hne, raw, hraw, rfl⟩
  · rintro ⟨hne, raw, hraw, rfl⟩
    exact ⟨hne, _, ⟨hne, raw, hraw, rfl⟩, trimSpace_trimSpace raw⟩

/-- Merging into a merged set is merging all at once. -/
lemma mergePackageStringSet_stringSet (xs ys : List String) :
    mergePackageStringSet (stringSet xs) ys = stringSet (xs ++ ys) := by
  apply stringSet_congr
  intro value
  have happend (us vs : List String) : cleaned (us ++ vs) = cleaned us ++ cleaned vs := by
    simp [cleaned]
  rw [happend, happend, List.mem_append, List.mem_append, mem_cleaned_stringSet]

def PackageParent.trimmed (parent : PackageParent) : PackageParent :=
  { parent with name := trimSpace parent.name, version := trimSpace parent.version }

@[simp] lemma PackageParent.trimmed_trimmed (parent : PackageParent) :
    parent.trimmed.trimmed = parent.trimmed := by
  simp [trimmed]

/-- The trimmed parents that have a name. -/
def cleanedParents (parents : List PackageParent) : List PackageParent :=
  (parents.map PackageParent.trimmed).filter (·.name ≠ "")

@[simp] lemma mem_cleanedParents {parents : List PackageParent} {parent : PackageParent} :
    parent ∈ cleanedParents parents ↔
      parent.name ≠ "" ∧ ∃ raw ∈ parents, raw.trimmed = parent := by
  simp [cleanedParents, and_comm]

/-- The trimmed parents that have a name, each once and sorted. -/
def parentSet (parents : List PackageParent) : List PackageParent :=
  sortedSet PackageParent.sortKey (cleanedParents parents)

def mergePackageParents (left right : List PackageParent) : List PackageParent :=
  parentSet (left ++ right)

lemma parentSet_congr {xs ys : List PackageParent}
    (h : ∀ parent, parent ∈ cleanedParents xs ↔ parent ∈ cleanedParents ys) :
    parentSet xs = parentSet ys :=
  sortedSet_congr PackageParent.sortKey_injective h

lemma mem_cleanedParents_parentSet {parents : List PackageParent} {parent : PackageParent} :
    parent ∈ cleanedParents (parentSet parents) ↔ parent ∈ cleanedParents parents := by
  simp only [mem_cleanedParents, parentSet, mem_sortedSet]
  constructor
  · rintro ⟨hne, -, ⟨-, raw, hraw, rfl⟩, rfl⟩
    rw [PackageParent.trimmed_trimmed] at hne ⊢
    exact ⟨hne, raw, hraw, rfl⟩
  · rintro ⟨hne, raw, hraw, rfl⟩
    exact ⟨hne, _, ⟨hne, raw, hraw, rfl⟩, raw.trimmed_trimmed⟩

lemma mergePackageParents_parentSet (xs ys : List PackageParent) :
    mergePackageParents (parentSet xs) ys = parentSet (xs ++ ys) := by
  apply parentSet_congr
  intro parent
  have happend (us vs : List PackageParent) :
      cleanedParents (us ++ vs) = cleanedParents us ++ cleanedParents vs := by
    simp [cleanedParents]
  rw [happend, happend, List.mem_append, List.mem_append, mem_cleanedParents_parentSet]

/-! ### Merging listings -/

/-- Merges the metadata of a further listing of the same package into `dst`. -/
def mergePackageMetadata (dst src : Package) : Package where
  name := dst.name
  version := dst.version
  ecosystem := dst.ecosystem
  dev := if dst.dev && !src.dev then false else dst.dev
  direct := dst.direct || src.direct
  indirect := dst.indirect || src.indirect
  optional := dst.optional || src.optional
  peer := dst.peer || src.peer
  via := mergePackageStringSet dst.via src.via
  parents := mergePackageParents dst.parents src.parents
  sourceRefs := mergePackageStringSet dst.sourceRefs src.sourceRefs
  declaredVersion :=
    if trimSpace dst.declaredVersion = "" then trimSpace src.declaredVersion else dst.declaredVersion

@[simp] lemma identity_mergePackageMetadata (dst src : Package) :
    (mergePackageMetadata dst src).identity = dst.identity := rfl

/-- Production wins. -/
@[simp] lemma dev_mergePackageMetadata (dst src : Package) :
    (mergePackageMetadata dst src).dev = (dst.dev && src.dev) := by
  change (if dst.dev && !src.dev then false else dst.dev) = (dst.dev && src.dev)
  cases dst.dev <;> cases src.dev <;> rfl

/-- A merged package is a development package exactly when every listing says so. -/
lemma dev_foldl_mergePackageMetadata (first : Package) (rest : List Package) :
    (rest.foldl mergePackageMetadata first).dev = (first :: rest).all Package.dev := by
  induction rest generalizing first with
  | nil => simp
  | cons next rest ih => simp [ih, Bool.and_assoc]

/-- Two or more listings of a package that declare no version, merged: a value of their multiset, but
for the identity they share. -/
def mergedListings (identity : Identity) (listings : List Package) : Package where
  name := identity.name
  version := identity.version
  ecosystem := identity.ecosystem
  dev := listings.all Package.dev
  direct := listings.any Package.direct
  indirect := listings.any Package.indirect
  optional := listings.any Package.optional
  peer := listings.any Package.peer
  via := stringSet (listings.flatMap Package.via)
  parents := parentSet (listings.flatMap Package.parents)
  sourceRefs := stringSet (listings.flatMap Package.sourceRefs)

theorem foldl_mergePackageMetadata {first second : Package} {rest : List Package}
    (hdeclared : ∀ pkg ∈ first :: second :: rest, pkg.declaredVersion = "") :
    (second :: rest).foldl mergePackageMetadata first =
      mergedListings first.identity (first :: second :: rest) := by
  induction rest using List.reverseRecOn with
  | nil =>
    have hfirst : first.declaredVersion = "" := hdeclared first (by simp)
    have hsecond : second.declaredVersion = "" := hdeclared second (by simp)
    change mergePackageMetadata first second = _
    simp only [mergedListings, Package.identity, ← dev_mergePackageMetadata, List.all_cons, List.all_nil,
      List.any_cons, List.any_nil, Bool.and_true, Bool.or_false, List.flatMap_cons, List.flatMap_nil,
      List.append_nil]
    simp [mergePackageMetadata, mergePackageStringSet, mergePackageParents, hfirst, hsecond]
  | append_singleton rest last ih =>
    have hlast : last.declaredVersion = "" := hdeclared last (by simp)
    have hrest : ∀ pkg ∈ first :: second :: rest, pkg.declaredVersion = "" := by
      intro pkg hpkg
      exact hdeclared pkg (by simp only [List.mem_cons, List.mem_append] at hpkg ⊢; tauto)
    rw [← List.cons_append, List.foldl_append, ih hrest, List.foldl_cons, List.foldl_nil]
    have hdev := dev_mergePackageMetadata (mergedListings first.identity (first :: second :: rest)) last
    have happend : first :: (second :: rest ++ [last]) = (first :: second :: rest) ++ [last] := rfl
    rw [happend]
    generalize first :: second :: rest = listings at hdev ⊢
    simp only [mergedListings, List.all_append, List.any_append, List.flatMap_append, List.all_cons,
      List.all_nil, List.any_cons, List.any_nil, Bool.and_true, Bool.or_false, List.flatMap_cons,
      List.flatMap_nil, List.append_nil, ← mergePackageStringSet_stringSet,
      ← mergePackageParents_parentSet] at hdev ⊢
    rw [← hdev]
    simp [mergePackageMetadata, hlast]

lemma mergedListings_perm {identity : Identity} {xs ys : List Package} (h : xs.Perm ys) :
    mergedListings identity xs = mergedListings identity ys := by
  have hstrings (f : Package → List String) :
      stringSet (xs.flatMap f) = stringSet (ys.flatMap f) :=
    stringSet_congr fun value => ((h.flatMap_right f).map trimSpace |>.filter _).mem_iff
  have hparents : parentSet (xs.flatMap Package.parents) = parentSet (ys.flatMap Package.parents) :=
    parentSet_congr fun parent =>
      ((h.flatMap_right Package.parents).map PackageParent.trimmed |>.filter _).mem_iff
  simp only [mergedListings, hstrings, hparents, h.all_eq, h.any_eq]

/-- Merging the listings of one package does not depend on their order. -/
lemma mergeAll_perm {identity : Identity} {xs ys : List Package} (h : xs.Perm ys)
    (hidentity : ∀ pkg ∈ xs, pkg.identity = identity)
    (hdeclared : ∀ pkg ∈ xs, pkg.declaredVersion = "") :
    KeyedMerge.mergeAll mergePackageMetadata xs = KeyedMerge.mergeAll mergePackageMetadata ys := by
  rcases xs with _ | ⟨x, xs⟩
  · rw [List.nil_perm.mp h]
  rcases xs with _ | ⟨x', xs⟩
  · rw [List.singleton_perm.mp h]
  -- at least two listings, so both sides are the merge of the multiset
  rcases ys with _ | ⟨y, ys⟩
  · exact absurd h.length_eq (by simp)
  rcases ys with _ | ⟨y', ys⟩
  · exact absurd h.length_eq (by simp)
  have hy : y.identity = identity := hidentity y (h.mem_iff.mpr (by simp))
  simp only [KeyedMerge.mergeAll]
  rw [foldl_mergePackageMetadata hdeclared,
    foldl_mergePackageMetadata fun pkg hpkg => hdeclared pkg (h.mem_iff.mpr hpkg),
    hidentity x (by simp), hy, mergedListings_perm h]

/-- Removes duplicate packages, merging their metadata. -/
def dedup (pkgs : List Package) : List Package :=
  KeyedMerge.collect Package.identity mergePackageMetadata pkgs

/-- The packages without duplicates are the same for every order of listings that declare no version. -/
theorem dedup_perm {xs ys : List Package} (h : xs.Perm ys)
    (hdeclared : ∀ pkg ∈ xs, pkg.declaredVersion = "") : (dedup xs).Perm (dedup ys) := by
  apply KeyedMerge.collect_perm identity_mergePackageMetadata
  intro identity
  have hgroup : (KeyedMerge.group Package.identity xs identity).Perm
      (KeyedMerge.group Package.identity ys identity) := h.filter _
  apply mergeAll_perm hgroup
  · intro pkg hpkg
    exact (KeyedMerge.mem_group.mp hpkg).2
  · intro pkg hpkg
    exact hdeclared pkg (KeyedMerge.mem_group.mp hpkg).1

end Packmon.Domain

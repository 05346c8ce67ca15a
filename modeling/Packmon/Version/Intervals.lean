import Packmon.Version.Walk

/-!
# Ranges as unions of intervals

Where the events of a range alternate between an introduced version and an upper boundary, every
stretch of the walk is one interval, and the walk decides membership in their union
(`matchEvents_iff_mem_interval`).

A flat entry is meant as one interval too: at or above `introduced`, below `fixed`, at or below
`last_affected`, each only if it is set.  The detection of the format and the translation into events
lose some of that (`FlatRange.matchEvents_iff`).
-/

namespace Packmon.Version

open GoText GoJson

section

variable (cmp : String → String → Ordering) (version : String)

/-- At or above an introduced version; `0` is no lower bound. -/
def AtLeast (introduced : String) : Prop :=
  introduced = "0" ∨ (cmp version introduced).isGE = true

instance (introduced : String) : Decidable (AtLeast cmp version introduced) :=
  inferInstanceAs (Decidable (_ ∨ _))

/-! ## Events in normal form -/

/-- Where an interval ends. -/
inductive UpperBound where
  | fixed (version : String)
  | lastAffected (version : String)
  | infinity

/-- The version is within the upper bound. -/
def UpperBound.Admits : UpperBound → Prop
  | .fixed v => cmp version v = .lt
  | .lastAffected v => (cmp version v).isLE = true
  | .infinity => True

/-- An interval of versions. -/
structure Interval where
  introduced : String
  upper : UpperBound

/-- The version lies in the interval. -/
def Interval.Contains (interval : Interval) : Prop :=
  AtLeast cmp version interval.introduced ∧ interval.upper.Admits cmp version

end

/-- The event says where an interval starts, and nothing else. -/
def OsvRangeEvent.IsIntroduced (event : OsvRangeEvent) : Prop :=
  event.introduced ≠ "" ∧ event.closes = false

instance (event : OsvRangeEvent) : Decidable event.IsIntroduced :=
  inferInstanceAs (Decidable (_ ∧ _))

/-- The event says where an interval ends, and nothing else. -/
def OsvRangeEvent.IsClosure (event : OsvRangeEvent) : Prop :=
  event.introduced = "" ∧ event.limit = "" ∧
    (event.fixed ≠ "" ∧ event.lastAffected = "" ∨ event.fixed = "" ∧ event.lastAffected ≠ "")

instance (event : OsvRangeEvent) : Decidable event.IsClosure :=
  inferInstanceAs (Decidable (_ ∧ _ ∧ _))

/-- Introduced versions and upper boundaries in turn; the last interval may be open. -/
inductive Alternating : List OsvRangeEvent → Prop
  | nil : Alternating []
  | unclosed {start : OsvRangeEvent} : start.IsIntroduced → Alternating [start]
  | interval {start stop : OsvRangeEvent} {events : List OsvRangeEvent} :
    start.IsIntroduced → stop.IsClosure → Alternating events → Alternating (start :: stop :: events)

/-- One boundary is strictly before another one; the introduced `0` is before every version. -/
def Boundary.lt (cmp : String → String → Ordering) (b b' : Boundary) : Prop :=
  match b.version, b'.version with
  | _, none => False
  | none, some _ => True
  | some v, some v' => cmp v v' = .lt

instance (cmp : String → String → Ordering) : DecidableRel (Boundary.lt cmp) := fun b b' =>
  decidable_of_iff (∃ v' ∈ b'.version, ∀ v ∈ b.version, cmp v v' = .lt) (by
    unfold Boundary.lt
    split <;> simp [*])

/-- The events alternate and their versions ascend. -/
structure NormalForm (cmp : String → String → Ordering) (events : List OsvRangeEvent) : Prop where
  alternating : Alternating events
  ascending : (events.flatMap OsvRangeEvent.boundaries).IsChain (Boundary.lt cmp)

/-- The upper bound a closing event sets. -/
def OsvRangeEvent.upperBound (event : OsvRangeEvent) : UpperBound :=
  if event.fixed ≠ "" then .fixed event.fixed else .lastAffected event.lastAffected

/-- The intervals of alternating events. -/
def intervals : List OsvRangeEvent → List Interval
  | [] => []
  | [start] => [⟨start.introduced, .infinity⟩]
  | start :: stop :: events => ⟨start.introduced, stop.upperBound⟩ :: intervals events

section

variable {cmp : String → String → Ordering} {version : String}

/-- The lower bound the walk tests, for an introduced version that is set. -/
lemma lowerBound_iff (introduced : String) :
    (normalizeIntroduced introduced ≠ "" → cmp version (normalizeIntroduced introduced) ≠ .lt) ↔
      (introduced ≠ "" → AtLeast cmp version introduced) := by
  rw [normalizeIntroduced, AtLeast]
  split_ifs with hzero
  · simp [hzero]
  · simp [hzero, Ordering.isGE_iff_ne_lt]

lemma versionInRange_iff (introduced fixed lastAffected : String) :
    versionInRange cmp version (normalizeIntroduced introduced) fixed lastAffected = true ↔
      (introduced ≠ "" → AtLeast cmp version introduced) ∧
        (fixed ≠ "" → cmp version fixed = .lt) ∧
          (lastAffected ≠ "" → (cmp version lastAffected).isLE = true) := by
  rw [versionInRange, ← lowerBound_iff]
  simp [Ordering.isLE_iff_ne_gt, and_assoc, or_iff_not_imp_left]

lemma openEnded_iff (introduced : String) :
    openEnded cmp version (normalizeIntroduced introduced) true = true ↔
      (introduced ≠ "" → AtLeast cmp version introduced) := by
  rw [openEnded, ← lowerBound_iff, Bool.true_and, Bool.or_eq_true, decide_eq_true_eq,
    Ordering.isGE_iff_ne_lt, or_iff_not_imp_left]

/-- An event that only starts an interval. -/
lemma matchEvents_start {start : OsvRangeEvent} (hstart : start.IsIntroduced)
    (events : List OsvRangeEvent) :
    matchEvents cmp version "" false (start :: events) =
      matchEvents cmp version (normalizeIntroduced start.introduced) true events := by
  obtain ⟨hset, hopen⟩ := hstart
  simp [matchEvents, hset, hopen]

/-- An event that only ends an interval. -/
lemma matchEvents_stop {stop : OsvRangeEvent} (hstop : stop.introduced = "")
    (hcloses : stop.closes = true) (introduced : String) (hadIntroduced : Bool)
    (events : List OsvRangeEvent) :
    matchEvents cmp version introduced hadIntroduced (stop :: events) =
      (versionInRange cmp version introduced stop.fixed stop.lastAffected ||
        matchEvents cmp version "" false events) := by
  rw [matchEvents]
  simp [hstop, hcloses]

lemma OsvRangeEvent.IsClosure.closes {stop : OsvRangeEvent} (hstop : stop.IsClosure) :
    stop.closes = true := by
  obtain ⟨-, -, ⟨hfixed, -⟩ | ⟨-, hlast⟩⟩ := hstop
  · simp [OsvRangeEvent.closes, hfixed]
  · simp [OsvRangeEvent.closes, hlast]

/-- What a closing event tests is its upper bound. -/
lemma OsvRangeEvent.IsClosure.admits_iff {stop : OsvRangeEvent} (hstop : stop.IsClosure) :
    stop.upperBound.Admits cmp version ↔
      (stop.fixed ≠ "" → cmp version stop.fixed = .lt) ∧
        (stop.lastAffected ≠ "" → (cmp version stop.lastAffected).isLE = true) := by
  obtain ⟨-, -, ⟨hfixed, hlast⟩ | ⟨hfixed, hlast⟩⟩ := hstop
  · simp [OsvRangeEvent.upperBound, UpperBound.Admits, hfixed, hlast]
  · simp [OsvRangeEvent.upperBound, UpperBound.Admits, hfixed, hlast]

/-- On alternating events the walk decides membership in the union of the intervals.  The order of the
intervals is not needed: an upper boundary forgets everything before it. -/
theorem matchEvents_iff_mem_interval {events : List OsvRangeEvent} (h : Alternating events) :
    matchEvents cmp version "" false events = true ↔
      ∃ interval ∈ intervals events, interval.Contains cmp version := by
  induction h with
  | nil => simp [matchEvents, openEnded, intervals]
  | unclosed hstart =>
    rw [matchEvents_start hstart, matchEvents, openEnded_iff]
    simp [intervals, Interval.Contains, UpperBound.Admits, hstart.1]
  | interval hstart hstop _ ih =>
    rw [matchEvents_start hstart, matchEvents_stop hstop.1 hstop.closes, Bool.or_eq_true, ih,
      versionInRange_iff, ← hstop.admits_iff]
    simp [intervals, Interval.Contains, hstart.1]

end

/-- The version is a full commit hash of an action, which is never compared. -/
def IsActionCommit (version ecosystem : String) : Prop :=
  equalFold ecosystem "actions" = true ∧ isFullGitCommitSHA version = true

/-- The walk over the events decides, unless the version is a commit hash. -/
lemma matchRange_iff {version ecosystem : String} {r : OsvRange} (hgit : r.isGit = false) :
    matchRange version ecosystem r = true ↔ ¬IsActionCommit version ecosystem ∧
      matchEvents (fun a b => compare a b r.type ecosystem) version "" false r.events = true := by
  rw [OsvRange.isGit] at hgit
  simp [matchRange, skipRangeComparisonForVersion, IsActionCommit, hgit, or_iff_not_imp_left]

/-- On ranges in normal form the walk reports exactly the union of their intervals, whatever preorder
the versions are compared by. -/
theorem matchRanges_normalForm :
    (∀ (cmp : String → String → Ordering) [Std.TransCmp cmp] (events : List OsvRangeEvent),
      NormalForm cmp events → ∀ version,
        (matchEvents cmp version "" false events = true ↔
          ∃ interval ∈ intervals events, interval.Contains cmp version)) ∧
    ∀ (version rangesJSON ecosystem : String) (ranges : List OsvRange),
      parseRanges rangesJSON = some ranges → ¬IsActionCommit version ecosystem →
      (∀ r ∈ ranges, r.isGit = false ∧
        NormalForm (fun a b => compare a b r.type ecosystem) r.events) →
      ((∃ evaluated, matchRanges version rangesJSON ecosystem = some (true, evaluated)) ↔
        ∃ r ∈ ranges, ∃ interval ∈ intervals r.events,
          interval.Contains (fun a b => compare a b r.type ecosystem) version) := by
  refine ⟨fun cmp _ events h version => matchEvents_iff_mem_interval h.alternating, ?_⟩
  intro version rangesJSON ecosystem ranges hparse hsha hranges
  have hmatch : (∃ evaluated, matchRanges version rangesJSON ecosystem = some (true, evaluated)) ↔
      (matchOsvRanges version ecosystem 0 ranges).1 = true := by
    rw [matchRanges, hparse, Option.map_some]
    simp [Prod.ext_iff]
  rw [hmatch, matchOsvRanges_fst]
  refine exists_congr fun r => and_congr_right fun hr => ?_
  obtain ⟨hgit, hnormal⟩ := hranges r hr
  rw [matchRange_iff hgit, matchEvents_iff_mem_interval hnormal.alternating]
  simp [hgit, hsha]

/-- Everything before 1.0, and 2.0 up to 3.0. -/
def twoIntervals : List OsvRange :=
  [{ type := "SEMVER"
     events := [{ introduced := "0" }, { fixed := "1.0" }, { introduced := "2.0" },
       { lastAffected := "3.0" }] }]

/-- The two intervals as a document. -/
def twoIntervalsJSON : String := String.ofList <| Json.Printer.compact.render <|
  .arr [.obj [("type", .str "SEMVER"), ("events", .arr
    [.obj [("introduced", .str "0")], .obj [("fixed", .str "1.0")],
      .obj [("introduced", .str "2.0")], .obj [("last_affected", .str "3.0")]])]]

lemma parseRanges_twoIntervals : parseRanges twoIntervalsJSON = some twoIntervals := by
  rw [parseRanges, twoIntervalsJSON, String.toList_ofList, Json.Printer.parse_render]
  rfl

lemma twoIntervals_normalForm : ∀ r ∈ twoIntervals, r.isGit = false ∧
    NormalForm (fun a b => compare a b r.type "npm") r.events := by
  intro r hr
  obtain rfl := List.mem_singleton.mp hr
  have hfirst : OsvRangeEvent.IsIntroduced { introduced := "0" } ∧
      OsvRangeEvent.IsClosure { fixed := "1.0" } := by decide
  have hsecond : OsvRangeEvent.IsIntroduced { introduced := "2.0" } ∧
      OsvRangeEvent.IsClosure { lastAffected := "3.0" } := by decide
  have halternating := (Alternating.nil.interval hsecond.1 hsecond.2).interval hfirst.1 hfirst.2
  exact ⟨by decide, halternating, by decide⟩

/-- Version 2.5 is in the second interval. -/
theorem matchRanges_normalForm_second :
    ∃ evaluated, matchRanges "2.5" twoIntervalsJSON "npm" = some (true, evaluated) := by
  have hsha : ¬IsActionCommit "2.5" "npm" := by
    intro h
    exact absurd h.1 (by decide)
  have hreported := matchRanges_normalForm.2 "2.5" twoIntervalsJSON "npm" twoIntervals
    parseRanges_twoIntervals hsha twoIntervals_normalForm
  refine hreported.mpr ⟨_, List.mem_cons_self, ⟨"2.0", .lastAffected "3.0"⟩, ?_, ?_, ?_⟩
  · exact List.mem_cons_of_mem _ List.mem_cons_self
  · exact Or.inr (by decide)
  · exact (by decide : (compare "2.5" "3.0" "SEMVER" "npm").isLE = true)

/-! ## Flat entries -/

namespace FlatRange

/-- The members of a flat entry: a key for every boundary that is set. -/
def members (f : FlatRange) : List (String × Json) :=
  (if f.introduced ≠ "" then [("introduced", .str f.introduced)] else []) ++
    (if f.fixed ≠ "" then [("fixed", .str f.fixed)] else []) ++
      if f.lastAffected ≠ "" then [("last_affected", .str f.lastAffected)] else []

/-- No boundary is set. -/
def IsUnset (f : FlatRange) : Prop := f.introduced = "" ∧ f.fixed = "" ∧ f.lastAffected = ""

section

variable (cmp : String → String → Ordering) (version : String)

/-- The versions the entry is meant to have: every boundary that is set bounds them. -/
def Contains (f : FlatRange) : Prop :=
  (f.introduced ≠ "" → AtLeast cmp version f.introduced) ∧
    (f.fixed ≠ "" → cmp version f.fixed = .lt) ∧
      (f.lastAffected ≠ "" → (cmp version f.lastAffected).isLE = true)

/-- An entry with both upper boundaries becomes two intervals: the one up to `fixed`, and everything up
to `last_affected`. -/
def IsSplit (f : FlatRange) : Prop :=
  f.fixed ≠ "" ∧ f.lastAffected ≠ "" ∧
    ((f.introduced ≠ "" → AtLeast cmp version f.introduced) ∧ cmp version f.fixed = .lt ∨
      (cmp version f.lastAffected).isLE = true)

end

variable {cmp : String → String → Ordering} {version : String}

lemma events_eq_nil_iff (f : FlatRange) : f.events = [] ↔ f.IsUnset := by
  simp [events, IsUnset]

/-- The event of an introduced version, if there is one, opens it. -/
lemma matchEvents_introduced (introduced : String) (events : List OsvRangeEvent) :
    matchEvents cmp version "" false
        ((if introduced ≠ "" then [{ introduced := introduced }] else []) ++ events) =
      matchEvents cmp version (normalizeIntroduced introduced) (introduced ≠ "") events := by
  by_cases h : introduced = ""
  · simp [h, normalizeIntroduced]
  · simp [matchEvents, h, OsvRangeEvent.closes]

/-- The walk over the events of one entry. -/
lemma matchEvents_iff (f : FlatRange) :
    matchEvents cmp version "" false f.events = true ↔
      ¬f.IsUnset ∧ (f.Contains cmp version ∨ f.IsSplit cmp version) := by
  have hfixedCloses (h : f.fixed ≠ "") : OsvRangeEvent.closes { fixed := f.fixed } = true := by
    simp [OsvRangeEvent.closes, h]
  have hlastCloses (h : f.lastAffected ≠ "") :
      OsvRangeEvent.closes { lastAffected := f.lastAffected } = true := by
    simp [OsvRangeEvent.closes, h]
  have hnone : matchEvents cmp version "" false [] = false := rfl
  have hforgotten := @versionInRange_iff cmp version "" "" f.lastAffected
  rw [events, List.append_assoc, matchEvents_introduced]
  by_cases hfixed : f.fixed = "" <;> by_cases hlast : f.lastAffected = ""
  · by_cases hintroduced : f.introduced = ""
    · simp [matchEvents, openEnded, IsUnset, hfixed, hlast, hintroduced]
    · simp [matchEvents, openEnded_iff, IsUnset, Contains, IsSplit, hfixed, hlast, hintroduced]
  · simp [matchEvents_stop, hlastCloses hlast, versionInRange_iff, hnone, IsUnset, Contains, IsSplit,
      hfixed, hlast]
  · simp [matchEvents_stop, hfixedCloses hfixed, versionInRange_iff, hnone, IsUnset, Contains,
      IsSplit, hfixed, hlast]
  · rw [normalizeIntroduced, if_neg (by decide)] at hforgotten
    simp [matchEvents_stop, hfixedCloses hfixed, hlastCloses hlast, versionInRange_iff, hforgotten,
      hnone, IsUnset, Contains, IsSplit, hfixed, hlast]
    tauto

lemma decodeFlatRange_members (f : FlatRange) : decodeFlatRange {} (.obj f.members) = some f := by
  obtain ⟨introduced, fixed, lastAffected⟩ := f
  by_cases hintroduced : introduced = "" <;> by_cases hfixed : fixed = "" <;>
    by_cases hlast : lastAffected = "" <;>
      simp [members, decodeFlatRange, object, decodeMembers, Fields.get, List.lookup_cons, field, string,
        hintroduced, hfixed, hlast]

/-- As a range of the full format a flat entry is empty. -/
lemma decodeRange_members (f : FlatRange) : decodeRange {} (.obj f.members) = some {} := by
  refine decodeMembers_of_forall_none ?_ _
  intro m hm
  have hname : m.1 ∈ ["introduced", "fixed", "last_affected"] := by
    simp only [members, List.mem_append, List.mem_ite_nil_right, List.mem_singleton] at hm
    rcases hm with (⟨-, rfl⟩ | ⟨-, rfl⟩) | ⟨-, rfl⟩
    all_goals simp
  revert hname
  generalize m.1 = name
  revert name
  decide

end FlatRange

/-- A flat list as a document. -/
def flatJSON (p : Json.Printer) (flat : List FlatRange) : String :=
  String.ofList (p.render (.arr (flat.map fun f => .obj f.members)))

/-- The text of a flat list has the key that the detection of the format looks for. -/
def FlatDetected (p : Json.Printer) (flat : List FlatRange) : Prop :=
  contains (flatJSON p flat) "\"introduced\"" = true

section

variable {p : Json.Printer} {flat : List FlatRange} {version ecosystem : String}

lemma parseRanges_flatJSON : parseRanges (flatJSON p flat) =
    some (if flat ≠ [] ∧ contains (flatJSON p flat) "\"introduced\"" = true then flatToFull flat
      else flat.map fun _ => {}) := by
  have hfull : slice decodeRange {} {} (.arr (flat.map fun f => .obj f.members)) =
      some (Slice.ofList (flat.map fun _ => {})) :=
    slice_map fun f _ => f.decodeRange_members
  have hflat : slice decodeFlatRange {} {} (.arr (flat.map fun f => .obj f.members)) =
      some (Slice.ofList (flat.map id)) :=
    slice_map fun f _ => f.decodeFlatRange_members
  have hblank : (flat.map fun _ => ({} : DecodedRange)).map DecodedRange.toOsvRange =
      flat.map fun _ => {} := by
    rw [List.map_map]
    rfl
  have hdetect : isFlatFormat (flat.map fun _ => {}) (flatJSON p flat) =
      decide (flat ≠ [] ∧ contains (flatJSON p flat) "\"introduced\"" = true) := by
    cases flat <;> simp [isFlatFormat]
  have hparse : Json.parse (flatJSON p flat).toList =
      some (.arr (flat.map fun f => .obj f.members)) := by
    rw [flatJSON, String.toList_ofList, Json.Printer.parse_render]
  rw [parseRanges, hparse, Option.bind_some, hfull, Option.map_some, Slice.items_ofList, hblank,
    hflat]
  simp only [hdetect, Slice.items_ofList, List.map_id, decide_eq_true_eq]

/-- A flat list has no explicit versions beside it, and its text can be read. -/
lemma versionAffected_flatJSON : ∃ affected,
    versionAffected version (flatJSON p flat) "" ecosystem = some affected ∧
      (affected = true ↔ ∀ ranges ∈ parseRanges (flatJSON p flat),
        Affected version ecosystem ranges []) := by
  have hread : readRanges (flatJSON p flat) = parseRanges (flatJSON p flat) := by
    rw [readRanges, flatJSON, trimSpace_render_arr, if_pos (render_arr_ne p _)]
  have hversions : readVersions "" = some [] := by decide
  have hranges : ∃ ranges, readRanges (flatJSON p flat) = some ranges :=
    ⟨_, hread.trans parseRanges_flatJSON⟩
  obtain ⟨ranges, hranges⟩ := hranges
  refine ⟨_, versionAffected_eq_some hranges hversions, ?_⟩
  rw [accepts_iff, hread, hversions]
  simp

/-- The versions the entries are meant to have. -/
def InFlat (flat : List FlatRange) (version ecosystem : String) : Prop :=
  ∃ f ∈ flat, f.Contains (fun a b => compare a b "SEMVER" ecosystem) version

/-- Entries that are not taken for flat ones have no events. -/
lemma not_affected_blank (hne : flat ≠ []) :
    ¬Affected version ecosystem (flat.map fun _ => {}) [] := by
  obtain ⟨f, flat, rfl⟩ := List.exists_cons_of_ne_nil hne
  have hgit : OsvRange.isGit {} = false := by decide
  have hmatch : matchRange version ecosystem {} = false := by
    rw [matchRange, matchEvents, openEnded, Bool.false_and, Bool.and_false]
  simp [Affected, hgit, hmatch]

lemma mem_flatToFull {r : OsvRange} :
    r ∈ flatToFull flat ↔ ∃ f ∈ flat, ¬f.IsUnset ∧ r = ⟨"SEMVER", f.events⟩ := by
  have hset (f : FlatRange) : (!f.events.isEmpty) = true ↔ ¬f.IsUnset := by
    simp [f.events_eq_nil_iff]
  simp only [flatToFull, List.mem_map, List.mem_filter, hset, and_assoc, @eq_comm _ r]

/-- Entries that are taken for flat ones are walked over one by one; those without a boundary are
dropped, and when none is left every version is affected. -/
lemma affected_flatToFull : Affected version ecosystem (flatToFull flat) [] ↔
    (∀ f ∈ flat, f.IsUnset) ∨ ¬IsActionCommit version ecosystem ∧ ∃ f ∈ flat, ¬f.IsUnset ∧
      (f.Contains (fun a b => compare a b "SEMVER" ecosystem) version ∨
        f.IsSplit (fun a b => compare a b "SEMVER" ecosystem) version) := by
  have hgit {r : OsvRange} (hr : r ∈ flatToFull flat) : r.isGit = false := by
    obtain ⟨f, -, -, rfl⟩ := mem_flatToFull.mp hr
    exact (by decide : equalFold "SEMVER" "GIT" = false)
  have hwalk : (∃ r ∈ flatToFull flat, r.isGit = false ∧ matchRange version ecosystem r = true) ↔
      ¬IsActionCommit version ecosystem ∧ ∃ f ∈ flat, ¬f.IsUnset ∧
        (f.Contains (fun a b => compare a b "SEMVER" ecosystem) version ∨
          f.IsSplit (fun a b => compare a b "SEMVER" ecosystem) version) := by
    constructor
    · rintro ⟨r, hr, -, hmatch⟩
      obtain ⟨hsha, hevents⟩ := (matchRange_iff (hgit hr)).mp hmatch
      obtain ⟨f, hf, -, rfl⟩ := mem_flatToFull.mp hr
      exact ⟨hsha, f, hf, f.matchEvents_iff.mp hevents⟩
    · rintro ⟨hsha, f, hf, hset, hcontains⟩
      have hr : ⟨"SEMVER", f.events⟩ ∈ flatToFull flat := mem_flatToFull.mpr ⟨f, hf, hset, rfl⟩
      exact ⟨_, hr, hgit hr,
        (matchRange_iff (hgit hr)).mpr ⟨hsha, f.matchEvents_iff.mpr ⟨hset, hcontains⟩⟩⟩
  have hall : (∀ r ∈ flatToFull flat, r.isGit = true) ↔ ∀ f ∈ flat, f.IsUnset := by
    constructor
    · intro h f hf
      by_contra hset
      have hr := mem_flatToFull.mpr ⟨f, hf, hset, rfl⟩
      exact absurd (h _ hr) (by simp [hgit hr])
    · intro h r hr
      obtain ⟨f, hf, hset, -⟩ := mem_flatToFull.mp hr
      exact absurd (h f hf) hset
  rw [Affected, hwalk, hall]
  simp [or_comm]

/-- What the evaluation of a flat list comes to. -/
lemma affected_flat_iff :
    (∀ ranges ∈ parseRanges (flatJSON p flat), Affected version ecosystem ranges []) ↔
      flat = [] ∨ FlatDetected p flat ∧
        ((∀ f ∈ flat, f.IsUnset) ∨ ¬IsActionCommit version ecosystem ∧ ∃ f ∈ flat, ¬f.IsUnset ∧
          (f.Contains (fun a b => compare a b "SEMVER" ecosystem) version ∨
            f.IsSplit (fun a b => compare a b "SEMVER" ecosystem) version)) := by
  rw [parseRanges_flatJSON, ← affected_flatToFull]
  by_cases hne : flat = []
  · subst hne
    simp [Affected]
  · by_cases hdetected : contains (flatJSON p flat) "\"introduced\"" = true
    · simp [hne, hdetected, FlatDetected]
    · have hblank := @not_affected_blank flat version ecosystem hne
      simpa [hne, hdetected, FlatDetected] using hblank

/-- Where the evaluation of a flat list agrees with the union of its entries. -/
structure FlatExact (p : Json.Printer) (flat : List FlatRange) (version ecosystem : String) :
    Prop where
  /-- An empty list affects every version. -/
  ne_nil : flat ≠ []
  /-- A list that is not taken for a flat one affects nothing, nor does it affect a commit hash, and
  an entry without a boundary counts only where there are no others. -/
  found : InFlat flat version ecosystem → FlatDetected p flat ∧
    ((∀ f ∈ flat, f.IsUnset) ∨ ¬IsActionCommit version ecosystem ∧ ∃ f ∈ flat, ¬f.IsUnset ∧
      (f.Contains (fun a b => compare a b "SEMVER" ecosystem) version ∨
        f.IsSplit (fun a b => compare a b "SEMVER" ecosystem) version))
  /-- An entry that is split adds nothing to the union. -/
  unsplit : FlatDetected p flat → ¬IsActionCommit version ecosystem →
    ∀ f ∈ flat, f.IsSplit (fun a b => compare a b "SEMVER" ecosystem) version →
      InFlat flat version ecosystem

/-- The evaluation of a flat list is membership in the union of its entries exactly where nothing is
lost by the detection and the translation. -/
theorem versionAffected_flat_iff (p : Json.Printer) (flat : List FlatRange)
    (version ecosystem : String) :
    (∃ affected, versionAffected version (flatJSON p flat) "" ecosystem = some affected ∧
      (affected = true ↔ InFlat flat version ecosystem)) ↔ FlatExact p flat version ecosystem := by
  obtain ⟨affected, heq, haffected⟩ := @versionAffected_flatJSON p flat version ecosystem
  rw [affected_flat_iff] at haffected
  have hresult : (∃ affected, versionAffected version (flatJSON p flat) "" ecosystem = some affected ∧
      (affected = true ↔ InFlat flat version ecosystem)) ↔
      (affected = true ↔ InFlat flat version ecosystem) := by
    simp [heq]
  rw [hresult, haffected]
  -- what is meant and what is computed, on the two kinds of entries that matter
  have hunset (hne : flat ≠ []) (h : ∀ f ∈ flat, f.IsUnset) : InFlat flat version ecosystem := by
    obtain ⟨f, hf⟩ := List.exists_mem_of_ne_nil flat hne
    obtain ⟨hintroduced, hfixed, hlast⟩ := h f hf
    exact ⟨f, hf, by simp [FlatRange.Contains, hintroduced, hfixed, hlast]⟩
  have hsplit {f : FlatRange} (h : f.IsSplit (fun a b => compare a b "SEMVER" ecosystem) version) :
      ¬f.IsUnset := fun hunset => h.1 hunset.2.1
  constructor
  · intro h
    refine ⟨?_, ?_, ?_⟩
    · rintro rfl
      obtain ⟨f, hf, -⟩ := h.mp (Or.inl rfl)
      cases hf
    · intro hin
      rcases h.mpr hin with rfl | hfound
      · obtain ⟨f, hf, -⟩ := hin
        cases hf
      · exact hfound
    · intro hdetected hsha f hf hf'
      exact h.mp (Or.inr ⟨hdetected, Or.inr ⟨hsha, f, hf, hsplit hf', Or.inr hf'⟩⟩)
  · intro h
    constructor
    · rintro (hnil | ⟨hdetected, hall | ⟨hsha, f, hf, -, hcontains | hsplits⟩⟩)
      · exact absurd hnil h.ne_nil
      · exact hunset h.ne_nil hall
      · exact ⟨f, hf, hcontains⟩
      · exact h.unsplit hdetected hsha f hf hsplits
    · intro hin
      exact Or.inr (h.found hin)

/-- One entry that only has a fixed version. -/
def fixedOnly : List FlatRange := [{ fixed := "1.0.0" }]

/-- Version 0.5.0 is below the only boundary of the list, but without the key `introduced` the list is
not taken for a flat one. -/
theorem fixedOnly_not_affected :
    versionAffected "0.5.0" (flatJSON .compact fixedOnly) "" "npm" = some false ∧
      InFlat fixedOnly "0.5.0" "npm" := by
  have hbelow : compare "0.5.0" "1.0.0" "SEMVER" "npm" = .lt := by decide
  refine ⟨by decide +kernel, _, List.mem_singleton_self _, ?_, ?_, ?_⟩
  · intro h
    exact absurd rfl h
  · intro _
    exact hbelow
  · intro h
    exact absurd rfl h

end

end Packmon.Version

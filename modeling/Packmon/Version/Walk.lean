import Packmon.Version.Ranges
import Mathlib.Data.List.Sort

/-!
# The walk over the events and the evaluation of the schema

`matchEvents` forgets an introduced version as soon as another one follows and whenever an upper boundary
closes it.  What it computes is said by the stretches of the list (`stretches`): the events after one
upper boundary up to and including the next.  A version matches exactly when some stretch covers it
(`matchEvents_eq_any`).

The OSV schema evaluates the events in the order of their versions instead (`osvAffected`).  A version
that the schema calls affected can be missed: an introduced version that is followed by another one
before the next upper boundary has no stretch of its own.
-/

namespace Packmon.Version

open GoText GoJson

/-! ## Stretches -/

/-- Cut the events behind every upper boundary. -/
def stretches : List OsvRangeEvent → List (List OsvRangeEvent)
  | [] => []
  | event :: events =>
    if event.closes then [event] :: stretches events
    else
      match stretches events with
      | [] => [[event]]
      | stretch :: rest => (event :: stretch) :: rest

/-- The introduced version an event leaves open. -/
def nextIntroduced (introduced : String) (event : OsvRangeEvent) : String :=
  if event.introduced ≠ "" then normalizeIntroduced event.introduced else introduced

section

variable (cmp : String → String → Ordering) (version : String)

/-- The stretch covers the version, when it starts with an open introduced version: its last introduced
version is at or below the version (none at all is below every version, and so is `0`), and its upper
boundary is above it.  A stretch without an upper boundary needs an introduced version. -/
def coversFrom (introduced : String) (hadIntroduced : Bool) (stretch : List OsvRangeEvent) : Bool :=
  match stretch.getLast? with
  | some last =>
    if last.closes then
      versionInRange cmp version (stretch.foldl nextIntroduced introduced) last.fixed last.lastAffected
    else
      openEnded cmp version (stretch.foldl nextIntroduced introduced)
        (hadIntroduced || stretch.any fun event => event.introduced ≠ "")
  | none => openEnded cmp version introduced hadIntroduced

/-- The stretch covers the version. -/
def covers : List OsvRangeEvent → Bool := coversFrom cmp version "" false

variable {cmp version}

/-- An event that does not close a stretch only opens an introduced version. -/
lemma coversFrom_cons {introduced : String} {hadIntroduced : Bool} {event : OsvRangeEvent}
    {stretch : List OsvRangeEvent} (h : event.closes = false) :
    coversFrom cmp version introduced hadIntroduced (event :: stretch) =
      coversFrom cmp version (nextIntroduced introduced event)
        (hadIntroduced || event.introduced ≠ "") stretch := by
  cases stretch with
  | nil => simp [coversFrom, h]
  | cons next stretch =>
    have hlast := List.getLast?_eq_some_getLast (List.cons_ne_nil next stretch)
    simp only [coversFrom, List.getLast?_cons_cons, hlast, List.foldl_cons, List.any_cons,
      Bool.or_assoc]

/-- The walk looks at the first stretch with what is open, and at the others with nothing. -/
lemma matchEvents_eq (introduced : String) (hadIntroduced : Bool) (events : List OsvRangeEvent) :
    matchEvents cmp version introduced hadIntroduced events =
      match stretches events with
      | [] => coversFrom cmp version introduced hadIntroduced []
      | stretch :: rest =>
        coversFrom cmp version introduced hadIntroduced stretch || rest.any (covers cmp version) := by
  induction events generalizing introduced hadIntroduced with
  | nil => rfl
  | cons event events ih =>
    have hopen : (if event.introduced ≠ "" then (normalizeIntroduced event.introduced, true)
        else (introduced, hadIntroduced)) =
        (nextIntroduced introduced event, hadIntroduced || event.introduced ≠ "") := by
      by_cases h : event.introduced = "" <;> simp [nextIntroduced, h]
    rw [matchEvents, hopen, stretches]
    cases hcloses : event.closes with
    | true =>
      have hrest : matchEvents cmp version "" false events =
          (stretches events).any (covers cmp version) := by
        rw [ih]
        cases stretches events with
        | nil => rfl
        | cons stretch rest => rfl
      simp [hrest, coversFrom, hcloses]
    | false =>
      simp only [Bool.not_false, if_true, ih, Bool.false_eq_true, if_false]
      cases stretches events with
      | nil => simp [coversFrom_cons hcloses]
      | cons stretch rest => simp [coversFrom_cons hcloses]

/-- A version matches exactly when some stretch covers it. -/
theorem matchEvents_eq_any (events : List OsvRangeEvent) :
    matchEvents cmp version "" false events = (stretches events).any (covers cmp version) := by
  rw [matchEvents_eq]
  cases stretches events with
  | nil => rfl
  | cons stretch rest => rfl

end

/-- Some range that is not left out has a stretch that covers the version. -/
def Covered (version ecosystem : String) (ranges : List OsvRange) : Prop :=
  ∃ r ∈ ranges, r.isGit = false ∧
    ∃ stretch ∈ stretches r.events,
      covers (fun a b => compare a b r.type ecosystem) version stretch = true

/-! ## The evaluation of the schema -/

/-- A boundary of an event. -/
inductive Boundary where
  | introduced (version : String)
  | fixed (version : String)
  | lastAffected (version : String)

namespace Boundary

/-- The version of a boundary; nothing for the introduced `0`, which is before every version. -/
def version : Boundary → Option String
  | introduced v => if v = "0" then none else some v
  | fixed v => some v
  | lastAffected v => some v

/-- One boundary is at or before another one. -/
def le (cmp : String → String → Ordering) (b b' : Boundary) : Prop :=
  match b.version, b'.version with
  | none, _ => True
  | some _, none => False
  | some v, some v' => (cmp v v').isLE = true

instance (cmp : String → String → Ordering) : DecidableRel (le cmp) := fun b b' => by
  unfold le
  split <;> infer_instance

/-- What is known of a version after one more boundary. -/
def step (cmp : String → String → Ordering) (version : String) (affected : Bool) : Boundary → Bool
  | introduced v => affected || v = "0" || (cmp version v).isGE
  | fixed v => affected && !(cmp version v).isGE
  | lastAffected v => affected && !(cmp version v = .gt)

end Boundary

/-- The boundaries an event sets. -/
def OsvRangeEvent.boundaries (event : OsvRangeEvent) : List Boundary :=
  (if event.introduced ≠ "" then [.introduced event.introduced] else []) ++
    (if event.fixed ≠ "" then [.fixed event.fixed] else []) ++
      if event.lastAffected ≠ "" then [.lastAffected event.lastAffected] else []

/-- The evaluation of the schema: the boundaries in the order of their versions, and the version
affected when the last one that it has reached is an introduced one. -/
def osvAffected (version ecosystem : String) (r : OsvRange) : Bool :=
  let cmp := fun a b => compare a b r.type ecosystem
  ((r.events.flatMap OsvRangeEvent.boundaries).insertionSort (Boundary.le cmp)).foldl
    (Boundary.step cmp version) false

/-- Some range that is not left out affects the version by the evaluation of the schema. -/
def OsvAffected (version ecosystem : String) (ranges : List OsvRange) : Prop :=
  ∃ r ∈ ranges, r.isGit = false ∧ osvAffected version ecosystem r = true

/-- The version is reported, also when the ranges cannot be read. -/
def Reported (version rangesJSON ecosystem : String) : Prop :=
  ((matchRanges version rangesJSON ecosystem).map Prod.fst).getD true = true

lemma reported_iff {version rangesJSON ecosystem : String} {ranges : List OsvRange}
    (hranges : parseRanges rangesJSON = some ranges)
    (hsha : ¬(equalFold ecosystem "actions" = true ∧ isFullGitCommitSHA version = true)) :
    Reported version rangesJSON ecosystem ↔ Covered version ecosystem ranges := by
  have hskip (r : OsvRange) : skipRangeComparisonForVersion version r.type ecosystem = false := by
    rw [skipRangeComparisonForVersion]
    by_contra h
    exact hsha (by simp_all)
  rw [Reported, matchRanges, hranges, Option.map_some, Option.map_some, Option.getD_some,
    matchOsvRanges_fst]
  simp only [matchRange, hskip, matchEvents_eq_any, List.any_eq_true, Bool.not_false, Bool.true_and]
  rfl

/-- Two introduced versions before one fix. -/
def introducedTwice : List OsvRange :=
  [{ type := "SEMVER"
     events := [{ introduced := "1.0" }, { introduced := "3.0" }, { fixed := "4.0" }] }]

/-- The ranges as a document, each boundary under its key. -/
def introducedTwiceJSON : String := String.ofList <| Json.Printer.compact.render <|
  .arr [.obj [("type", .str "SEMVER"), ("events", .arr
    [.obj [("introduced", .str "1.0")], .obj [("introduced", .str "3.0")],
      .obj [("fixed", .str "4.0")]])]]

lemma parseRanges_introducedTwice : parseRanges introducedTwiceJSON = some introducedTwice := by
  rw [parseRanges, introducedTwiceJSON, String.toList_ofList, Json.Printer.parse_render]
  rfl

end Packmon.Version

import Packmon.Version.Walk

/-!
# Fix advice

`extractFixedVersionFor` walks the ranges like `matchRanges` and answers with the fixed version of the
first stretch that covers the installed version and ends in one.  When there is none it falls back to the
lowest fixed version of all ranges, by the order of semantic versions, and that one may be below the
installed version.
-/

namespace Packmon.Version

open GoText GoJson

/-- The lowest of the fixed versions, in the order of semantic versions. -/
def lowestFixed (ranges : List OsvRange) : String :=
  ((ranges.flatMap OsvRange.events).map OsvRangeEvent.fixed).foldl
    (fun best fixed =>
      if fixed = "" then best
      else if best = "" ∨ compareSemver fixed.toList best.toList = .lt then fixed
      else best) ""

def extractFixedVersion (versionRangesJSON : String) : String :=
  let rangesJSON := trimSpace versionRangesJSON
  if rangesJSON = "" ∨ rangesJSON = "null" then ""
  else ((parseRanges rangesJSON).map lowestFixed).getD ""

/-- The fixed version of the first stretch that covers the version and ends in one. -/
def fixedInEvents (cmp : String → String → Ordering) (version : String) :
    String → List OsvRangeEvent → Option String
  | _, [] => none
  | introduced, event :: events =>
    if !event.closes then fixedInEvents cmp version (nextIntroduced introduced event) events
    else if versionInRange cmp version (nextIntroduced introduced event) event.fixed
        event.lastAffected ∧ event.fixed ≠ "" then some event.fixed
    else fixedInEvents cmp version "" events

def fixedInRange (version ecosystem : String) (item : OsvRange) : Option String :=
  if item.isGit then none
  else if skipRangeComparisonForVersion version item.type ecosystem then none
  else fixedInEvents (fun a b => compare a b item.type ecosystem) version "" item.events

def extractFixedVersionFor (installed versionRangesJSON ecosystem : String) : String :=
  let fallback := extractFixedVersion versionRangesJSON
  let installed := trimSpace installed
  let rangesJSON := trimSpace versionRangesJSON
  if installed = "" then fallback
  else if rangesJSON = "" ∨ rangesJSON = "null" then fallback
  else
    match parseRanges rangesJSON with
    | none => fallback
    | some ranges => (ranges.findSome? (fixedInRange installed ecosystem)).getD fallback

/-! ## The walk -/

/-- The stretch ends in a fixed version. -/
def endsInFix (stretch : List OsvRangeEvent) : Bool := stretch.getLast?.any fun last => last.fixed ≠ ""

section

variable {cmp : String → String → Ordering} {version : String}

lemma endsInFix_cons {event : OsvRangeEvent} {stretch : List OsvRangeEvent} (h : stretch ≠ []) :
    endsInFix (event :: stretch) = endsInFix stretch := by
  obtain ⟨next, stretch, rfl⟩ := List.exists_cons_of_ne_nil h
  rw [endsInFix, List.getLast?_cons_cons, endsInFix]

lemma ne_nil_of_mem_stretches {events stretch : List OsvRangeEvent} (h : stretch ∈ stretches events) :
    stretch ≠ [] := by
  induction events generalizing stretch with
  | nil => cases h
  | cons event events ih =>
    rw [stretches] at h
    split_ifs at h with hcloses
    · rcases List.mem_cons.mp h with rfl | h
      · exact List.cons_ne_nil _ _
      · exact ih h
    · split at h
      · rw [List.mem_singleton.mp h]
        exact List.cons_ne_nil _ _
      · next first rest heq =>
        rcases List.mem_cons.mp h with rfl | h
        · exact List.cons_ne_nil _ _
        · exact ih (heq ▸ List.mem_cons_of_mem _ h)

/-- The walk stops at the first stretch that covers the version and ends in a fixed version. -/
lemma isSome_fixedInEvents (introduced : String) (hadIntroduced : Bool)
    (events : List OsvRangeEvent) :
    (fixedInEvents cmp version introduced events).isSome =
      match stretches events with
      | [] => false
      | stretch :: rest =>
        coversFrom cmp version introduced hadIntroduced stretch && endsInFix stretch ||
          rest.any fun stretch => covers cmp version stretch && endsInFix stretch := by
  induction events generalizing introduced hadIntroduced with
  | nil => rfl
  | cons event events ih =>
    rw [fixedInEvents, stretches]
    cases hcloses : event.closes with
    | true =>
      have hrest : (fixedInEvents cmp version "" events).isSome =
          (stretches events).any fun stretch => covers cmp version stretch && endsInFix stretch := by
        rw [ih "" false]
        cases stretches events with
        | nil => rfl
        | cons stretch rest => rfl
      have hfirst : coversFrom cmp version introduced hadIntroduced [event] =
          versionInRange cmp version (nextIntroduced introduced event) event.fixed
            event.lastAffected := by
        simp [coversFrom, hcloses]
      simp only [Bool.not_true, Bool.false_eq_true, if_false, if_true, hfirst, ← hrest]
      split_ifs with hfix
      · simp [endsInFix, hfix]
      · have hnot : (versionInRange cmp version (nextIntroduced introduced event) event.fixed
            event.lastAffected && endsInFix [event]) = false := by
          simpa [endsInFix] using hfix
        rw [hnot, Bool.false_or]
    | false =>
      have hfix : event.fixed = "" := by
        by_contra h
        simp [OsvRangeEvent.closes, h] at hcloses
      simp only [Bool.not_false, if_true, Bool.false_eq_true, if_false]
      rw [ih (nextIntroduced introduced event) (hadIntroduced || event.introduced ≠ "")]
      cases hstretches : stretches events with
      | nil => simp [endsInFix, hfix]
      | cons stretch rest =>
        have hne : stretch ≠ [] := ne_nil_of_mem_stretches (hstretches ▸ List.mem_cons_self)
        simp only [coversFrom_cons hcloses, endsInFix_cons hne]

lemma isSome_fixedInEvents_eq_any (events : List OsvRangeEvent) :
    (fixedInEvents cmp version "" events).isSome =
      (stretches events).any fun stretch => covers cmp version stretch && endsInFix stretch := by
  rw [isSome_fixedInEvents "" false]
  cases stretches events with
  | nil => rfl
  | cons stretch rest => rfl

/-- What the walk answers is a fixed version above the version. -/
lemma lt_of_fixedInEvents {introduced fixed : String} {events : List OsvRangeEvent}
    (h : fixedInEvents cmp version introduced events = some fixed) :
    (∃ event ∈ events, event.fixed = fixed) ∧ cmp version fixed = .lt := by
  induction events generalizing introduced with
  | nil => cases h
  | cons event events ih =>
    rw [fixedInEvents] at h
    split_ifs at h with hcloses hfix
    · obtain ⟨⟨e, he, hfixed⟩, hlt⟩ := ih h
      exact ⟨⟨e, List.mem_cons_of_mem _ he, hfixed⟩, hlt⟩
    · obtain rfl := Option.some.inj h
      refine ⟨⟨event, List.mem_cons_self, rfl⟩, ?_⟩
      have hbelow := hfix.1
      simp only [versionInRange, Bool.and_eq_true] at hbelow
      simpa [hfix.2] using hbelow.1.2
    · obtain ⟨⟨e, he, hfixed⟩, hlt⟩ := ih h
      exact ⟨⟨e, List.mem_cons_of_mem _ he, hfixed⟩, hlt⟩

end

/-! ## The advice -/

section

variable {installed ecosystem : String} {ranges : List OsvRange}

/-- A stretch of a range that is not left out covers the version and ends in a fixed version. -/
def CoveredByFix (version ecosystem : String) (ranges : List OsvRange) : Prop :=
  ∃ r ∈ ranges, r.isGit = false ∧
    skipRangeComparisonForVersion version r.type ecosystem = false ∧
    ∃ stretch ∈ stretches r.events,
      covers (fun a b => compare a b r.type ecosystem) version stretch = true ∧
        endsInFix stretch = true

/-- A range that is not left out has the fixed version, and it is above the installed one. -/
def FixedAbove (installed ecosystem : String) (ranges : List OsvRange) (fixed : String) : Prop :=
  ∃ r ∈ ranges, r.isGit = false ∧ (∃ event ∈ r.events, event.fixed = fixed) ∧
    compare fixed installed r.type ecosystem = .gt

lemma exists_fixedInRange_iff {version : String} :
    (∃ r ∈ ranges, (fixedInRange version ecosystem r).isSome = true) ↔
      CoveredByFix version ecosystem ranges := by
  refine exists_congr fun r => and_congr_right fun _ => ?_
  rw [fixedInRange]
  split_ifs with hgit hskip
  · simp [hgit]
  · simp [hskip]
  · rw [isSome_fixedInEvents_eq_any, List.any_eq_true]
    simp [hgit, hskip]

lemma fixedAbove_of_fixedInRange {fixed : String}
    (h : ranges.findSome? (fixedInRange (trimSpace installed) ecosystem) = some fixed) :
    FixedAbove installed ecosystem ranges fixed := by
  obtain ⟨r, hr, hfixed⟩ := List.exists_of_findSome?_eq_some h
  rw [fixedInRange] at hfixed
  split_ifs at hfixed with hgit hskip
  obtain ⟨hevent, hlt⟩ := lt_of_fixedInEvents hfixed
  refine ⟨r, hr, by simpa using hgit, hevent, ?_⟩
  rw [← compare_trimSpace, (transCmp_compare r.type ecosystem).eq_swap, hlt]
  rfl

/-- The empty text is no document, and `null` has no ranges. -/
lemma eq_nil_of_parseRanges {rangesJSON : String} (hempty : rangesJSON = "" ∨ rangesJSON = "null")
    (hranges : parseRanges rangesJSON = some ranges) : ranges = [] := by
  have hnone : parseRanges "" = none := by decide
  have hnull : parseRanges "null" = some [] := by decide
  rcases hempty with rfl | rfl
  · rw [hnone] at hranges
    cases hranges
  · rw [hnull] at hranges
    exact (Option.some.inj hranges).symm

lemma extractFixedVersion_eq {versionRangesJSON : String}
    (hranges : parseRanges (trimSpace versionRangesJSON) = some ranges) :
    extractFixedVersion versionRangesJSON = lowestFixed ranges := by
  rw [extractFixedVersion, hranges]
  split_ifs with hempty
  · rw [eq_nil_of_parseRanges hempty hranges]
    rfl
  · rfl

/-- The advice is empty or above the installed version exactly when a stretch that covers the
installed version ends in a fixed version, no range has a fixed version, or the lowest one of all is
above the installed version. -/
theorem extractFixedVersionFor_above_iff {versionRangesJSON : String}
    (hranges : parseRanges (trimSpace versionRangesJSON) = some ranges) :
    (extractFixedVersionFor installed versionRangesJSON ecosystem = "" ∨
      FixedAbove installed ecosystem ranges
        (extractFixedVersionFor installed versionRangesJSON ecosystem)) ↔
      (trimSpace installed ≠ "" ∧ CoveredByFix (trimSpace installed) ecosystem ranges) ∨
        lowestFixed ranges = "" ∨ FixedAbove installed ecosystem ranges (lowestFixed ranges) := by
  rw [extractFixedVersionFor, extractFixedVersion_eq hranges, hranges]
  split_ifs with hblank hempty
  · simp [hblank]
  · rw [eq_nil_of_parseRanges hempty hranges]
    simp [CoveredByFix, lowestFixed]
  · cases hfixed : ranges.findSome? (fixedInRange (trimSpace installed) ecosystem) with
    | some fixed =>
      have hcovered : CoveredByFix (trimSpace installed) ecosystem ranges := by
        obtain ⟨r, hr, hsome⟩ := List.exists_of_findSome?_eq_some hfixed
        exact exists_fixedInRange_iff.mp ⟨r, hr, by rw [hsome]; rfl⟩
      simp only [hfixed, Option.getD_some]
      exact iff_of_true (Or.inr (fixedAbove_of_fixedInRange hfixed)) (Or.inl ⟨hblank, hcovered⟩)
    | none =>
      have hcovered : ¬CoveredByFix (trimSpace installed) ecosystem ranges := by
        intro h
        obtain ⟨r, hr, hsome⟩ := exists_fixedInRange_iff.mpr h
        rw [List.findSome?_eq_none_iff.mp hfixed r hr] at hsome
        cases hsome
      simp [hfixed, hcovered]

end

/-- One range without a fix, and one below it with a fix. -/
def openAndFixed : List OsvRange :=
  [{ type := "SEMVER", events := [{ introduced := "5.0" }] },
    { type := "SEMVER", events := [{ introduced := "0" }, { fixed := "1.1.18" }] }]

def openAndFixedJSON : String := String.ofList <| Json.Printer.compact.render <|
  .arr [.obj [("type", .str "SEMVER"), ("events", .arr [.obj [("introduced", .str "5.0")]])],
    .obj [("type", .str "SEMVER"), ("events", .arr
      [.obj [("introduced", .str "0")], .obj [("fixed", .str "1.1.18")]])]]

lemma trimSpace_openAndFixed : trimSpace openAndFixedJSON = openAndFixedJSON :=
  trimSpace_render_arr _ _

lemma parseRanges_openAndFixed : parseRanges openAndFixedJSON = some openAndFixed := by
  rw [parseRanges, openAndFixedJSON, String.toList_ofList, Json.Printer.parse_render]
  rfl

/-- Version 1.0 is below the fix of its range. -/
theorem extractFixedVersionFor_above_fixed :
    extractFixedVersionFor "1.0" openAndFixedJSON "npm" = "" ∨
      FixedAbove "1.0" "npm" openAndFixed (extractFixedVersionFor "1.0" openAndFixedJSON "npm") := by
  have hranges : parseRanges (trimSpace openAndFixedJSON) = some openAndFixed := by
    rw [trimSpace_openAndFixed, parseRanges_openAndFixed]
  have hcovered : CoveredByFix (trimSpace "1.0") "npm" openAndFixed :=
    ⟨_, List.mem_cons_of_mem _ List.mem_cons_self, by decide, by decide, _,
      List.mem_cons_self, by decide, by decide⟩
  exact (extractFixedVersionFor_above_iff hranges).mpr (Or.inl ⟨by decide, hcovered⟩)

/-- Version 5.0.7 is in the range without a fix; the advice is the fix of the other range. -/
theorem extractFixedVersionFor_undercuts :
    parseRanges (trimSpace openAndFixedJSON) = some openAndFixed ∧
      Reported "5.0.7" (trimSpace openAndFixedJSON) "npm" ∧
      extractFixedVersionFor "5.0.7" openAndFixedJSON "npm" = "1.1.18" ∧
      ¬FixedAbove "5.0.7" "npm" openAndFixed "1.1.18" := by
  rw [trimSpace_openAndFixed]
  refine ⟨parseRanges_openAndFixed, ?_, ?_, ?_⟩
  · rw [Reported, matchRanges, parseRanges_openAndFixed]
    decide
  · have hne : openAndFixedJSON ≠ "" ∧ openAndFixedJSON ≠ "null" := render_arr_ne _ _
    have hfallback : extractFixedVersion openAndFixedJSON = lowestFixed openAndFixed :=
      extractFixedVersion_eq (by rw [trimSpace_openAndFixed, parseRanges_openAndFixed])
    simp only [extractFixedVersionFor, hfallback, trimSpace_openAndFixed, parseRanges_openAndFixed,
      hne, or_self, if_false]
    decide
  · rintro ⟨r, hr, -, -, habove⟩
    have hbelow : ∀ r ∈ openAndFixed, compare "1.1.18" "5.0.7" r.type "npm" = .lt := by decide
    rw [hbelow r hr] at habove
    cases habove

end Packmon.Version

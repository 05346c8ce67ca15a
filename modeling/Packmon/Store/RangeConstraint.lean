import Packmon.Library.Jsonb
import Packmon.Store.CanonicalNames
import Packmon.Version.RangeShape

/-!
# The database constraint on ranges

The tables check their ranges once more, by a function of the database (`versionRangesValid`).  It walks
over the stored document as `checkRangesShape` walks over the text, but knows only the white space of
ASCII and does not look at the type of a range.
-/

namespace Packmon

open GoText GoJson Version Json

/-! ## Functions of the database -/

/-- The kinds of documents. -/
inductive JsonbType where
  | null
  | boolean
  | number
  | string
  | array
  | object
  deriving DecidableEq

def jsonbTypeof : Json → JsonbType
  | .null => .null
  | .bool _ => .boolean
  | .num _ => .number
  | .str _ => .string
  | .arr _ => .array
  | .obj _ => .object

/-- The value under a key; no value at all for a missing key or another kind of document. -/
def jsonbField : Json → String → Option Json
  | .obj members, key => members.lookup key
  | _, _ => none

/-- The items of an array; raises for another kind of document. -/
def jsonbArrayElements : Json → Option (List Json)
  | .arr items => some items
  | _ => none

/-- The length of an array; raises for another kind of document. -/
def jsonbArrayLength (value : Json) : Option ℕ := (jsonbArrayElements value).map List.length

/-! ## The constraint -/

/-- The walk over the keys of an event: whether there is a boundary that is not blank, unless one is no
string. -/
def boundariesValid (event : Json) : List String → Bool → Bool
  | [], hasBoundary => hasBoundary
  | key :: keys, hasBoundary =>
    match jsonbField event key with
    | none => boundariesValid event keys hasBoundary
    | some .null => boundariesValid event keys hasBoundary
    | some (.str s) => boundariesValid event keys (hasBoundary || btrimSpace s ≠ "")
    | some _ => false

def eventsValid : List Json → Bool
  | [] => true
  | event :: events =>
    if jsonbTypeof event ≠ .object then false
    else if !boundariesValid event rangeBoundaryKeys false then false
    else eventsValid events

/-- The loop over the ranges; nothing when it raises. -/
def rangesValid : List Json → Option Bool
  | [] => some true
  | range :: ranges =>
    if jsonbTypeof range ≠ .object then some false
    else
      match jsonbField range "events" with
      | none => some false
      | some events =>
        if jsonbTypeof events ≠ .array then some false
        else
          (jsonbArrayLength events).bind fun n =>
            if n = 0 then some false
            else
              (jsonbArrayElements events).bind fun items =>
                if eventsValid items then rangesValid ranges else some false

/-- The check of a column; nothing when it raises. -/
def versionRangesValid : Option Json → Option Bool
  | none => some false
  | some value =>
    if jsonbTypeof value ≠ .array then some false else (jsonbArrayElements value).bind rangesValid

/-! ## What it accepts -/

lemma jsonbTypeof_jsonb (value : Json) : jsonbTypeof (jsonb value) = jsonbTypeof value := by
  cases value <;> simp [jsonb, jsonbTypeof]

lemma jsonbField_jsonb (members : List (String × Json)) (key : String) :
    jsonbField (jsonb (.obj members)) key = (member members key).map jsonb := by
  rw [jsonb_obj, jsonbField, lookup_jsonbMembers]
  simp

lemma boundariesValid_iff (event : List (String × Json)) (keys : List String) (hasBoundary : Bool) :
    boundariesValid (jsonb (.obj event)) keys hasBoundary = true ↔
      (∀ key ∈ keys, ∀ value ∈ member event key, isText value = true) ∧
        (hasBoundary = true ∨
          ∃ key ∈ keys, ∃ s, member event key = some (.str s) ∧ btrimSpace s ≠ "") := by
  induction keys generalizing hasBoundary with
  | nil => simp [boundariesValid]
  | cons key keys ih =>
    rw [boundariesValid, jsonbField_jsonb]
    cases hmember : member event key with
    | none => simp [ih, hmember]
    | some value =>
      rw [Option.map_some]
      cases value with
      | null => simp [ih, hmember]
      | str s =>
        simp only [jsonb_str, ih, Bool.or_eq_true, decide_eq_true_eq, List.forall_mem_cons,
          List.exists_mem_cons_iff, hmember, Option.mem_some_iff, isText, stringPointer,
          Option.some.injEq, Json.str.injEq]
        simp [or_assoc]
      | bool _ => simp [hmember, isText, stringPointer, jsonb]
      | num _ => simp [hmember, isText, stringPointer, jsonb]
      | arr _ => simp [hmember, isText, stringPointer]
      | obj _ => simp [hmember, isText, stringPointer, jsonb_obj]

lemma eventsValid_iff (events : List Json) :
    eventsValid (events.map jsonb) = true ↔
      ∀ event ∈ events, ∃ boundaries, event = .obj boundaries ∧ EventShape btrimSpace boundaries := by
  induction events with
  | nil => simp [eventsValid]
  | cons event events ih =>
    rw [List.map_cons, eventsValid, jsonbTypeof_jsonb, List.forall_mem_cons, ← ih]
    cases event with
    | obj boundaries =>
      have hevent : EventShape btrimSpace boundaries ↔
          boundariesValid (jsonb (.obj boundaries)) rangeBoundaryKeys false = true := by
        rw [boundariesValid_iff]
        simp only [Bool.false_eq_true, false_or]
        exact ⟨fun h => ⟨h.isText, h.nonblank⟩, fun h => ⟨h.1, h.2⟩⟩
      simp only [Json.obj.injEq, exists_eq_left', hevent]
      cases boundariesValid (jsonb (.obj boundaries)) rangeBoundaryKeys false <;> simp [jsonbTypeof]
    | null => simp [jsonbTypeof]
    | bool _ => simp [jsonbTypeof]
    | num _ => simp [jsonbTypeof]
    | str _ => simp [jsonbTypeof]
    | arr _ => simp [jsonbTypeof]

/-- The loop does not raise, and accepts objects with events. -/
lemma rangesValid_eq (ranges : List Json) : ∃ valid,
    rangesValid (ranges.map jsonb) = some valid ∧
      (valid = true ↔ ∀ range ∈ ranges, RangeShape btrimSpace range) := by
  induction ranges with
  | nil => exact ⟨true, rfl, by simp⟩
  | cons range ranges ih =>
    obtain ⟨valid, heq, hvalid⟩ := ih
    rw [List.map_cons, rangesValid, jsonbTypeof_jsonb]
    simp only [List.forall_mem_cons, ← hvalid]
    cases range with
    | obj members =>
      rw [jsonbField_jsonb, rangeShape_obj_iff]
      cases member members "events" with
      | none => exact ⟨false, by simp [jsonbTypeof], by simp⟩
      | some events =>
        cases events with
        | arr items =>
          have hitems := eventsValid_iff items
          simp only [Option.some.injEq, Json.arr.injEq, exists_eq_left', ← hitems, Option.map_some,
            jsonb_arr, jsonbTypeof, jsonbArrayLength, jsonbArrayElements, List.length_map]
          by_cases hne : items = []
          · exact ⟨false, by simp [hne], by simp [hne]⟩
          · cases heventsValid : eventsValid (items.map jsonb) with
            | false => exact ⟨false, by simp [heventsValid], by simp⟩
            | true => exact ⟨valid, by simp [hne, heventsValid, heq], by simp [hne]⟩
        | null => exact ⟨false, by simp [jsonbTypeof], by simp⟩
        | bool _ => exact ⟨false, by simp [jsonbTypeof, jsonb], by simp⟩
        | num _ => exact ⟨false, by simp [jsonbTypeof, jsonb], by simp⟩
        | str _ => exact ⟨false, by simp [jsonbTypeof], by simp⟩
        | obj _ => exact ⟨false, by simp [jsonbTypeof, jsonb_obj], by simp⟩
    | null => exact ⟨false, by simp [jsonbTypeof], by simp [RangeShape]⟩
    | bool _ => exact ⟨false, by simp [jsonbTypeof], by simp [RangeShape]⟩
    | num _ => exact ⟨false, by simp [jsonbTypeof], by simp [RangeShape]⟩
    | str _ => exact ⟨false, by simp [jsonbTypeof], by simp [RangeShape]⟩
    | arr _ => exact ⟨false, by simp [jsonbTypeof], by simp [RangeShape]⟩

/-- The constraint does not raise, and accepts arrays of objects with events. -/
lemma versionRangesValid_eq (document : Json) : ∃ valid,
    versionRangesValid (some (jsonb document)) = some valid ∧
      (valid = true ↔ ∃ ranges, document = .arr ranges ∧ ∀ range ∈ ranges,
        RangeShape btrimSpace range) := by
  cases document with
  | arr ranges =>
    obtain ⟨valid, heq, hvalid⟩ := rangesValid_eq ranges
    exact ⟨valid, by simpa [versionRangesValid, jsonbTypeof, jsonbArrayElements] using heq, by simpa⟩
  | null => exact ⟨false, by simp [versionRangesValid, jsonbTypeof], by simp⟩
  | bool _ => exact ⟨false, by simp [versionRangesValid, jsonbTypeof, jsonb], by simp⟩
  | num _ => exact ⟨false, by simp [versionRangesValid, jsonbTypeof, jsonb], by simp⟩
  | str _ => exact ⟨false, by simp [versionRangesValid, jsonbTypeof], by simp⟩
  | obj _ => exact ⟨false, by simp [versionRangesValid, jsonbTypeof, jsonb_obj], by simp⟩

/-! ## The check of the text and the constraint -/

/-- What is not blank stays so when less white space is cut off. -/
lemma btrimSpace_ne_empty {s : String} (h : trimSpace s ≠ "") : btrimSpace s ≠ "" := by
  have hsub (c : Char) (hc : isSqlSpace c = true) : isSpace c = true := by
    simp only [isSqlSpace, Bool.or_eq_true, decide_eq_true_eq] at hc
    rcases hc with rfl | hc
    · decide
    · simp [isSpace, hc]
  intro hblank
  have hall : ∀ c ∈ s.toList, isSqlSpace c = true := by
    rw [← trimBy_eq_nil_iff]
    simpa [btrimSpace] using hblank
  have hnil : trimBy isSpace s.toList = [] :=
    trimBy_eq_nil_iff.mpr fun c hc => hsub c (hall c hc)
  exact h (by rw [trimSpace, ← trimBy, hnil])

lemma eventShape_btrimSpace {event : List (String × Json)} (h : EventShape trimSpace event) :
    EventShape btrimSpace event := by
  obtain ⟨key, hkey, s, hs, hne⟩ := h.nonblank
  exact ⟨h.isText, key, hkey, s, hs, btrimSpace_ne_empty hne⟩

lemma rangeShape_btrimSpace {range : Json} (h : RangeShape trimSpace range) :
    RangeShape btrimSpace range := by
  obtain ⟨members, events, hrange, hevents, hne, hall⟩ := h
  refine ⟨members, events, hrange, hevents, hne, ?_⟩
  intro event hevent
  obtain ⟨boundaries, hboundaries, hshape⟩ := hall event hevent
  exact ⟨boundaries, hboundaries, eventShape_btrimSpace hshape⟩

/-- The type of the range is neither a string nor `null`. -/
def HasBadType (range : Json) : Prop :=
  ∃ members value, range = .obj members ∧ member members "type" = some value ∧ isText value = false

/-- Some event of the range has only boundaries that are blank. -/
def HasBlankEvent (range : Json) : Prop :=
  ∃ members events boundaries, range = .obj members ∧ member members "events" = some (.arr events) ∧
    .obj boundaries ∈ events ∧
      ∀ key ∈ rangeBoundaryKeys, ∀ s, member boundaries key = some (.str s) → trimSpace s = ""

/-- Where the constraint is met, the check asks only for more of the types and of the white space. -/
lemma hasBadType_or_hasBlankEvent {range : Json} (hvalid : RangeShape btrimSpace range)
    (h : ¬(TypeShape range ∧ RangeShape trimSpace range)) : HasBadType range ∨ HasBlankEvent range := by
  obtain ⟨members, events, rfl, hevents, hne, hall⟩ := hvalid
  by_cases htype : TypeShape (.obj members)
  · right
    by_contra hblank
    refine h ⟨htype, members, events, rfl, hevents, hne, ?_⟩
    intro event hevent
    obtain ⟨boundaries, rfl, hshape⟩ := hall event hevent
    refine ⟨boundaries, rfl, hshape.isText, ?_⟩
    by_contra hnone
    push Not at hnone
    exact hblank ⟨members, events, boundaries, rfl, hevents, hevent, hnone⟩
  · left
    rw [TypeShape] at htype
    push Not at htype
    obtain ⟨_, heq, value, hvalue, hbad⟩ := htype
    cases heq
    exact ⟨members, value, rfl, hvalue, by simpa using hbad⟩

/-- Every document but `null` that the check accepts meets the constraint, and one that only meets the
constraint has a bad type or a blank event. -/
theorem versionRangesValid_of_checkRangesShape {raw : String} {document : Json}
    (hparse : Json.parse raw.toList = some document) (hnull : document ≠ .null) :
    (checkRangesShape raw = none → versionRangesValid (some (jsonb document)) = some true) ∧
      (versionRangesValid (some (jsonb document)) = some true → checkRangesShape raw ≠ none →
        ∃ ranges, document = .arr ranges ∧
          ∃ range ∈ ranges, HasBadType range ∨ HasBlankEvent range) := by
  obtain ⟨valid, heq, hvalid⟩ := versionRangesValid_eq document
  have haccepted := checkRangesShape_eq_none_iff raw
  rw [hparse, Option.bind_some] at haccepted
  rw [heq, Option.some.injEq, Ne, haccepted, hvalid]
  constructor
  · rintro ⟨ranges, hitems, hshape⟩
    refine ⟨ranges, ?_, fun range hrange => rangeShape_btrimSpace (hshape range hrange).2⟩
    cases document with
    | arr items => rw [Option.some.inj hitems]
    | null => exact absurd rfl hnull
    | bool _ => cases hitems
    | num _ => cases hitems
    | str _ => cases hitems
    | obj _ => cases hitems
  · rintro ⟨ranges, rfl, hconstraint⟩ hrejected
    refine ⟨ranges, rfl, ?_⟩
    by_contra hnone
    push Not at hnone
    refine hrejected ⟨ranges, rfl, ?_⟩
    intro range hrange
    by_contra h
    rcases hasBadType_or_hasBlankEvent (hconstraint range hrange) h with hbad | hblank
    · exact (hnone range hrange).1 hbad
    · exact (hnone range hrange).2 hblank

/-- Ranges with exact keys meet the constraint. -/
theorem versionRangesValid_exactKeys :
    versionRangesValid (some (jsonb (.arr exactKeys))) = some true := by
  have haccepted : checkRangesShape (rangesText exactKeys) = none := by
    rw [checkRangesShape, parse_rangesText]
    decide
  exact (versionRangesValid_of_checkRangesShape (parse_rangesText exactKeys) (by simp)).1 haccepted

/-- The document `null` has no range for the check, and is no array for the constraint. -/
theorem versionRangesValid_null :
    checkRangesShape "null" = none ∧ Json.parse "null".toList = some .null ∧
      versionRangesValid (some (jsonb .null)) = some false := by
  decide

end Packmon

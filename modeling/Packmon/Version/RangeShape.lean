import Packmon.Library.GoStructs
import Packmon.Version.Ranges

/-!
# What the check of stored ranges has seen

`checkRangesShape` reads the ranges through maps, with exact keys of which the last one counts.  The
matcher decodes the same text into structures, where a key belongs to a field when it differs from its
name in case only, and where a repeated key is laid over what was there.  What is accepted
(`checkRangesShape_eq_none_iff`) is therefore not always what is matched against
(`parseRanges_eq_seen_iff`).
-/

namespace Packmon.Version

open GoText GoJson

/-! ## Accepted ranges -/

/-- The boundaries of an event: each a string or `null`, and one of them not blank. -/
structure EventShape (trim : String → String) (event : List (String × Json)) : Prop where
  isText : ∀ key ∈ rangeBoundaryKeys, ∀ value ∈ member event key, GoJson.isText value = true
  nonblank : ∃ key ∈ rangeBoundaryKeys, ∃ s, member event key = some (.str s) ∧ trim s ≠ ""

/-- An object with a nonempty array of events. -/
def RangeShape (trim : String → String) (range : Json) : Prop :=
  ∃ members events, range = .obj members ∧ member members "events" = some (.arr events) ∧
    events ≠ [] ∧ ∀ event ∈ events, ∃ boundaries, event = .obj boundaries ∧ EventShape trim boundaries

/-- The type of a range is a string or `null`, if there is one. -/
def TypeShape (range : Json) : Prop :=
  ∀ members, range = .obj members → ∀ value ∈ member members "type", isText value = true

lemma rangeShape_obj_iff {trim : String → String} {members : List (String × Json)} :
    RangeShape trim (.obj members) ↔ ∃ events, member members "events" = some (.arr events) ∧
      events ≠ [] ∧ ∀ event ∈ events, ∃ boundaries, event = .obj boundaries ∧
        EventShape trim boundaries := by
  simp [RangeShape]

/-- What the walk over the boundary keys asks for. -/
lemma checkBoundaries_eq_none_iff (event : List (String × Json)) (eventPath : String)
    (keys : List String) (hasBoundary : Bool) :
    checkBoundaries event eventPath keys hasBoundary = none ↔
      (∀ key ∈ keys, ∀ value ∈ member event key, isText value = true) ∧
        (hasBoundary = true ∨
          ∃ key ∈ keys, ∃ s, member event key = some (.str s) ∧ trimSpace s ≠ "") := by
  induction keys generalizing hasBoundary with
  | nil => cases hasBoundary <;> simp [checkBoundaries]
  | cons key keys ih =>
    rw [checkBoundaries]
    cases hmember : member event key with
    | none => simp [ih, hmember]
    | some value =>
      cases value with
      | null => simp [ih, hmember, stringPointer]
      | str s =>
        simp only [ih, stringPointer, hmember, isText, Option.any_some, Bool.or_eq_true,
          decide_eq_true_eq, List.forall_mem_cons, List.exists_mem_cons_iff, Option.mem_some_iff,
          Option.some.injEq, Json.str.injEq]
        simp [or_assoc]
      | bool _ => simp [isText, hmember, stringPointer]
      | num _ => simp [isText, hmember, stringPointer]
      | arr _ => simp [isText, hmember, stringPointer]
      | obj _ => simp [isText, hmember, stringPointer]

lemma checkRangeEventShape_eq_none_iff (raw : Json) (eventPath : String) :
    checkRangeEventShape raw eventPath = none ↔
      ∃ boundaries, raw = .obj boundaries ∧ EventShape trimSpace boundaries := by
  rw [checkRangeEventShape]
  cases raw with
  | obj boundaries =>
    have hcheck := checkBoundaries_eq_none_iff boundaries eventPath rangeBoundaryKeys false
    simp only [rawMembers, hcheck, Bool.false_eq_true, false_or, Json.obj.injEq]
    constructor
    · rintro ⟨htext, hnonblank⟩
      exact ⟨boundaries, rfl, htext, hnonblank⟩
    · rintro ⟨_, rfl, h⟩
      exact ⟨h.isText, h.nonblank⟩
  | null => simp [rawMembers]
  | bool _ => simp [rawMembers]
  | num _ => simp [rawMembers]
  | str _ => simp [rawMembers]
  | arr _ => simp [rawMembers]

/-- The first error of a list is missing when every item passes, wherever it stands. -/
lemma findSome?_zipIdx_eq_none_iff {α β : Type} {f : α × ℕ → Option β} (good : α → Prop)
    (h : ∀ a j, f (a, j) = none ↔ good a) (as : List α) :
    as.zipIdx.findSome? f = none ↔ ∀ a ∈ as, good a := by
  rw [List.findSome?_eq_none_iff]
  constructor
  · intro hall a ha
    obtain ⟨j, hj, rfl⟩ := List.getElem_of_mem ha
    exact (h _ j).mp (hall _ (by simp [List.mem_zipIdx_iff_getElem?]))
  · rintro hall ⟨a, j⟩ haj
    exact (h a j).mpr (hall a (List.fst_mem_of_mem_zipIdx haj))

lemma checkRangeShape_eq_none_iff (raw : Json) (rangePath : String) :
    checkRangeShape raw rangePath = none ↔ TypeShape raw ∧ RangeShape trimSpace raw := by
  rw [checkRangeShape]
  cases raw with
  | obj members =>
    have htype : TypeShape (.obj members) ↔
        (member members "type").any (fun rawType => (stringPointer rawType).isNone) = false := by
      cases hmember : member members "type" <;> simp [TypeShape, isText, hmember]
    have hevents : RangeShape trimSpace (.obj members) ↔
        ∃ events, rawItems ((member members "events").getD .null) = some events ∧ events ≠ [] ∧
          ∀ event ∈ events, ∃ boundaries, event = .obj boundaries ∧ EventShape trimSpace boundaries := by
      rw [rangeShape_obj_iff]
      refine exists_congr fun events => and_congr_left fun h => ?_
      cases member members "events" with
      | none => simp [rawItems, h.1.symm]
      | some value => cases value <;> simp [rawItems, h.1.symm]
    rw [htype, hevents]
    simp only [rawMembers]
    split_ifs with hany
    · simp [hany]
    · simp only [hany, true_and]
      cases rawItems ((member members "events").getD .null) with
      | none => simp
      | some events =>
        cases events with
        | nil => simp
        | cons event events =>
          refine (findSome?_zipIdx_eq_none_iff
            (fun event => ∃ boundaries, event = .obj boundaries ∧ EventShape trimSpace boundaries)
            (fun event j => ?_) (event :: events)).trans ?_
          · exact checkRangeEventShape_eq_none_iff event _
          · simp
  | null => simp [rawMembers, RangeShape]
  | bool _ => simp [rawMembers, RangeShape]
  | num _ => simp [rawMembers, RangeShape]
  | str _ => simp [rawMembers, RangeShape]
  | arr _ => simp [rawMembers, RangeShape]

/-- The texts that the check accepts. -/
theorem checkRangesShape_eq_none_iff (raw : String) :
    checkRangesShape raw = none ↔ ∃ ranges, (Json.parse raw.toList).bind rawItems = some ranges ∧
      ∀ range ∈ ranges, TypeShape range ∧ RangeShape trimSpace range := by
  rw [checkRangesShape]
  cases hitems : (Json.parse raw.toList).bind rawItems with
  | none => simp
  | some ranges =>
    refine (findSome?_zipIdx_eq_none_iff (fun range => TypeShape range ∧ RangeShape trimSpace range)
      (fun range i => ?_) ranges).trans ?_
    · exact checkRangeShape_eq_none_iff range _
    · simp

/-! ## Decoded ranges -/

/-- The members of an object; a value of another kind has none. -/
def objectMembers : Json → List (String × Json)
  | .obj members => members
  | _ => []

/-- An event that can be decoded. -/
def isEvent : Json → Bool
  | .null => true
  | .obj members => rangeBoundaryKeys.all fun key => (named key members).all isText
  | _ => false

/-- An event laid over another one: every boundary is the last text among the members that belong to it,
and without one it stays. -/
def layEvent (e : OsvRangeEvent) (item : Json) : OsvRangeEvent where
  introduced := (lastText (named "introduced" (objectMembers item))).getD e.introduced
  fixed := (lastText (named "fixed" (objectMembers item))).getD e.fixed
  lastAffected := (lastText (named "last_affected" (objectMembers item))).getD e.lastAffected
  limit := (lastText (named "limit" (objectMembers item))).getD e.limit

/-- The events decoded from all values of a range that belong to them. -/
def readEvents (values : List Json) : List OsvRangeEvent := layeredItems layEvent {} (layers values)

/-- A range that can be decoded. -/
def isRange (members : List (String × Json)) : Bool :=
  (named "type" members).all isText && (named "events" members).all (isArrayOf isEvent)

/-- The range decoded from an object. -/
def readRange (members : List (String × Json)) : OsvRange where
  type := (lastText (named "type" members)).getD ""
  events := readEvents (named "events" members)

/-- A flat entry that can be decoded. -/
def isFlatEntry (members : List (String × Json)) : Bool :=
  ["introduced", "fixed", "last_affected"].all fun key => (named key members).all isText

/-- The flat entry decoded from an object. -/
def readFlat (members : List (String × Json)) : FlatRange where
  introduced := (lastText (named "introduced" members)).getD ""
  fixed := (lastText (named "fixed" members)).getD ""
  lastAffected := (lastText (named "last_affected" members)).getD ""

/-- The fields of an event. -/
def eventFields : List (StructField OsvRangeEvent) :=
  [⟨"introduced", OsvRangeEvent.introduced, fun e s => { e with introduced := s }, string⟩,
    ⟨"fixed", OsvRangeEvent.fixed, fun e s => { e with fixed := s }, string⟩,
    ⟨"last_affected", OsvRangeEvent.lastAffected, fun e s => { e with lastAffected := s }, string⟩,
    ⟨"limit", OsvRangeEvent.limit, fun e s => { e with limit := s }, string⟩]

lemma separate_eventFields : Separate eventFields where
  names := by
    simp only [eventFields, List.pairwise_cons]
    decide
  get_set := by simp [eventFields]
  get_set_of_ne := by simp [eventFields]
  ext := by
    rintro ⟨_, _, _, _⟩ ⟨_, _, _, _⟩
    simp [eventFields]

/-- The fields of a range. -/
def rangeFields : List (StructField DecodedRange) :=
  [⟨"type", DecodedRange.type, fun r s => { r with type := s }, string⟩,
    ⟨"events", DecodedRange.events, fun r es => { r with events := es }, slice decodeEvent {}⟩]

lemma separate_rangeFields : Separate rangeFields where
  names := by
    simp only [rangeFields, List.pairwise_cons]
    decide
  get_set := by simp [rangeFields]
  get_set_of_ne := by simp [rangeFields]
  ext := by
    rintro ⟨_, _⟩ ⟨_, _⟩
    simp [rangeFields]

/-- The fields of a flat entry. -/
def flatFields : List (StructField FlatRange) :=
  [⟨"introduced", FlatRange.introduced, fun r s => { r with introduced := s }, string⟩,
    ⟨"fixed", FlatRange.fixed, fun r s => { r with fixed := s }, string⟩,
    ⟨"last_affected", FlatRange.lastAffected, fun r s => { r with lastAffected := s }, string⟩]

lemma separate_flatFields : Separate flatFields where
  names := by
    simp only [flatFields, List.pairwise_cons]
    decide
  get_set := by simp [flatFields]
  get_set_of_ne := by simp [flatFields]
  ext := by
    rintro ⟨_, _, _⟩ ⟨_, _, _⟩
    simp [flatFields]

/-- A conditional result is its value where the condition holds. -/
private lemma eq_ite_some_iff {α : Type} {x : Option α} {a : α} {good : Bool}
    (h : ∀ b, x = some b ↔ good = true ∧ a = b) : x = if good then some a else none := by
  ext b
  rw [h]
  cases good <;> simp

lemma decodeEvent_eq (e : OsvRangeEvent) (item : Json) :
    decodeEvent e item = if isEvent item then some (layEvent e item) else none := by
  cases item with
  | obj members =>
    refine eq_ite_some_iff fun t => ?_
    refine (decodeMembers_eq_some_iff separate_eventFields e t members).trans ?_
    obtain ⟨introduced, fixed, lastAffected, limit⟩ := t
    simp only [eventFields, List.forall_mem_cons, List.not_mem_nil, false_imp_iff, implies_true,
      decodeAll_string, Option.ite_none_right_eq_some, Option.some.injEq, isEvent, rangeBoundaryKeys,
      List.all_cons, List.all_nil, Bool.and_eq_true, layEvent, objectMembers, OsvRangeEvent.mk.injEq]
    tauto
  | null => rfl
  | bool _ => rfl
  | num _ => rfl
  | str _ => rfl
  | arr _ => rfl

lemma map_decodeRange (members : List (String × Json)) :
    (decodeRange {} (.obj members)).map DecodedRange.toOsvRange =
      if isRange members then some (readRange members) else none := by
  refine eq_ite_some_iff fun r => ?_
  have hevents := @map_items_decodeAll_slice _ layEvent {} decodeEvent isEvent decodeEvent_eq
    (named "events" members)
  have hfields (d : DecodedRange) : decodeRange {} (.obj members) = some d ↔
      decodeAll string "" (named "type" members) = some d.type ∧
        decodeAll (slice decodeEvent {}) {} (named "events" members) = some d.events := by
    refine (decodeMembers_eq_some_iff separate_rangeFields {} d members).trans ?_
    simp [rangeFields]
  have hsplit : (decodeRange {} (.obj members)).map DecodedRange.toOsvRange = some r ↔
      decodeAll string "" (named "type" members) = some r.type ∧
        (decodeAll (slice decodeEvent {}) {} (named "events" members)).map Slice.items =
          some r.events := by
    simp only [Option.map_eq_some_iff, hfields]
    constructor
    · rintro ⟨d, ⟨htype, hslice⟩, rfl⟩
      exact ⟨htype, d.events, hslice, rfl⟩
    · rintro ⟨htype, es, hslice, hitems⟩
      exact ⟨⟨r.type, es⟩, ⟨htype, hslice⟩, by rw [DecodedRange.toOsvRange, hitems]⟩
  rw [hsplit, hevents, decodeAll_string]
  obtain ⟨type, events⟩ := r
  simp only [Option.ite_none_right_eq_some, Option.some.injEq, isRange, Bool.and_eq_true, readRange,
    readEvents, OsvRange.mk.injEq]
  tauto

lemma decodeFlatRange_eq (members : List (String × Json)) :
    decodeFlatRange {} (.obj members) =
      if isFlatEntry members then some (readFlat members) else none := by
  refine eq_ite_some_iff fun t => ?_
  refine (decodeMembers_eq_some_iff separate_flatFields {} t members).trans ?_
  obtain ⟨introduced, fixed, lastAffected⟩ := t
  simp only [flatFields, List.forall_mem_cons, List.not_mem_nil, false_imp_iff, implies_true,
    decodeAll_string, Option.ite_none_right_eq_some, Option.some.injEq, isFlatEntry, List.all_cons,
    List.all_nil, Bool.and_eq_true, readFlat, FlatRange.mk.injEq]
  tauto

/-! ## Seen and decoded -/

/-- The text that the check has seen under a key. -/
def seenText (value : Option Json) : String := (value.bind text).getD ""

/-- The event that the check has seen. -/
def seenEvent (members : List (String × Json)) : OsvRangeEvent where
  introduced := seenText (member members "introduced")
  fixed := seenText (member members "fixed")
  lastAffected := seenText (member members "last_affected")
  limit := seenText (member members "limit")

/-- The range that the check has seen. -/
def seenRange (members : List (String × Json)) : OsvRange where
  type := seenText (member members "type")
  events := ((member members "events").bind rawItems).getD [] |>.map (seenEvent ∘ objectMembers)

/-- The values that belong to the fields can be decoded and come to what the check has seen. -/
structure ReadsAsSeen (members : List (String × Json)) : Prop where
  isRange : isRange members = true
  type : (lastText (named "type" members)).getD "" = seenText (member members "type")
  events : readEvents (named "events" members) = (seenRange members).events

/-- Every range loses its events, is taken for a flat entry and says as one what the check has seen. -/
structure ReadsFlatAsSeen (raw : String) (ranges : List Json) : Prop where
  ne_nil : ranges ≠ []
  detected : contains raw "\"introduced\"" = true
  isRange : ∀ range ∈ ranges, Version.isRange (objectMembers range) = true
  events : ∀ range ∈ ranges, readEvents (named "events" (objectMembers range)) = []
  isFlatEntry : ∀ range ∈ ranges, Version.isFlatEntry (objectMembers range) = true
  flat : flatToFull (ranges.map (readFlat ∘ objectMembers)) = ranges.map (seenRange ∘ objectMembers)

/-- What is parsed from objects. -/
lemma parseRanges_objects {raw : String} {document : Json} {ranges : List Json}
    (hparse : Json.parse raw.toList = some document) (hitems : rawItems document = some ranges)
    (hobjects : ∀ range ∈ ranges, ∃ members, range = .obj members) :
    parseRanges raw =
      if ranges.all (isRange ∘ objectMembers) then
        some (if isFlatFormat (ranges.map (readRange ∘ objectMembers)) raw ∧
            ranges.all (isFlatEntry ∘ objectMembers) then
          flatToFull (ranges.map (readFlat ∘ objectMembers))
        else ranges.map (readRange ∘ objectMembers))
      else none := by
  have hfull : (slice decodeRange {} {} document).map
      (fun decoded => decoded.items.map DecodedRange.toOsvRange) =
      if ranges.all (isRange ∘ objectMembers) then some (ranges.map (readRange ∘ objectMembers))
      else none := by
    refine map_items_slice hitems fun range hrange => ?_
    obtain ⟨members, rfl⟩ := hobjects range hrange
    exact map_decodeRange members
  have hflat : (slice decodeFlatRange {} {} document).map (fun decoded => decoded.items.map id) =
      if ranges.all (isFlatEntry ∘ objectMembers) then some (ranges.map (readFlat ∘ objectMembers))
      else none := by
    refine map_items_slice hitems fun range hrange => ?_
    obtain ⟨members, rfl⟩ := hobjects range hrange
    rw [Option.map_id]
    exact decodeFlatRange_eq members
  rw [parseRanges, hparse, Option.bind_some]
  by_cases hranges : ranges.all (isRange ∘ objectMembers) = true
  · rw [if_pos hranges] at hfull ⊢
    obtain ⟨decoded, hdecoded, hread⟩ := Option.map_eq_some_iff.mp hfull
    rw [hdecoded, Option.map_some]
    simp only [hread]
    by_cases hentries : ranges.all (isFlatEntry ∘ objectMembers) = true
    · rw [if_pos hentries] at hflat
      obtain ⟨flat, hdecodedFlat, hreadFlat⟩ := Option.map_eq_some_iff.mp hflat
      rw [List.map_id] at hreadFlat
      simp only [hdecodedFlat, hreadFlat, hentries, and_true]
    · rw [if_neg hentries, Option.map_eq_none_iff] at hflat
      simp only [hflat, hentries, Bool.false_eq_true, and_false, if_false, ite_self]
  · rw [if_neg hranges, Option.map_eq_none_iff] at hfull
    rw [hfull, if_neg hranges, Option.map_none]

lemma isFlatFormat_readRange_iff (ranges : List Json) (raw : String) :
    isFlatFormat (ranges.map (readRange ∘ objectMembers)) raw = true ↔
      ranges ≠ [] ∧ (∀ range ∈ ranges, readEvents (named "events" (objectMembers range)) = []) ∧
        contains raw "\"introduced\"" = true := by
  simp [isFlatFormat, readRange, and_assoc]

/-- Accepted ranges are decoded as the check has seen them exactly when the values that belong to every
field come to what stands under its exact name. -/
theorem parseRanges_eq_seen_iff {raw : String} {ranges : List Json}
    (haccepted : checkRangesShape raw = none)
    (hranges : (Json.parse raw.toList).bind rawItems = some ranges) :
    parseRanges raw = some (ranges.map (seenRange ∘ objectMembers)) ↔
      (∀ range ∈ ranges, ReadsAsSeen (objectMembers range)) ∨ ReadsFlatAsSeen raw ranges := by
  obtain ⟨document, hparse, hitems⟩ := Option.bind_eq_some_iff.mp hranges
  obtain ⟨ranges', hranges', hshape⟩ := (checkRangesShape_eq_none_iff raw).mp haccepted
  obtain rfl : ranges = ranges' := Option.some.inj (hranges.symm.trans hranges')
  have hobjects : ∀ range ∈ ranges, ∃ members, range = .obj members := by
    intro range hrange
    obtain ⟨members, -, hmembers, -⟩ := (hshape range hrange).2
    exact ⟨members, hmembers⟩
  have hseen : ∀ range ∈ ranges, (seenRange (objectMembers range)).events ≠ [] := by
    intro range hrange
    obtain ⟨members, events, rfl, hevents, hne, -⟩ := (hshape range hrange).2
    simp [seenRange, objectMembers, hevents, rawItems, hne]
  have hread (hrange : ∀ range ∈ ranges, isRange (objectMembers range) = true) :
      ranges.map (readRange ∘ objectMembers) = ranges.map (seenRange ∘ objectMembers) ↔
        ∀ range ∈ ranges, ReadsAsSeen (objectMembers range) := by
    rw [List.map_inj_left]
    refine forall₂_congr fun range hmem => ?_
    constructor
    · intro h
      exact ⟨hrange range hmem, congrArg OsvRange.type h, congrArg OsvRange.events h⟩
    · intro h
      simp only [Function.comp_apply, readRange, h.type, h.events]
      rfl
  rw [parseRanges_objects hparse hitems hobjects]
  constructor
  · intro h
    obtain ⟨hall, hresult⟩ := Option.ite_none_right_eq_some.mp h
    have hrange : ∀ range ∈ ranges, isRange (objectMembers range) = true := by
      simpa using hall
    rw [Option.some.injEq] at hresult
    split_ifs at hresult with hflat
    · obtain ⟨hne, hevents, hdetected⟩ := (isFlatFormat_readRange_iff ranges raw).mp hflat.1
      exact Or.inr ⟨hne, hdetected, hrange, hevents, by simpa using hflat.2, hresult⟩
    · exact Or.inl ((hread hrange).mp hresult)
  · rintro (h | h)
    · have hrange : ∀ range ∈ ranges, isRange (objectMembers range) = true :=
        fun range hmem => (h range hmem).isRange
      -- the events are those that were seen, of which there are some
      have hflat : ¬isFlatFormat (ranges.map (readRange ∘ objectMembers)) raw = true := by
        intro hflat
        obtain ⟨hne, hevents, -⟩ := (isFlatFormat_readRange_iff ranges raw).mp hflat
        obtain ⟨range, hmem⟩ := List.exists_mem_of_ne_nil ranges hne
        exact hseen range hmem ((h range hmem).events.symm.trans (hevents range hmem))
      rw [if_pos (by simpa using hrange), if_neg (fun hand => hflat hand.1), (hread hrange).mpr h]
    · have hflat := (isFlatFormat_readRange_iff ranges raw).mpr ⟨h.ne_nil, h.events, h.detected⟩
      rw [if_pos (by simpa using h.isRange), if_pos ⟨hflat, by simpa using h.isFlatEntry⟩, h.flat]

/-- One range with one event, every key under its exact name. -/
def exactKeys : List Json :=
  [.obj [("type", .str "SEMVER"), ("events", .arr [.obj [("introduced", .str "1.0")]])]]

/-- The same range with a second spelling of the key of its type. -/
def twoSpellings : List Json :=
  [.obj [("type", .str "SEMVER"), ("Type", .bool true),
    ("events", .arr [.obj [("introduced", .str "1.0")]])]]

/-- The text of ranges. -/
def rangesText (ranges : List Json) : String := String.ofList (Json.Printer.compact.render (.arr ranges))

lemma parse_rangesText (ranges : List Json) :
    Json.parse (rangesText ranges).toList = some (.arr ranges) := by
  rw [rangesText, String.toList_ofList, Json.Printer.parse_render]

/-- Exact keys are decoded as they were seen. -/
theorem parseRanges_exactKeys :
    parseRanges (rangesText exactKeys) = some [⟨"SEMVER", [{ introduced := "1.0" }]⟩] := by
  have haccepted : checkRangesShape (rangesText exactKeys) = none := by
    rw [checkRangesShape, parse_rangesText]
    decide
  have hranges : (Json.parse (rangesText exactKeys).toList).bind rawItems = some exactKeys := by
    rw [parse_rangesText]
    rfl
  refine (parseRanges_eq_seen_iff haccepted hranges).mpr (Or.inl ?_)
  intro range hrange
  obtain rfl := List.mem_singleton.mp hrange
  exact ⟨by decide, by decide, by decide⟩

/-- The check looks at one spelling of the key, the decoder at both. -/
theorem twoSpellings_not_parsed :
    checkRangesShape (rangesText twoSpellings) = none ∧ parseRanges (rangesText twoSpellings) = none := by
  constructor
  · rw [checkRangesShape, parse_rangesText]
    decide
  · rw [parseRanges, parse_rangesText]
    decide

end Packmon.Version

import Packmon.Library.Jsonb
import Packmon.Version.Ranges

/-!
# Version constraints on their way into the store

A feed prints the ranges and versions of a package as JSON; the store checks the texts and keeps them as
`jsonb` columns, whose text the readers decode again.  A `RangeFormat` is the way a feed prints a range,
with what the checks and the decoder make of it.  What is stored affects the same versions as what was
printed (`accepts_stored`).
-/

namespace Packmon

open GoText GoJson Version

/-! ## Printing -/

/-- A printed list; an absent one is `null`.  The store takes a list that is present but empty for
the same. -/
def marshalSlice (items : List Json) : Json :=
  match items with
  | [] => .null
  | items => .arr items

def marshal (document : Json) : String := String.ofList (Json.Printer.compact.render document)

/-- A printed range with its printed events. -/
def rangeJSON (type : String) (events : List Json) : Json :=
  .obj [("type", .str type), ("events", marshalSlice events)]

def versionsJSON (versions : List String) : String := marshal (marshalSlice (versions.map .str))

/-! ## The checks of the store -/

def invalidFeedImportData (message : String) : String := "invalid feed import data: " ++ message

def coalesceStoredJSONArray (raw : String) : String :=
  if trimSpace raw = "" ∨ trimSpace raw = "null" then "[]" else raw

def validateStoredStringArrayJSON (id field raw : String) (allowNull : Bool) : Except String Unit :=
  let failure := invalidFeedImportData (id ++ " " ++ field ++ " must be an array of strings")
  if trimSpace raw = "" then .ok ()
  else if trimSpace raw = "null" then if allowNull then .ok () else .error failure
  else
    match (Json.parse raw.toList).bind rawItems with
    | none => .error failure
    | some values =>
      if values.all fun value => (stringPointer value).any Option.isSome then .ok ()
      else .error failure

def validateStoredVersionRangesJSON (id field raw : String) (allowNull : Bool) :
    Except String Unit :=
  if trimSpace raw = "" then .ok ()
  else if trimSpace raw = "null" then
    if allowNull then .ok ()
    else .error (invalidFeedImportData (id ++ " " ++ field ++ " must be an array of range objects"))
  else
    match checkRangesShape raw with
    | some shapeErr =>
      .error (invalidFeedImportData
        (id ++ " " ++ field ++ shapeErr.path ++ " " ++ shapeErr.reason))
    | none => .ok ()

/-! ## Formats -/

/-- The way a feed prints its ranges: the printed range decodes to the range, before and after it is
stored, unless it has no events, and then the store refuses it. -/
structure RangeFormat (ι : Type) where
  json : ι → Json
  range : ι → OsvRange
  decode : ∀ x, (range x).events ≠ [] →
    decodeRange {} (json x) = some ⟨(range x).type, Slice.ofList (range x).events⟩
  decode_jsonb : ∀ x, (range x).events ≠ [] →
    decodeRange {} (json x).jsonb = some ⟨(range x).type, Slice.ofList (range x).events⟩
  events_ne_nil : ∀ x path, checkRangeShape (json x) path = none → (range x).events ≠ []

namespace RangeFormat

variable {ι : Type} (format : RangeFormat ι)

/-- The printed ranges of a package. -/
def text (ranges : List ι) : String := marshal (marshalSlice (ranges.map format.json))

end RangeFormat

/-! ## The two formats -/

lemma marshalSlice_of_ne_nil {items : List Json} (h : items ≠ []) : marshalSlice items = .arr items := by
  cases items with
  | nil => exact absurd rfl h
  | cons item items => rfl

lemma decodeRange_obj (type : String) (items : List Json) :
    decodeRange {} (.obj [("type", .str type), ("events", .arr items)]) =
      (slice decodeEvent {} {} (.arr items)).map fun events => ⟨type, events⟩ := by
  change ((slice decodeEvent {} {} (.arr items)).map _).bind _ = _
  cases slice decodeEvent {} {} (.arr items) with
  | none => rfl
  | some events => rfl

lemma jsonb_range (type : String) (items : List Json) :
    Json.jsonb (.obj [("type", .str type), ("events", .arr items)]) =
      .obj [("type", .str type), ("events", .arr (items.map Json.jsonb))] := by
  rw [← Json.jsonbItems_eq_map]
  rfl

namespace RangeFormat

variable {ι ε : Type}

/-- A format by the way it prints events. -/
def ofEvents (type : ι → String) (events : ι → List ε) (json : ε → Json) (event : ε → OsvRangeEvent)
    (hdecode : ∀ e, decodeEvent {} (json e) = some (event e))
    (hjsonb : ∀ e, decodeEvent {} (json e).jsonb = some (event e)) : RangeFormat ι where
  json x := rangeJSON (type x) ((events x).map json)
  range x := ⟨type x, (events x).map event⟩
  decode x h := by
    have hne : (events x).map json ≠ [] := by simpa using h
    rw [rangeJSON, marshalSlice_of_ne_nil hne, decodeRange_obj, slice_map fun e _ => hdecode e]
    rfl
  decode_jsonb x h := by
    have hne : (events x).map json ≠ [] := by simpa using h
    rw [rangeJSON, marshalSlice_of_ne_nil hne, jsonb_range, decodeRange_obj, List.map_map,
      Function.comp_def, slice_map fun e _ => hjsonb e]
    rfl
  events_ne_nil x path h := by
    intro hempty
    have hnil : events x = [] := by simpa using hempty
    rw [hnil] at h
    cases h

end RangeFormat

def osvEventJSON (event : OsvRangeEvent) : Json :=
  .obj [("introduced", .str event.introduced), ("fixed", .str event.fixed),
    ("last_affected", .str event.lastAffected), ("limit", .str event.limit)]

/-- The ranges of the OSV feed. -/
def osvFormat : RangeFormat OsvRange :=
  .ofEvents OsvRange.type OsvRange.events osvEventJSON id (fun _ => rfl) fun _ => rfl

/-- An event of the GHSA feed, which has no limit. -/
structure GhsaEvent where
  introduced : String := ""
  fixed : String := ""
  lastAffected : String := ""
  deriving DecidableEq

structure GhsaRange where
  type : String := ""
  events : List GhsaEvent := []
  deriving DecidableEq

def ghsaEventJSON (event : GhsaEvent) : Json :=
  .obj [("introduced", .str event.introduced), ("fixed", .str event.fixed),
    ("last_affected", .str event.lastAffected)]

/-- The ranges of the GHSA feed. -/
def ghsaFormat : RangeFormat GhsaRange :=
  .ofEvents GhsaRange.type GhsaRange.events ghsaEventJSON
    (fun event => { introduced := event.introduced, fixed := event.fixed,
                    lastAffected := event.lastAffected })
    (fun _ => rfl) fun _ => rfl

/-! ## What is stored affects the same versions -/

section

variable {ι : Type} (format : RangeFormat ι)

/-- Printed ranges read back, whatever the printer. -/
lemma readRanges_render (p : Json.Printer) {json : ι → Json} {ranges : List ι}
    (hdecode : ∀ x ∈ ranges, decodeRange {} (json x) =
      some ⟨(format.range x).type, Slice.ofList (format.range x).events⟩)
    (hevents : ∀ x ∈ ranges, (format.range x).events ≠ []) :
    readRanges (String.ofList (p.render (.arr (ranges.map json)))) =
      some (ranges.map format.range) := by
  have hfull : (ranges.map fun x => DecodedRange.toOsvRange
      ⟨(format.range x).type, Slice.ofList (format.range x).events⟩) = ranges.map format.range := by
    refine List.map_congr_left fun x _ => ?_
    rw [DecodedRange.toOsvRange, Slice.items_ofList]
  have hflat (raw : String) : isFlatFormat (ranges.map format.range) raw = false := by
    cases ranges with
    | nil => rfl
    | cons x ranges => simp [isFlatFormat, hevents x List.mem_cons_self]
  rw [readRanges, trimSpace_render_arr, if_pos (render_arr_ne p _), parseRanges, String.toList_ofList,
    Json.Printer.parse_render, Option.bind_some, slice_map hdecode, Option.map_some,
    Slice.items_ofList, List.map_map]
  simp only [Function.comp_def, hfull, hflat, Bool.false_eq_true, if_false]

lemma marshal_null : marshal .null = "null" := by decide

lemma text_nil : format.text [] = "null" := marshal_null

lemma text_of_ne_nil {ranges : List ι} (h : ranges ≠ []) :
    format.text ranges =
      String.ofList (Json.Printer.compact.render (.arr (ranges.map format.json))) := by
  rw [RangeFormat.text, marshal, marshalSlice_of_ne_nil (by simpa using h)]

variable {format}

lemma readRanges_null : readRanges "null" = some [] := by decide

lemma readRanges_empty : readRanges "[]" = some [] := by decide

/-- Printed ranges with events read back. -/
lemma readRanges_text {ranges : List ι} (hevents : ∀ x ∈ ranges, (format.range x).events ≠ []) :
    readRanges (format.text ranges) = some (ranges.map format.range) := by
  by_cases h : ranges = []
  · rw [h, text_nil]
    exact readRanges_null
  · rw [text_of_ne_nil format h]
    exact readRanges_render format _ (fun x hx => format.decode x (hevents x hx)) hevents

lemma jsonbText_empty : Json.jsonbText "[]" = some "[]" := by decide

lemma coalesce_null : coalesceStoredJSONArray "null" = "[]" := by decide

lemma coalesce_render_arr (p : Json.Printer) (items : List Json) :
    coalesceStoredJSONArray (String.ofList (p.render (.arr items))) =
      String.ofList (p.render (.arr items)) := by
  rw [coalesceStoredJSONArray, trimSpace_render_arr, if_neg]
  exact not_or.mpr (render_arr_ne p items)

/-- Ranges that the store accepts have events. -/
lemma events_ne_nil_of_valid {id field : String} {ranges : List ι}
    (h : validateStoredVersionRangesJSON id field
      (coalesceStoredJSONArray (format.text ranges)) false = .ok ()) :
    ∀ x ∈ ranges, (format.range x).events ≠ [] := by
  intro x hx
  have hne : ranges ≠ [] := List.ne_nil_of_mem hx
  rw [text_of_ne_nil format hne, coalesce_render_arr, validateStoredVersionRangesJSON,
    trimSpace_render_arr, if_neg (render_arr_ne _ _).1, if_neg (render_arr_ne _ _).2] at h
  split at h
  · cases h
  · next hshape =>
    rw [checkRangesShape, String.toList_ofList, Json.Printer.parse_render, Option.bind_some] at hshape
    change List.findSome? _ (ranges.map format.json).zipIdx = none at hshape
    rw [List.findSome?_eq_none_iff] at hshape
    have hmem : format.json x ∈ ranges.map format.json := List.mem_map_of_mem hx
    obtain ⟨i, hi⟩ := List.mem_iff_getElem?.mp hmem
    exact format.events_ne_nil x _ (hshape (format.json x, i) (List.mem_zipIdx_iff_getElem?.mpr hi))

/-- Stored ranges read back. -/
lemma readRanges_stored {ranges : List ι} {stored : String}
    (hevents : ∀ x ∈ ranges, (format.range x).events ≠ [])
    (hstored : Json.jsonbText (coalesceStoredJSONArray (format.text ranges)) = some stored) :
    readRanges stored = some (ranges.map format.range) := by
  by_cases h : ranges = []
  · subst h
    rw [text_nil, coalesce_null] at hstored
    rw [jsonbText_empty] at hstored
    rw [← Option.some.inj hstored]
    exact readRanges_empty
  · rw [text_of_ne_nil format h, coalesce_render_arr, Json.jsonbText_render, Json.jsonb_arr,
      List.map_map] at hstored
    rw [← Option.some.inj hstored]
    exact readRanges_render format _ (fun x hx => format.decode_jsonb x (hevents x hx)) hevents

end

/-! ## Versions -/

/-- Printed versions read back, whatever the printer. -/
lemma readVersions_render (p : Json.Printer) (versions : List String) :
    readVersions (String.ofList (p.render (.arr (versions.map .str)))) = some versions := by
  have hdecode : slice string "" {} (.arr (versions.map .str)) = some (Slice.ofList versions) := by
    have h : slice string "" {} (.arr (versions.map .str)) = some (Slice.ofList (versions.map id)) :=
      slice_map fun _ _ => rfl
    rwa [List.map_id] at h
  rw [readVersions, trimSpace_render_arr, if_pos (render_arr_ne p _), parseVersions,
    String.toList_ofList, Json.Printer.parse_render, Option.bind_some, hdecode, Option.map_some,
    Slice.items_ofList]

lemma versionsJSON_of_ne_nil {versions : List String} (h : versions ≠ []) :
    versionsJSON versions =
      String.ofList (Json.Printer.compact.render (.arr (versions.map .str))) := by
  rw [versionsJSON, marshal, marshalSlice_of_ne_nil (by simpa using h)]

lemma versionsJSON_nil : versionsJSON [] = "null" := by decide

lemma readVersions_versionsJSON (versions : List String) :
    readVersions (versionsJSON versions) = some versions := by
  by_cases h : versions = []
  · rw [h, versionsJSON_nil]
    decide
  · rw [versionsJSON_of_ne_nil h, readVersions_render]

lemma readVersions_stored {versions : List String} {stored : String}
    (hstored : Json.jsonbText (coalesceStoredJSONArray (versionsJSON versions)) = some stored) :
    readVersions stored = some versions := by
  by_cases h : versions = []
  · subst h
    rw [versionsJSON_nil, coalesce_null] at hstored
    rw [jsonbText_empty] at hstored
    rw [← Option.some.inj hstored]
    decide
  · have hjsonb : (versions.map Json.str).map Json.jsonb = versions.map Json.str := by
      rw [List.map_map]
      exact List.map_congr_left fun s _ => Json.jsonb_str s
    rw [versionsJSON_of_ne_nil h, coalesce_render_arr, Json.jsonbText_render, Json.jsonb_arr, hjsonb]
      at hstored
    rw [← Option.some.inj hstored, readVersions_render]

/-- What is stored affects the same versions as what was printed. -/
theorem accepts_stored {ι : Type} {format : RangeFormat ι} {ranges : List ι} {versions : List String}
    {id field storedRanges storedVersions : String} (version ecosystem : String)
    (hvalid : validateStoredVersionRangesJSON id field
      (coalesceStoredJSONArray (format.text ranges)) false = .ok ())
    (hranges : Json.jsonbText (coalesceStoredJSONArray (format.text ranges)) = some storedRanges)
    (hversions : Json.jsonbText (coalesceStoredJSONArray (versionsJSON versions)) =
      some storedVersions) :
    accepts version storedRanges storedVersions ecosystem =
      accepts version (format.text ranges) (versionsJSON versions) ecosystem := by
  have hevents := events_ne_nil_of_valid hvalid
  rw [Bool.eq_iff_iff, accepts_iff, accepts_iff, readRanges_stored hevents hranges,
    readRanges_text hevents, readVersions_stored hversions, readVersions_versionsJSON]

/-! ## Reading the columns -/

def normalizeVersionConstraintJSONField (raw : String) : String :=
  if trimSpace raw = "" ∨ trimSpace raw = "null" then "[]" else trimSpace raw

def versionAffectedWithEcosystem (version versionRangesJSON versionsJSON ecosystem : String) :
    Option Bool :=
  versionAffected version (normalizeVersionConstraintJSONField versionRangesJSON)
    (normalizeVersionConstraintJSONField versionsJSON) ecosystem

section

variable (raw : String)

lemma readRanges_normalize : readRanges (normalizeVersionConstraintJSONField raw) = readRanges raw := by
  rw [normalizeVersionConstraintJSONField]
  split_ifs with h
  · rw [readRanges_empty, readRanges, if_neg fun h' => h.elim h'.1 h'.2]
  · rw [readRanges, readRanges, trimSpace_trimSpace]

lemma readVersions_normalize :
    readVersions (normalizeVersionConstraintJSONField raw) = readVersions raw := by
  rw [normalizeVersionConstraintJSONField]
  split_ifs with h
  · have hempty : readVersions "[]" = some [] := by decide
    rw [hempty, readVersions, if_neg fun h' => h.elim h'.1 h'.2]
  · rw [readVersions, readVersions, trimSpace_trimSpace]

end

section

variable (version rangesJSON versionsJSON ecosystem : String)

/-- The columns are read as they are. -/
lemma accepts_normalize :
    accepts version (normalizeVersionConstraintJSONField rangesJSON)
        (normalizeVersionConstraintJSONField versionsJSON) ecosystem =
      accepts version rangesJSON versionsJSON ecosystem := by
  rw [Bool.eq_iff_iff, accepts_iff, accepts_iff, readRanges_normalize, readVersions_normalize]

lemma getD_versionAffectedWithEcosystem :
    (versionAffectedWithEcosystem version rangesJSON versionsJSON ecosystem).getD true =
      accepts version rangesJSON versionsJSON ecosystem :=
  accepts_normalize version rangesJSON versionsJSON ecosystem

end

end Packmon

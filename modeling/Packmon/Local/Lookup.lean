import Packmon.Store.Malicious

/-!
# Lookups in the local store

The local store checks the constraints of a finding again before it evaluates them; what cannot be read is
an error, not an affected version.
-/

namespace Packmon.Local

open GoText GoJson Version

/-! ## The checks -/

structure LocalVersionRange where
  events : Slice OsvRangeEvent := {}

def decodeLocalVersionRange : Decoder LocalVersionRange := object
  [("events", field LocalVersionRange.events (fun r es => { r with events := es })
    (slice decodeEvent {}))]

/-- The text of an error about a field of a finding. -/
def findingError (id field problem : String) : String :=
  "sqlite: finding " ++ id ++ " " ++ field ++ problem

/-- The first event without a boundary. -/
def checkLocalEvents (id field path : String) (events : List OsvRangeEvent) : Except String Unit :=
  events.zipIdx.forM fun (event, j) =>
    if trimSpace event.introduced = "" ∧ trimSpace event.fixed = "" ∧
        trimSpace event.lastAffected = "" ∧ trimSpace event.limit = "" then
      .error (findingError id field
        (path ++ ".events[" ++ itoa j ++ "] must set introduced, fixed, last_affected, or limit"))
    else .ok ()

def validateLocalVersionRanges (id field rangesJSON : String) (allowNull : Bool) :
    Except String Unit :=
  let trimmed := trimSpace rangesJSON
  if trimmed = "" then .ok ()
  else if trimmed = "null" then
    if allowNull then .ok () else .error (findingError id field " must be an array of range objects")
  else
    match (Json.parse trimmed.toList).bind (slice decodeLocalVersionRange {} {}) with
    | none => .error (findingError id field " must be an array of range objects")
    | some ranges =>
      ranges.items.zipIdx.forM fun (versionRange, i) =>
        let path := "[" ++ itoa i ++ "]"
        match versionRange.events.items with
        | [] => .error (findingError id field (path ++ ".events must not be empty"))
        | events => checkLocalEvents id field path events

def isString : Json → Bool
  | .str _ => true
  | _ => false

def validateLocalStringArray (id field versionsJSON : String) (allowNull : Bool) :
    Except String Unit :=
  let trimmed := trimSpace versionsJSON
  let failure := findingError id field " must be an array of strings"
  if trimmed = "" then .ok ()
  else if trimmed = "null" then if allowNull then .ok () else .error failure
  else
    match (Json.parse trimmed.toList).bind rawItems with
    | none => .error failure
    | some values => if values.all isString then .ok () else .error failure

def validateLocalMaliciousVersions (id versionsJSON : String) : Except String Unit :=
  validateLocalStringArray id "versions" versionsJSON true

/-! ## Malicious findings -/

def localMaliciousAffectsVersion (id ecosystem version rangesJSON versionsJSON : String) :
    Except String Bool := do
  if trimSpace version = "" then return true
  validateLocalVersionRanges id "version_ranges" rangesJSON true
  validateLocalMaliciousVersions id versionsJSON
  match versionAffected version (normalizeVersionConstraintJSONField rangesJSON)
      (normalizeVersionConstraintJSONField versionsJSON) ecosystem with
  | none => .error ("sqlite: malicious finding " ++ id ++ " version constraints invalid")
  | some affected => .ok affected

/-- A printed list of strings passes the check. -/
lemma validateLocalStringArray_render (p : Json.Printer) (id field : String) (versions : List String) :
    validateLocalStringArray id field (String.ofList (p.render (.arr (versions.map .str)))) true =
      .ok () := by
  have hall : (versions.map Json.str).all isString = true := by simp [isString]
  rw [validateLocalStringArray, trimSpace_render_arr, if_neg (render_arr_ne p _).1,
    if_neg (render_arr_ne p _).2, String.toList_ofList,
    Json.Printer.parse_render, Option.bind_some]
  dsimp only [rawItems]
  rw [hall]
  rfl

section

variable {mf : MaliciousFinding} {versions : List String} {row : MaliciousRow}

/-- On a stored list of versions the local store agrees with the server. -/
lemma localMaliciousAffectsVersion_iff (hlists : mf.Lists versions) (h : mf.Holds row)
    (id version ecosystem : String) :
    localMaliciousAffectsVersion id ecosystem version (row.versionRanges.getD "")
        (row.versions.getD "") = .ok true ↔
      trimSpace version = "" ∨ versions = [] ∨
        ∃ candidate ∈ versions, versionsEqual version candidate ecosystem = true := by
  rw [← hlists.accepts_iff h version ecosystem, localMaliciousAffectsVersion]
  by_cases hblank : trimSpace version = ""
  · simp only [hblank, if_true, true_or, iff_true]
    rfl
  · obtain ⟨hreadRanges, hreadVersions⟩ := hlists.read h
    have hempty : trimSpace "" = "" := by decide
    have hranges : validateLocalVersionRanges id "version_ranges" (row.versionRanges.getD "") true =
        .ok () := by
      rw [(hlists.columns h).1, Option.getD_none, validateLocalVersionRanges, hempty, if_pos rfl]
    have hversions : validateLocalMaliciousVersions id (row.versions.getD "") = .ok () := by
      rw [(hlists.columns h).2]
      split_ifs
      · rw [Option.getD_none, validateLocalMaliciousVersions, validateLocalStringArray, hempty,
          if_pos rfl]
      · exact validateLocalStringArray_render _ _ _ _
    rw [hranges, hversions, versionAffected_eq_some ((readRanges_normalize _).trans hreadRanges)
      ((readVersions_normalize _).trans hreadVersions), accepts_normalize, if_neg hblank, or_iff_right hblank]
    exact ⟨Except.ok.inj, congrArg Except.ok⟩

end

end Packmon.Local

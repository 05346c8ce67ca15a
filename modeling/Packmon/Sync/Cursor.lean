import Packmon.Library.Base64
import Packmon.Library.GoText
import Packmon.Library.JsonStrings

/-!
# Sync cursors and their wire form

A page of `/api/v1/sync` ends with a cursor of twelve fields: for each of the four datasets a legacy
row offset, an opaque keyset string and a done flag.  This module has the cursor on both sides of
the wire (`SyncCursor` in the server, `Cursor` in the response), the three keyset encodings, the
query parameters the client sends (`setSyncCursorQuery`) and the server's reading of them
(`parseSyncCursor`, `parseSyncExportOptions`).

Each keyset encoding has a decode lemma, and `parseSyncCursor_eq_ok_iff` says exactly when a cursor
comes back unchanged from a request that carries it.
-/

namespace Packmon

open GoText (Values trimSpace itoa atoi parseBool)

/-- An instant or a calendar day; `0` is Go's zero time. -/
abbrev Time := ℕ

/-! ## The two cursor records -/

/-- Per-dataset pagination state of a sync export.  The zero value starts every dataset. -/
structure SyncCursor where
  vulnerabilities : ℕ := 0
  malicious : ℕ := 0
  reputation : ℕ := 0
  lifecycle : ℕ := 0
  vulnerabilitiesCursor : String := ""
  maliciousCursor : String := ""
  reputationCursor : String := ""
  lifecycleCursor : String := ""
  vulnerabilitiesDone : Bool := false
  maliciousDone : Bool := false
  reputationDone : Bool := false
  lifecycleDone : Bool := false
  deriving DecidableEq

/-- The cursor of a sync response. -/
structure Cursor where
  vulnerabilities : ℕ := 0
  malicious : ℕ := 0
  reputation : ℕ := 0
  lifecycle : ℕ := 0
  vulnerabilitiesCursor : String := ""
  maliciousCursor : String := ""
  reputationCursor : String := ""
  lifecycleCursor : String := ""
  vulnerabilitiesDone : Bool := false
  maliciousDone : Bool := false
  reputationDone : Bool := false
  lifecycleDone : Bool := false
  deriving DecidableEq

/-- The cursor carries no offset, keyset string or done flag. -/
def SyncCursor.isZero (c : SyncCursor) : Bool :=
  c.vulnerabilities = 0 && c.malicious = 0 && c.reputation = 0 && c.lifecycle = 0 &&
    c.vulnerabilitiesCursor = "" && c.maliciousCursor = "" && c.reputationCursor = "" &&
    c.lifecycleCursor = "" && !c.vulnerabilitiesDone && !c.maliciousDone && !c.reputationDone &&
    !c.lifecycleDone

/-- The response cursor carries no pagination state. -/
def Cursor.isZero (c : Cursor) : Bool :=
  c.vulnerabilities = 0 && c.malicious = 0 && c.reputation = 0 && c.lifecycle = 0 &&
    c.vulnerabilitiesCursor = "" && c.maliciousCursor = "" && c.reputationCursor = "" &&
    c.lifecycleCursor = "" && !c.vulnerabilitiesDone && !c.maliciousDone && !c.reputationDone &&
    !c.lifecycleDone

/-- The response form of a server cursor, field by field. -/
def syncCursorResponse (cursor : SyncCursor) : Cursor where
  vulnerabilities := cursor.vulnerabilities
  malicious := cursor.malicious
  reputation := cursor.reputation
  lifecycle := cursor.lifecycle
  vulnerabilitiesCursor := cursor.vulnerabilitiesCursor
  maliciousCursor := cursor.maliciousCursor
  reputationCursor := cursor.reputationCursor
  lifecycleCursor := cursor.lifecycleCursor
  vulnerabilitiesDone := cursor.vulnerabilitiesDone
  maliciousDone := cursor.maliciousDone
  reputationDone := cursor.reputationDone
  lifecycleDone := cursor.lifecycleDone

/-! ## Keyset encodings -/

/-- The base64 text of the JSON array of the values. -/
@[irreducible] def encodeSyncCursorKey (values : List String) : String :=
  String.ofList (Base64.encode (JsonStrings.utf8Encode (JsonStrings.marshal values)))

/-- The values of a keyset string, of any number. -/
@[irreducible] def decodeSyncCursorValues (raw : String) : Option (List String) :=
  (Base64.decode raw.toList).bind fun payload =>
    JsonStrings.unmarshal (JsonStrings.utf8Decode payload)

/-- The values of a keyset string that has the wanted number of parts. -/
def decodeSyncCursorKey (raw : String) (wantParts : ℕ) : Option (List String) :=
  (decodeSyncCursorValues raw).bind fun values =>
    if values.length ≠ wantParts then none else some values

/-- The tag of a cursor that continues after an advisory. -/
def syncAdvisoryCursorTag : String := "advisory-v2"

/-- The tag of a cursor that continues inside an advisory. -/
def syncAdvisoryRowCursorTag : String := "advisory-rows-v2"

/-- The cursor that continues a delta after the advisory. -/
def encodeSyncAdvisoryCursor (id : String) : String :=
  encodeSyncCursorKey [syncAdvisoryCursorTag, id]

/-- The advisory the values of an advisory cursor name. -/
def advisoryOfValues : List String → Option String
  | [tag, id] => if tag ≠ syncAdvisoryCursorTag ∨ id = "" then none else some id
  | _ => none

/-- The advisory of an advisory cursor. -/
def decodeSyncAdvisoryCursor (raw : String) : Option String :=
  (decodeSyncCursorValues raw).bind advisoryOfValues

/-- The cursor that continues a split advisory after one of its rows. -/
def encodeSyncAdvisoryRowCursor (id ecosystem name : String) : String :=
  encodeSyncCursorKey [syncAdvisoryRowCursorTag, id, ecosystem, name]

/-- The row the values of an advisory row cursor name. -/
def advisoryRowOfValues : List String → Option (String × String × String)
  | [tag, id, ecosystem, name] =>
    if tag ≠ syncAdvisoryRowCursorTag ∨ id = "" ∨ ecosystem = "" ∨ name = "" then none
    else some (id, ecosystem, name)
  | _ => none

/-- The advisory and the last delivered row of an advisory row cursor. -/
def decodeSyncAdvisoryRowCursor (raw : String) : Option (String × String × String) :=
  (decodeSyncCursorValues raw).bind advisoryRowOfValues

@[simp] lemma decodeSyncCursorValues_encode (values : List String) :
    decodeSyncCursorValues (encodeSyncCursorKey values) = some values := by
  simp [decodeSyncCursorValues, encodeSyncCursorKey]

@[simp] lemma decodeSyncCursorKey_encode (values : List String) (wantParts : ℕ) :
    decodeSyncCursorKey (encodeSyncCursorKey values) wantParts =
      if values.length ≠ wantParts then none else some values := by
  simp [decodeSyncCursorKey]

@[simp] lemma decodeSyncAdvisoryCursor_values (values : List String) :
    decodeSyncAdvisoryCursor (encodeSyncCursorKey values) = advisoryOfValues values := by
  rw [decodeSyncAdvisoryCursor, decodeSyncCursorValues_encode, Option.bind_some]

@[simp] lemma decodeSyncAdvisoryRowCursor_values (values : List String) :
    decodeSyncAdvisoryRowCursor (encodeSyncCursorKey values) = advisoryRowOfValues values := by
  rw [decodeSyncAdvisoryRowCursor, decodeSyncCursorValues_encode, Option.bind_some]

@[simp] lemma decodeSyncAdvisoryCursor_encode (id : String) :
    decodeSyncAdvisoryCursor (encodeSyncAdvisoryCursor id) = if id = "" then none else some id := by
  rw [encodeSyncAdvisoryCursor, decodeSyncAdvisoryCursor_values]
  simp [advisoryOfValues]

@[simp] lemma decodeSyncAdvisoryRowCursor_encode (id ecosystem name : String) :
    decodeSyncAdvisoryRowCursor (encodeSyncAdvisoryRowCursor id ecosystem name) =
      if id = "" ∨ ecosystem = "" ∨ name = "" then none else some (id, ecosystem, name) := by
  rw [encodeSyncAdvisoryRowCursor, decodeSyncAdvisoryRowCursor_values]
  simp [advisoryRowOfValues]

/-- An advisory cursor has two parts, so it is no advisory row cursor. -/
@[simp] lemma decodeSyncAdvisoryRowCursor_advisory (id : String) :
    decodeSyncAdvisoryRowCursor (encodeSyncAdvisoryCursor id) = none := by
  rw [encodeSyncAdvisoryCursor, decodeSyncAdvisoryRowCursor_values, advisoryRowOfValues]
  simp

/-- An advisory row cursor has four parts, so it is no advisory cursor. -/
@[simp] lemma decodeSyncAdvisoryCursor_row (id ecosystem name : String) :
    decodeSyncAdvisoryCursor (encodeSyncAdvisoryRowCursor id ecosystem name) = none := by
  rw [encodeSyncAdvisoryRowCursor, decodeSyncAdvisoryCursor_values, advisoryOfValues]
  simp

/-- A keyset string is a nonempty text without white space. -/
lemma encodeSyncCursorKey_ne_empty (values : List String) : encodeSyncCursorKey values ≠ "" := by
  intro h
  have hdecode := decodeSyncCursorValues_encode values
  rw [h] at hdecode
  have hempty : decodeSyncCursorValues "" = none := by decide +kernel
  simp [hempty] at hdecode

@[simp] lemma trimSpace_encodeSyncCursorKey (values : List String) :
    trimSpace (encodeSyncCursorKey values) = encodeSyncCursorKey values := by
  refine GoText.trimSpace_eq_self fun c hc => ?_
  rw [encodeSyncCursorKey, String.toList_ofList] at hc
  have hspace : (Base64.alphabet.all fun c => !GoText.isSpace c) = true := by decide
  simpa using List.all_eq_true.mp hspace c (Base64.mem_alphabet_of_mem_encode hc)

/-! ## The request of a page -/

/-- The query parameters of a cursor; a zero field is not sent. -/
def setSyncCursorQuery (q : Values) (cursor : Cursor) : Values :=
  q.setIf (cursor.vulnerabilities > 0) "vulnerabilities_offset" (itoa cursor.vulnerabilities)
    |>.setIf (cursor.malicious > 0) "malicious_offset" (itoa cursor.malicious)
    |>.setIf (cursor.reputation > 0) "reputation_offset" (itoa cursor.reputation)
    |>.setIf (cursor.lifecycle > 0) "lifecycle_offset" (itoa cursor.lifecycle)
    |>.setIf (cursor.vulnerabilitiesCursor ≠ "") "vulnerabilities_cursor"
        cursor.vulnerabilitiesCursor
    |>.setIf (cursor.maliciousCursor ≠ "") "malicious_cursor" cursor.maliciousCursor
    |>.setIf (cursor.reputationCursor ≠ "") "reputation_cursor" cursor.reputationCursor
    |>.setIf (cursor.lifecycleCursor ≠ "") "lifecycle_cursor" cursor.lifecycleCursor
    |>.setIf cursor.vulnerabilitiesDone "vulnerabilities_done" "true"
    |>.setIf cursor.maliciousDone "malicious_done" "true"
    |>.setIf cursor.reputationDone "reputation_done" "true"
    |>.setIf cursor.lifecycleDone "lifecycle_done" "true"

/-- The query of one page request; the texts of the since window and of the pinned snapshot are
empty when the client has none. -/
def fetchSyncPageQuery (since sinceXID snapshot snapshotXID : String) (limit : ℕ) (cursor : Cursor)
    (ecosystems : List String) : Values :=
  let q := Values.setIf [] (since ≠ "") "since" since
    |>.setIf (sinceXID ≠ "") "since_xid" sinceXID
    |>.setIf (snapshot ≠ "") "snapshot" snapshot
    |>.setIf (snapshotXID ≠ "") "snapshot_xid" snapshotXID
    |>.set "limit" (itoa limit)
  let q := if !cursor.isZero then setSyncCursorQuery q cursor else q
  q.setIf (ecosystems.length > 0) "ecosystem" (",".intercalate ecosystems)

/-! ## The server's reading of a request -/

/-- The largest legacy offset. -/
def syncMaxOffset : ℕ := 10000

/-- The largest transaction id a request may carry. -/
def syncMaxXID : ℕ := 2 ^ 63 - 1

/-- One legacy offset parameter; an absent one is zero. -/
def parseSyncOffset (query : Values) (name : String) : Except String ℕ :=
  let raw := trimSpace (query.get name)
  if raw = "" then .ok 0
  else match atoi raw with
    | none => .error ("invalid " ++ name ++ " parameter")
    | some parsed =>
      if parsed < 0 ∨ parsed > syncMaxOffset then .error ("invalid " ++ name ++ " parameter")
      else .ok parsed.toNat

/-- The keyset string of a delta paged by advisories, in either of its two forms. -/
def isSyncAdvisoryCursor (raw : String) : Bool :=
  (decodeSyncAdvisoryCursor raw).isSome || (decodeSyncAdvisoryRowCursor raw).isSome

/-- A keyset string decodes to the wanted number of parts. -/
def validateSyncCursorKey (raw : String) (wantParts : ℕ) : Bool :=
  (decodeSyncCursorKey raw wantParts).isSome

/-- One keyset parameter of a row-paged dataset; an absent one is empty. -/
def parseSyncKeyset (query : Values) (name : String) (parts : ℕ) : Except String String :=
  let raw := trimSpace (query.get name)
  if raw = "" then .ok ""
  else if validateSyncCursorKey raw parts then .ok raw
  else .error ("invalid " ++ name ++ " parameter")

/-- The keyset parameter of the vulnerability dataset.  It may also be an advisory cursor, which
only a request with a since window may carry. -/
def parseSyncVulnerabilitiesKeyset (query : Values) : Except String String :=
  let raw := trimSpace (query.get "vulnerabilities_cursor")
  if raw = "" then .ok ""
  else if isSyncAdvisoryCursor raw then
    if trimSpace (query.get "since") = "" then
      .error "invalid vulnerabilities_cursor parameter: an advisory cursor requires since"
    else .ok raw
  else parseSyncKeyset query "vulnerabilities_cursor" 3

/-- One done flag; an absent one is false. -/
def parseSyncDone (query : Values) (name : String) : Except String Bool :=
  let raw := trimSpace (query.get name)
  if raw = "" then .ok false
  else match parseBool raw with
    | none => .error ("invalid " ++ name ++ " parameter")
    | some parsed => .ok parsed

/-- The cursor of a request: four offsets, four keyset strings, four flags, in this order. -/
def parseSyncCursor (query : Values) : Except String SyncCursor := do
  let vulnerabilities ← parseSyncOffset query "vulnerabilities_offset"
  let malicious ← parseSyncOffset query "malicious_offset"
  let reputation ← parseSyncOffset query "reputation_offset"
  let lifecycle ← parseSyncOffset query "lifecycle_offset"
  let vulnerabilitiesCursor ← parseSyncVulnerabilitiesKeyset query
  let maliciousCursor ← parseSyncKeyset query "malicious_cursor" 3
  let reputationCursor ← parseSyncKeyset query "reputation_cursor" 3
  let lifecycleCursor ← parseSyncKeyset query "lifecycle_cursor" 4
  let vulnerabilitiesDone ← parseSyncDone query "vulnerabilities_done"
  let maliciousDone ← parseSyncDone query "malicious_done"
  let reputationDone ← parseSyncDone query "reputation_done"
  let lifecycleDone ← parseSyncDone query "lifecycle_done"
  return {
    vulnerabilities, malicious, reputation, lifecycle
    vulnerabilitiesCursor, maliciousCursor, reputationCursor, lifecycleCursor
    vulnerabilitiesDone, maliciousDone, reputationDone, lifecycleDone }

/-! ## What comes back from a request -/

section Query

variable {query : Values} {name : String}

/-- A written offset reads back as itself up to the bound, and is refused above it. -/
lemma parseSyncOffset_of_get {n : ℕ} (h : query.get name = if n > 0 then itoa n else "") :
    parseSyncOffset query name =
      if n ≤ syncMaxOffset then .ok n else .error ("invalid " ++ name ++ " parameter") := by
  rcases Nat.eq_zero_or_pos n with rfl | hpos
  · simp [parseSyncOffset, h]
  · rw [if_pos hpos] at h
    simp only [parseSyncOffset, h, GoText.trimSpace_itoa, GoText.itoa_ne_empty, if_false,
      GoText.atoi_itoa]
    by_cases hn : n ≤ syncMaxOffset
    · have hfits : n < 2 ^ 63 := lt_of_le_of_lt hn (by decide)
      have hrange : ¬((n : ℤ) < 0 ∨ (n : ℤ) > (syncMaxOffset : ℤ)) := by omega
      simp only [if_pos hfits, if_pos hn, if_neg hrange, Int.toNat_natCast]
    · rw [if_neg hn]
      by_cases hfits : n < 2 ^ 63
      · have hrange : (n : ℤ) < 0 ∨ (n : ℤ) > (syncMaxOffset : ℤ) := by omega
        simp only [if_pos hfits, if_pos hrange]
      · simp only [if_neg hfits]

/-- A written keyset string of the right shape reads back as itself. -/
lemma parseSyncKeyset_of_get {values : List String}
    (h : query.get name = encodeSyncCursorKey values) :
    parseSyncKeyset query name values.length = .ok (encodeSyncCursorKey values) := by
  simp [parseSyncKeyset, h, encodeSyncCursorKey_ne_empty, validateSyncCursorKey]

lemma parseSyncKeyset_of_get_empty (parts : ℕ) (h : query.get name = "") :
    parseSyncKeyset query name parts = .ok "" := by
  simp [parseSyncKeyset, h]

/-- A keyset string the exporter writes for a row-paged dataset, or none. -/
def IsKeyset (parts : ℕ) (raw : String) : Prop :=
  raw = "" ∨ ∃ values : List String, values.length = parts ∧ raw = encodeSyncCursorKey values

lemma IsKeyset.parse {parts : ℕ} {raw : String} (hraw : IsKeyset parts raw)
    (h : query.get name = raw) : parseSyncKeyset query name parts = .ok raw := by
  rcases hraw with rfl | ⟨values, rfl, rfl⟩
  · exact parseSyncKeyset_of_get_empty parts h
  · exact parseSyncKeyset_of_get h

/-- A written vulnerability keyset string is accepted in either of the two advisory forms, or with
three parts. -/
lemma parseSyncVulnerabilitiesKeyset_of_get {raw : String}
    (h : query.get "vulnerabilities_cursor" = raw) (htrim : trimSpace raw = raw) (hne : raw ≠ "")
    (hsince : isSyncAdvisoryCursor raw = true → trimSpace (query.get "since") ≠ "") :
    parseSyncVulnerabilitiesKeyset query = .ok raw ↔
      isSyncAdvisoryCursor raw = true ∨ validateSyncCursorKey raw 3 = true := by
  unfold parseSyncVulnerabilitiesKeyset parseSyncKeyset
  rw [h, htrim, if_neg hne]
  by_cases hadvisory : isSyncAdvisoryCursor raw = true
  · rw [if_pos hadvisory, if_neg (hsince hadvisory)]
    exact iff_of_true rfl (Or.inl hadvisory)
  · rw [if_neg hadvisory]
    by_cases hparts : validateSyncCursorKey raw 3 = true
    · simp [hne, hparts]
    · simp [hne, hparts, hadvisory]

/-- A written advisory cursor is accepted with a since window, unless its id is empty. -/
lemma parseSyncVulnerabilitiesKeyset_advisory {id : String}
    (hsince : trimSpace (query.get "since") ≠ "")
    (h : query.get "vulnerabilities_cursor" = encodeSyncAdvisoryCursor id) :
    parseSyncVulnerabilitiesKeyset query = .ok (encodeSyncAdvisoryCursor id) ↔ id ≠ "" := by
  have hadvisory : isSyncAdvisoryCursor (encodeSyncAdvisoryCursor id) = true ↔ id ≠ "" := by
    rw [isSyncAdvisoryCursor, decodeSyncAdvisoryCursor_encode, decodeSyncAdvisoryRowCursor_advisory]
    split_ifs with hid <;> simp [hid]
  have hparts : validateSyncCursorKey (encodeSyncAdvisoryCursor id) 3 = false := by
    rw [validateSyncCursorKey, encodeSyncAdvisoryCursor, decodeSyncCursorKey_encode]
    rfl
  rw [parseSyncVulnerabilitiesKeyset_of_get h (trimSpace_encodeSyncCursorKey _)
    (encodeSyncCursorKey_ne_empty _) fun _ => hsince, hadvisory, hparts]
  simp

/-- A written row cursor is accepted with a since window, unless one of its parts is empty. -/
lemma parseSyncVulnerabilitiesKeyset_row {id ecosystem rowName : String}
    (hsince : trimSpace (query.get "since") ≠ "")
    (h : query.get "vulnerabilities_cursor" = encodeSyncAdvisoryRowCursor id ecosystem rowName) :
    parseSyncVulnerabilitiesKeyset query =
        .ok (encodeSyncAdvisoryRowCursor id ecosystem rowName) ↔
      id ≠ "" ∧ ecosystem ≠ "" ∧ rowName ≠ "" := by
  have hadvisory : isSyncAdvisoryCursor (encodeSyncAdvisoryRowCursor id ecosystem rowName) = true ↔
      id ≠ "" ∧ ecosystem ≠ "" ∧ rowName ≠ "" := by
    rw [isSyncAdvisoryCursor, decodeSyncAdvisoryCursor_row, decodeSyncAdvisoryRowCursor_encode,
      ← not_or, ← not_or]
    split_ifs with hempty <;> simp [hempty]
  have hparts :
      validateSyncCursorKey (encodeSyncAdvisoryRowCursor id ecosystem rowName) 3 = false := by
    rw [validateSyncCursorKey, encodeSyncAdvisoryRowCursor, decodeSyncCursorKey_encode]
    rfl
  rw [parseSyncVulnerabilitiesKeyset_of_get h (trimSpace_encodeSyncCursorKey _)
    (encodeSyncCursorKey_ne_empty _) fun _ => hsince, hadvisory, hparts]
  simp

/-- The three-part keyset string of row paging is accepted with or without a since window. -/
lemma IsKeyset.parseVulnerabilities {raw : String} (hraw : IsKeyset 3 raw)
    (h : query.get "vulnerabilities_cursor" = raw) :
    parseSyncVulnerabilitiesKeyset query = .ok raw := by
  rcases hraw with rfl | ⟨values, hlength, rfl⟩
  · simp [parseSyncVulnerabilitiesKeyset, h]
  · obtain ⟨a, b, c, rfl⟩ : ∃ a b c, values = [a, b, c] := List.length_eq_three.mp hlength
    have hadvisory : isSyncAdvisoryCursor (encodeSyncCursorKey [a, b, c]) = false := by
      rw [isSyncAdvisoryCursor, decodeSyncAdvisoryCursor_values, decodeSyncAdvisoryRowCursor_values]
      rfl
    have hparts : validateSyncCursorKey (encodeSyncCursorKey [a, b, c]) 3 = true := by
      rw [validateSyncCursorKey, decodeSyncCursorKey_encode]
      rfl
    exact (parseSyncVulnerabilitiesKeyset_of_get h (trimSpace_encodeSyncCursorKey _)
      (encodeSyncCursorKey_ne_empty _) (by simp [hadvisory])).mpr (Or.inr hparts)

/-- A written flag reads back as itself. -/
lemma parseSyncDone_of_get {done : Bool} (h : query.get name = if done then "true" else "") :
    parseSyncDone query name = .ok done := by
  have htrue : trimSpace "true" = "true" := by decide
  have hparse : parseBool "true" = some true := by decide
  cases done <;> simp [parseSyncDone, h, htrue, hparse]

/-- The query carries the cursor: each parameter has the text the client sends for its field. -/
structure Carries (query : Values) (cursor : Cursor) : Prop where
  vulnerabilities : query.get "vulnerabilities_offset" =
    if cursor.vulnerabilities > 0 then itoa cursor.vulnerabilities else ""
  malicious : query.get "malicious_offset" =
    if cursor.malicious > 0 then itoa cursor.malicious else ""
  reputation : query.get "reputation_offset" =
    if cursor.reputation > 0 then itoa cursor.reputation else ""
  lifecycle : query.get "lifecycle_offset" =
    if cursor.lifecycle > 0 then itoa cursor.lifecycle else ""
  vulnerabilitiesCursor : query.get "vulnerabilities_cursor" = cursor.vulnerabilitiesCursor
  maliciousCursor : query.get "malicious_cursor" = cursor.maliciousCursor
  reputationCursor : query.get "reputation_cursor" = cursor.reputationCursor
  lifecycleCursor : query.get "lifecycle_cursor" = cursor.lifecycleCursor
  vulnerabilitiesDone : query.get "vulnerabilities_done" =
    if cursor.vulnerabilitiesDone then "true" else ""
  maliciousDone : query.get "malicious_done" = if cursor.maliciousDone then "true" else ""
  reputationDone : query.get "reputation_done" = if cursor.reputationDone then "true" else ""
  lifecycleDone : query.get "lifecycle_done" = if cursor.lifecycleDone then "true" else ""

/-- A page request carries the cursor it is made for. -/
lemma carries_fetchSyncPageQuery (since sinceXID snapshot snapshotXID : String) (limit : ℕ)
    (cursor : Cursor) (ecosystems : List String) :
    Carries (fetchSyncPageQuery since sinceXID snapshot snapshotXID limit cursor ecosystems)
      cursor := by
  by_cases hzero : cursor.isZero
  · have hfields := hzero
    simp only [Cursor.isZero, Bool.and_eq_true, decide_eq_true_eq, Bool.not_eq_true'] at hfields
    constructor <;> simp [fetchSyncPageQuery, hzero, hfields]
  · constructor <;> simp [fetchSyncPageQuery, hzero, setSyncCursorQuery]

/-- The other parameters of a page request. -/
lemma get_fetchSyncPageQuery (since sinceXID snapshot snapshotXID : String) (limit : ℕ)
    (cursor : Cursor) (ecosystems : List String) :
    let request := fetchSyncPageQuery since sinceXID snapshot snapshotXID limit cursor ecosystems
    request.get "since" = since ∧ request.get "since_xid" = sinceXID ∧
      request.get "snapshot" = snapshot ∧ request.get "snapshot_xid" = snapshotXID ∧
      request.get "limit" = itoa limit ∧ request.get "offset" = "" ∧
      request.get "ecosystem" =
        if ecosystems.length > 0 then ",".intercalate ecosystems else "" := by
  by_cases hzero : cursor.isZero
  · simp [fetchSyncPageQuery, hzero]
  · simp [fetchSyncPageQuery, hzero, setSyncCursorQuery]

/-- The offsets of a cursor are within the bound the server accepts. -/
def SyncCursor.OffsetsAccepted (cursor : SyncCursor) : Prop :=
  cursor.vulnerabilities ≤ syncMaxOffset ∧ cursor.malicious ≤ syncMaxOffset ∧
    cursor.reputation ≤ syncMaxOffset ∧ cursor.lifecycle ≤ syncMaxOffset

instance (cursor : SyncCursor) : Decidable cursor.OffsetsAccepted :=
  inferInstanceAs (Decidable (_ ∧ _ ∧ _ ∧ _))

/-- A request that carries a cursor with well-formed keyset strings reads back as the cursor exactly
when its offsets are within the bound and its vulnerability keyset string is accepted. -/
lemma parseSyncCursor_eq_ok_iff {cursor : SyncCursor}
    (h : Carries query (syncCursorResponse cursor))
    (hmalicious : IsKeyset 3 cursor.maliciousCursor)
    (hreputation : IsKeyset 3 cursor.reputationCursor)
    (hlifecycle : IsKeyset 4 cursor.lifecycleCursor) :
    parseSyncCursor query = .ok cursor ↔
      cursor.OffsetsAccepted ∧
        parseSyncVulnerabilitiesKeyset query = .ok cursor.vulnerabilitiesCursor := by
  unfold parseSyncCursor SyncCursor.OffsetsAccepted
  rw [parseSyncOffset_of_get h.vulnerabilities, parseSyncOffset_of_get h.malicious,
    parseSyncOffset_of_get h.reputation, parseSyncOffset_of_get h.lifecycle,
    hmalicious.parse h.maliciousCursor, hreputation.parse h.reputationCursor,
    hlifecycle.parse h.lifecycleCursor, parseSyncDone_of_get h.vulnerabilitiesDone,
    parseSyncDone_of_get h.maliciousDone, parseSyncDone_of_get h.reputationDone,
    parseSyncDone_of_get h.lifecycleDone]
  simp only [syncCursorResponse]
  by_cases hv : cursor.vulnerabilities ≤ syncMaxOffset
  swap; · simp [hv, bind, Except.bind]
  by_cases hm : cursor.malicious ≤ syncMaxOffset
  swap; · simp [hv, hm, bind, Except.bind]
  by_cases hr : cursor.reputation ≤ syncMaxOffset
  swap; · simp [hv, hm, hr, bind, Except.bind]
  by_cases hl : cursor.lifecycle ≤ syncMaxOffset
  swap; · simp [hv, hm, hr, hl, bind, Except.bind]
  cases hkeyset : parseSyncVulnerabilitiesKeyset query with
  | error message => simp [hv, hm, hr, hl, bind, Except.bind]
  | ok raw =>
    simp only [hv, hm, hr, hl, bind, Except.bind, if_true, pure, Except.pure, Except.ok.injEq,
      and_self, true_and]
    constructor
    · intro heq; rw [← heq]
    · intro heq; rw [heq]

end Query

/-! ## Export options -/

/-- What a request asks the exporter for.  A limit of `0` means no pagination. -/
structure SyncExportOptions where
  since : Option Time
  sinceXID : ℕ := 0
  snapshotAt : Time := 0
  snapshotXID : ℕ := 0
  ecosystems : List String := []
  limit : ℕ
  offset : ℕ := 0
  cursor : SyncCursor := {}
  excludeReputation : Bool := false
  deriving DecidableEq

/-- The cursor the exporter works with: a legacy offset expands to all datasets, and a withheld
reputation dataset counts as done. -/
def SyncExportOptions.effectiveCursor (opts : SyncExportOptions) : SyncCursor :=
  let cursor :=
    if opts.cursor.isZero ∧ opts.offset > 0 then
      { vulnerabilities := opts.offset, malicious := opts.offset, reputation := opts.offset,
        lifecycle := opts.offset }
    else opts.cursor
  if opts.excludeReputation then { cursor with reputationCursor := "", reputationDone := true }
  else cursor

/-- The options with the offset of one dataset. -/
def syncOptionsWithOffset (opts : SyncExportOptions) (offset : ℕ) : SyncExportOptions :=
  { opts with offset }

/-- The server's default number of rows for each dataset of a page. -/
def defaultLimit : ℕ := 1000

/-- The largest number of rows for each dataset of a page, and the one the client asks for. -/
def maxLimit : ℕ := 10000

/-- The supported ecosystems. -/
def validEcosystems : List String :=
  ["npm", "pypi", "go", "maven", "cargo", "nuget", "composer", "gem", "pub", "actions",
    "cocoapods", "swiftpm", "hex", "cran", "docker", "chocolatey"]

/-- The nonblank parts of a comma-separated text. -/
def splitCSV (raw : String) : List String :=
  ((raw.toList.splitOn ',').map fun part => trimSpace (String.ofList part)).filter (· ≠ "")

/-- The ecosystem filter of a request, in lower case. -/
def parseSyncEcosystems (raw : String) : Except String (List String) :=
  (splitCSV raw).mapM fun ecosystem =>
    let normalized := GoText.toLower ecosystem
    if normalized ∈ validEcosystems then .ok normalized
    else .error ("invalid ecosystem filter: " ++ ecosystem)

/-- An optional transaction id. -/
def parseOptionalUintQuery (query : Values) (name : String) : Except String ℕ :=
  let raw := trimSpace (query.get name)
  if raw = "" then .ok 0
  else match GoText.parseUint raw with
    | none => .error ("invalid " ++ name ++ " parameter")
    | some parsed =>
      if parsed > syncMaxXID then .error ("invalid " ++ name ++ " parameter") else .ok parsed

/-- A number between the bounds, or the default when the parameter is absent. -/
def parseBoundedQuery (query : Values) (name : String) (low high default : ℕ) : Except String ℕ :=
  let raw := trimSpace (query.get name)
  if raw = "" then .ok default
  else match atoi raw with
    | none => .error ("invalid " ++ name ++ " parameter")
    | some parsed =>
      if parsed < low ∨ parsed > high then .error ("invalid " ++ name ++ " parameter")
      else .ok parsed.toNat

/-- An optional RFC 3339 timestamp. -/
def parseSyncTimestamp (parseRFC3339Timestamp : String → Option Time) (raw message : String) :
    Except String (Option Time) :=
  if raw = "" then .ok none
  else match parseRFC3339Timestamp raw with
    | none => .error message
    | some time => .ok (some time)

/-- The export options of a request, with the reading of RFC 3339 timestamps as a parameter. -/
def parseSyncExportOptions (parseRFC3339Timestamp : String → Option Time) (query : Values) :
    Except String SyncExportOptions := do
  let since ← parseSyncTimestamp parseRFC3339Timestamp (trimSpace (query.get "since"))
    "invalid since timestamp"
  let snapshot ← parseSyncTimestamp parseRFC3339Timestamp (trimSpace (query.get "snapshot"))
    "invalid snapshot parameter"
  let sinceXID ← parseOptionalUintQuery query "since_xid"
  let snapshotXID ← parseOptionalUintQuery query "snapshot_xid"
  let limit ← parseBoundedQuery query "limit" 1 maxLimit defaultLimit
  let offset ← parseBoundedQuery query "offset" 0 syncMaxOffset 0
  let cursor ← parseSyncCursor query
  let ecosystems ← parseSyncEcosystems (query.get "ecosystem")
  return {
    since, sinceXID, snapshotAt := snapshot.getD 0, snapshotXID, ecosystems, limit, offset, cursor }

/-- What the server reads from a page request of an unfiltered full sync that has no pinned snapshot
yet. -/
lemma parseSyncExportOptions_fullRequest {parseTime : String → Option Time} {limit : ℕ}
    {response : Cursor} {cursor : SyncCursor} (hlimit : 1 ≤ limit ∧ limit ≤ maxLimit)
    (hcursor : parseSyncCursor (fetchSyncPageQuery "" "" "" "" limit response []) = .ok cursor) :
    parseSyncExportOptions parseTime (fetchSyncPageQuery "" "" "" "" limit response []) =
      .ok { since := none, limit, cursor } := by
  obtain ⟨hsince, hsinceXID, hsnapshot, hsnapshotXID, hget, hoffset, hecosystem⟩ :=
    get_fetchSyncPageQuery "" "" "" "" limit response []
  have hparse : parseBoundedQuery (fetchSyncPageQuery "" "" "" "" limit response []) "limit" 1
      maxLimit defaultLimit = .ok limit := by
    have hfits : limit < 2 ^ 63 := lt_of_le_of_lt hlimit.2 (by decide)
    have hrange : ¬((limit : ℤ) < (1 : ℕ) ∨ (limit : ℤ) > maxLimit) := by omega
    simp only [parseBoundedQuery, hget, GoText.trimSpace_itoa, GoText.itoa_ne_empty, if_false,
      GoText.atoi_itoa, if_pos hfits, if_neg hrange, Int.toNat_natCast]
  have hecosystems : parseSyncEcosystems "" = .ok [] := by
    simp [parseSyncEcosystems, splitCSV, pure, Except.pure]
  have htime (message : String) : parseSyncTimestamp parseTime "" message = .ok none := rfl
  have huint (name : String) (h : Values.get (fetchSyncPageQuery "" "" "" "" limit response [])
      name = "") : parseOptionalUintQuery (fetchSyncPageQuery "" "" "" "" limit response []) name =
        .ok 0 := by
    simp [parseOptionalUintQuery, h]
  have hzero : parseBoundedQuery (fetchSyncPageQuery "" "" "" "" limit response []) "offset" 0
      syncMaxOffset 0 = .ok 0 := by
    simp [parseBoundedQuery, hoffset]
  rw [parseSyncExportOptions, hsince, hsnapshot, GoText.trimSpace_empty, htime, htime,
    huint _ hsinceXID, huint _ hsnapshotXID, hparse, hzero, hcursor, hecosystem]
  simp only [List.length_nil, gt_iff_lt, lt_irrefl, if_false, hecosystems]
  rfl

end Packmon

import Packmon.Store.Vulnerabilities

/-!
# Malicious findings

A finding is stored under its id.  The row of another source is never touched; the row of the same source
is replaced, and a removed one becomes active again.  A feed hands its findings over one by one
(`upsertEach`), each in a transaction of its own, and goes on after an error.
-/

namespace Packmon

open GoText GoJson Version

/-- What a feed hands over; an absent text is empty. -/
structure MaliciousFinding where
  id : String
  ecosystem : String
  name : String
  versionRanges : String := ""
  versions : String := ""
  source : String
  riskType : String := ""
  severity : String := ""
  summary : String := ""
  referenceURLs : String := ""

/-! ## Values the columns take -/

def normalizeMaliciousSeverity (severity : String) : Except String String :=
  let normalized := normalizeSeverity severity
  if storedSeverityValid normalized true then .ok normalized
  else .error ("unsupported malicious severity " ++ severity)

def normalizeMaliciousRiskType (riskType : String) : Except String String :=
  match toLower (trimSpace riskType) with
  | "" | "malware" => .ok "malware"
  | "supply_chain" | "supply-chain" | "supply chain" => .ok "supply_chain"
  | "typosquatting" | "typosquat" | "typo-squatting" => .ok "typosquatting"
  | _ => .error ("unsupported malicious risk type " ++ riskType)

def normalizeNullableJSON (raw : String) : Option String :=
  if raw = "" ∨ trimSpace raw = "null" then none else some raw

def normalizeJSON (raw fallback : String) : String := if raw = "" then fallback else raw

structure NormalizedMaliciousFinding where
  id : String
  ecosystem : StoredEcosystem
  name : String
  versionRanges : Option String
  versions : Option String
  source : String
  riskType : String
  severity : String
  summary : String
  referenceURLs : String

/-- An id of a manual finding is in its own name space. -/
def checkManualFinding (mf : MaliciousFinding) : Except String Unit := do
  if equalFold (trimSpace mf.source) "manual" then
    let _ ← normalizeManualAdvisoryID mf.id

def normalizeMaliciousFinding (mf : MaliciousFinding) : Except String NormalizedMaliciousFinding := do
  validateStoredVersionRangesJSON ("malicious finding " ++ mf.id) "version_ranges" mf.versionRanges true
  validateStoredStringArrayJSON ("malicious finding " ++ mf.id) "versions" mf.versions true
  let ecosystem ← normalizeStoredEcosystem mf.ecosystem
  let riskType ← normalizeMaliciousRiskType mf.riskType
  checkManualFinding mf
  let severity ← normalizeMaliciousSeverity mf.severity
  return {
    id := mf.id
    ecosystem
    name := normalizePackageName ecosystem mf.name
    versionRanges := normalizeNullableJSON mf.versionRanges
    versions := normalizeNullableJSON mf.versions
    source := mf.source
    riskType
    severity
    summary := mf.summary
    referenceURLs := normalizeJSON mf.referenceURLs "[]" }

/-! ## Storing one finding -/

/-- The value of a `jsonb` column. -/
def jsonbColumn (raw : String) : Except String String :=
  match Json.jsonbText raw with
  | some text => .ok text
  | none => .error "invalid input syntax for type json"

def nullableJsonbColumn (raw : Option String) : Except String (Option String) :=
  match raw with
  | none => .ok none
  | some raw => (jsonbColumn raw).map some

/-- The row that is inserted, but for the stamp of the transaction. -/
def NormalizedMaliciousFinding.row (mf : NormalizedMaliciousFinding) :
    Except String (Stamp → MaliciousRow) := do
  let versionRanges ← nullableJsonbColumn mf.versionRanges
  let versions ← nullableJsonbColumn mf.versions
  let referenceURLs ← jsonbColumn mf.referenceURLs
  return fun t =>
    { id := mf.id, ecosystem := mf.ecosystem, name := mf.name, versionRanges, versions,
      referenceURLs := some referenceURLs, riskType := mf.riskType, severity := mf.severity,
      summary := mf.summary, source := mf.source, removedAt := none, stamp := t }

/-- The source of the row with an id; the row of another source is refused. -/
def checkMaliciousOwner (mf : NormalizedMaliciousFinding) (db : Database) : Except String Unit :=
  match db.malicious.find? fun row => row.id = mf.id with
  | some row =>
    if row.source ≠ mf.source then
      .error ("postgres: malicious finding " ++ mf.id ++ " is owned by source " ++ row.source ++
        ", not " ++ mf.source)
    else .ok ()
  | none => .ok ()

/-- Insert a finding, or replace the one with its id. -/
def Database.upsertMalicious (db : Database) (row : MaliciousRow) : Database :=
  { db with
    malicious := Tables.upsert MaliciousRow.id (fun _ new => new) row db.malicious
    malicious_key := Tables.nodup_upsert (fun _ _ _ => rfl) db.malicious_key }

def upsertNormalizedMaliciousFindingTx (t : Stamp) (mf : NormalizedMaliciousFinding) (db : Database) :
    Except String Database := do
  checkMaliciousOwner mf db
  let row ← mf.row
  return db.upsertMalicious (row t)

def upsertMaliciousFinding (t : Stamp) (mf : MaliciousFinding) (db : Database) :
    Except String Database := do
  let normalized ← normalizeMaliciousFinding mf
  upsertNormalizedMaliciousFindingTx t normalized db

/-- Hand over findings one by one; those that fail with their errors, and the store afterwards. -/
def upsertEach (stamps : ℕ → Stamp) :
    List MaliciousFinding → Database → List (MaliciousFinding × String) × Database
  | [], db => ([], db)
  | mf :: findings, db =>
    match upsertMaliciousFinding (stamps 0) mf db with
    | .ok db' => upsertEach (fun i => stamps (i + 1)) findings db'
    | .error message =>
      let (errors, db') := upsertEach (fun i => stamps (i + 1)) findings db
      ((mf, message) :: errors, db')

/-! ## What the table holds afterwards -/

namespace MaliciousFinding

/-- The row a finding is stored as, but for the stamp. -/
def row (mf : MaliciousFinding) : Except String (Stamp → MaliciousRow) :=
  normalizeMaliciousFinding mf >>= NormalizedMaliciousFinding.row

/-- The row holds the finding. -/
def Holds (mf : MaliciousFinding) (row : MaliciousRow) : Prop :=
  ∃ make t, mf.row = .ok make ∧ make t = row

/-- The finding passes the checks, and the row of its id does not belong to another source. -/
def writable (db : Database) (mf : MaliciousFinding) : Bool :=
  mf.row.isOk && db.malicious.all fun row => row.id ≠ mf.id || row.source = mf.source

end MaliciousFinding

section

variable {mf : MaliciousFinding} {db db' : Database}

lemma normalizeMaliciousFinding_eq_ok {normalized : NormalizedMaliciousFinding}
    (h : normalizeMaliciousFinding mf = .ok normalized) :
    normalized.id = mf.id ∧ normalized.source = mf.source ∧
      normalized.ecosystem.val = toLower (trimSpace mf.ecosystem) ∧
      normalized.name = normalizePackageName (toLower (trimSpace mf.ecosystem)) mf.name ∧
      normalized.versionRanges = normalizeNullableJSON mf.versionRanges ∧
      normalized.versions = normalizeNullableJSON mf.versions := by
  simp only [normalizeMaliciousFinding, bind_eq_ok] at h
  obtain ⟨_, -, _, -, ecosystem, hstored, riskType, -, _, -, severity, -, h⟩ := h
  have hecosystem : ecosystem.val = toLower (trimSpace mf.ecosystem) := by
    rw [normalizeStoredEcosystem] at hstored
    split_ifs at hstored
    rw [← Except.ok.inj hstored]
  obtain rfl := Except.ok.inj h
  refine ⟨rfl, rfl, hecosystem, ?_, rfl, rfl⟩
  dsimp only
  rw [hecosystem]

lemma checkMaliciousOwner_eq_ok_iff {normalized : NormalizedMaliciousFinding} :
    checkMaliciousOwner normalized db = .ok () ↔
      ∀ row ∈ db.malicious, row.id = normalized.id → row.source = normalized.source := by
  rw [checkMaliciousOwner]
  cases h : db.malicious.find? fun row => row.id = normalized.id with
  | none =>
    have hnone : ∀ row ∈ db.malicious, row.id ≠ normalized.id := by simpa using h
    exact iff_of_true rfl fun row hrow hid => absurd hid (hnone row hrow)
  | some owner =>
    have howner : owner.id = normalized.id := by simpa using List.find?_some h
    have hmem := List.mem_of_find?_eq_some h
    dsimp only
    split_ifs with hsource
    · exact iff_of_false (fun h => by cases h) fun hall => hsource (hall owner hmem howner)
    · refine iff_of_true rfl fun row hrow hid => ?_
      rw [List.inj_on_of_nodup_map db.malicious_key hrow hmem (hid.trans howner.symm)]
      exact not_not.mp hsource

lemma writable_iff : mf.writable db = true ↔
    (∃ make, mf.row = .ok make) ∧ ∀ row ∈ db.malicious, row.id = mf.id → row.source = mf.source := by
  cases h : mf.row with
  | error message => simp [MaliciousFinding.writable, h, Except.isOk, Except.toBool]
  | ok make =>
    simp [MaliciousFinding.writable, h, Except.isOk, Except.toBool, imp_iff_not_or]

lemma writable_congr (h : db'.malicious = db.malicious) : mf.writable db' = mf.writable db := by
  rw [MaliciousFinding.writable, h]
  rfl

lemma upsertMaliciousFinding_eq_ok_iff {t : Stamp} :
    upsertMaliciousFinding t mf db = .ok db' ↔
      ∃ make, mf.row = .ok make ∧
        (∀ row ∈ db.malicious, row.id = mf.id → row.source = mf.source) ∧
          db' = db.upsertMalicious (make t) := by
  simp only [upsertMaliciousFinding, upsertNormalizedMaliciousFindingTx, MaliciousFinding.row,
    bind_eq_ok]
  constructor
  · rintro ⟨normalized, hnormalized, u, howner, make, hmake, hdb⟩
    obtain ⟨hid, hsource, -⟩ := normalizeMaliciousFinding_eq_ok hnormalized
    rw [checkMaliciousOwner_eq_ok_iff, hid, hsource] at howner
    exact ⟨make, ⟨normalized, hnormalized, hmake⟩, howner, (Except.ok.inj hdb).symm⟩
  · rintro ⟨make, ⟨normalized, hnormalized, hmake⟩, howner, rfl⟩
    obtain ⟨hid, hsource, -⟩ := normalizeMaliciousFinding_eq_ok hnormalized
    rw [← hid, ← hsource] at howner
    exact ⟨normalized, hnormalized, (), checkMaliciousOwner_eq_ok_iff.mpr howner, make, hmake, rfl⟩

lemma upsertMaliciousFinding_of_writable {t : Stamp} (h : mf.writable db = true) :
    ∃ row, mf.Holds row ∧ upsertMaliciousFinding t mf db = .ok (db.upsertMalicious row) := by
  obtain ⟨⟨make, hmake⟩, howner⟩ := writable_iff.mp h
  exact ⟨make t, ⟨make, t, hmake, rfl⟩,
    upsertMaliciousFinding_eq_ok_iff.mpr ⟨make, hmake, howner, rfl⟩⟩

lemma upsertMaliciousFinding_of_not_writable {t : Stamp} (h : mf.writable db = false) :
    ∃ message, upsertMaliciousFinding t mf db = .error message := by
  cases hresult : upsertMaliciousFinding t mf db with
  | error message => exact ⟨message, rfl⟩
  | ok db' =>
    obtain ⟨make, hmake, howner, -⟩ := upsertMaliciousFinding_eq_ok_iff.mp hresult
    rw [writable_iff.mpr ⟨⟨make, hmake⟩, howner⟩] at h
    cases h

lemma MaliciousFinding.Holds.columns {row : MaliciousRow} (h : mf.Holds row) :
    row.id = mf.id ∧ row.source = mf.source ∧ row.removedAt = none ∧
      row.ecosystem = toLower (trimSpace mf.ecosystem) ∧
      row.name = normalizePackageName (toLower (trimSpace mf.ecosystem)) mf.name ∧
      nullableJsonbColumn (normalizeNullableJSON mf.versionRanges) = .ok row.versionRanges ∧
      nullableJsonbColumn (normalizeNullableJSON mf.versions) = .ok row.versions := by
  obtain ⟨make, t, hmake, rfl⟩ := h
  rw [MaliciousFinding.row, bind_eq_ok] at hmake
  obtain ⟨normalized, hnormalized, hmake⟩ := hmake
  obtain ⟨hid, hsource, hecosystem, hname, hranges, hversions⟩ :=
    normalizeMaliciousFinding_eq_ok hnormalized
  simp only [NormalizedMaliciousFinding.row, bind_eq_ok, hranges, hversions] at hmake
  obtain ⟨ranges, hrangesColumn, versions, hversionsColumn, urls, -, hmake⟩ := hmake
  obtain rfl := Except.ok.inj hmake
  exact ⟨hid, hsource, rfl, hecosystem, hname, hrangesColumn, hversionsColumn⟩

/-- Storing a finding does not change who owns which id. -/
lemma writable_upsertMalicious {row : MaliciousRow} (hsource : row.source = mf.source)
    (howner : ∀ old ∈ db.malicious, old.id = row.id → old.source = row.source) :
    mf.writable (db.upsertMalicious row) = mf.writable db := by
  have hforeign : (∃ r ∈ (db.upsertMalicious row).malicious, r.id = mf.id ∧ r.source ≠ mf.source) ↔
      ∃ r ∈ db.malicious, r.id = mf.id ∧ r.source ≠ mf.source := by
    refine (Tables.exists_upsert_iff (fun _ _ _ => Iff.rfl) db.malicious_key).trans ?_
    constructor
    · rintro (⟨-, hne⟩ | ⟨r, hr, -, h⟩)
      · exact absurd hsource hne
      · exact ⟨r, hr, h⟩
    · rintro ⟨r, hr, hid, hne⟩
      refine Or.inr ⟨r, hr, fun hrow => hne ?_, hid, hne⟩
      rw [howner r hr hrow, hsource]
  rw [Bool.eq_iff_iff, writable_iff, writable_iff]
  refine and_congr_right fun _ => ?_
  rw [← not_iff_not]
  push Not
  exact hforeign

end

/-! ### One after another -/

/-- Store rows one after another. -/
def Database.upsertAllMalicious (rows : List MaliciousRow) (db : Database) : Database :=
  rows.foldl Database.upsertMalicious db

section

variable (rows : List MaliciousRow) (db : Database)

lemma Database.malicious_upsertAll :
    (db.upsertAllMalicious rows).malicious =
      Tables.upsertAll MaliciousRow.id (fun _ new => new) rows db.malicious := by
  induction rows generalizing db with
  | nil => rfl
  | cons row rows ih => exact ih (db.upsertMalicious row)

/-- The other tables stay. -/
lemma Database.upsertAllMalicious_frame :
    (db.upsertAllMalicious rows).vulnerabilities = db.vulnerabilities ∧
      (db.upsertAllMalicious rows).affectedPackages = db.affectedPackages ∧
      (db.upsertAllMalicious rows).vulnerabilitySources = db.vulnerabilitySources := by
  induction rows generalizing db with
  | nil => exact ⟨rfl, rfl, rfl⟩
  | cons row rows ih => exact ih (db.upsertMalicious row)

end

section

variable {stamps : ℕ → Stamp} {findings : List MaliciousFinding} {source : String} {db : Database}

/-- Of the findings of one source, those that are writable at first are stored, the others are
errors. -/
theorem upsertEach_spec (hsource : ∀ mf ∈ findings, mf.source = source) :
    (upsertEach stamps findings db).1.length = findings.countP (fun mf => !mf.writable db) ∧
      ∃ rows, List.Forall₂ MaliciousFinding.Holds (findings.filter (·.writable db)) rows ∧
        (upsertEach stamps findings db).2 = db.upsertAllMalicious rows := by
  induction findings generalizing stamps db with
  | nil => exact ⟨rfl, [], .nil, rfl⟩
  | cons mf findings ih =>
    obtain ⟨hmf, hfindings⟩ := List.forall_mem_cons.mp hsource
    cases h : mf.writable db with
    | false =>
      obtain ⟨message, herror⟩ := @upsertMaliciousFinding_of_not_writable mf db (stamps 0) h
      obtain ⟨herrors, rows, hrows, hdb⟩ := @ih (fun i => stamps (i + 1)) db hfindings
      rw [upsertEach, herror, List.countP_cons_of_pos (by simp [h]), List.filter_cons_of_neg (by simp [h])]
      exact ⟨congrArg (· + 1) herrors, rows, hrows, hdb⟩
    | true =>
      obtain ⟨row, hrow, hok⟩ := @upsertMaliciousFinding_of_writable mf db (stamps 0) h
      obtain ⟨hid, hrowSource, -⟩ := hrow.columns
      -- the row that is stored belongs to the source of the findings that follow
      have hkeep : ∀ other ∈ findings, other.writable (db.upsertMalicious row) = other.writable db := by
        intro other hother
        refine writable_upsertMalicious ?_ fun old hold hkey => ?_
        · rw [hrowSource, hmf, hfindings other hother]
        · rw [hrowSource]
          exact (writable_iff.mp h).2 old hold (hkey.trans hid)
      obtain ⟨herrors, rows, hrows, hdb⟩ :=
        @ih (fun i => stamps (i + 1)) (db.upsertMalicious row) hfindings
      rw [upsertEach, hok, List.countP_cons_of_neg (by simp [h]), List.filter_cons_of_pos h]
      rw [List.filter_congr hkeep] at hrows
      rw [List.countP_congr fun other hother => by rw [hkeep other hother]] at herrors
      exact ⟨herrors, row :: rows, .cons hrow hrows, hdb⟩

/-- A query finds the last writable finding of each id, and what the table held under other ids. -/
theorem exists_malicious_upsertEach_iff {Q : MaliciousRow → Prop} {P : MaliciousFinding → Prop}
    (hsource : ∀ mf ∈ findings, mf.source = source)
    (hQ : ∀ mf ∈ findings, ∀ row, mf.Holds row → (P mf ↔ Q row)) :
    (∃ row ∈ (upsertEach stamps findings db).2.malicious, Q row) ↔
      (∃ mf, Tables.IsLast MaliciousFinding.id mf (findings.filter (·.writable db)) ∧ P mf) ∨
        ∃ row ∈ db.malicious,
          row.id ∉ (findings.filter (·.writable db)).map MaliciousFinding.id ∧ Q row := by
  obtain ⟨-, rows, hrows, hdb⟩ := @upsertEach_spec stamps findings source db hsource
  have hid (mf : MaliciousFinding) (row : MaliciousRow) (h : mf.Holds row) : mf.id = row.id :=
    h.columns.1.symm
  rw [hdb, Database.malicious_upsertAll, Tables.exists_upsertAll_iff (fun _ _ _ => rfl)
    (fun _ _ _ => Iff.rfl) db.malicious_key, Tables.map_key_eq hrows hid]
  refine or_congr_left (Tables.exists_isLast_iff hrows hid fun mf hmf row hrow => ?_)
  exact hQ mf (List.mem_of_mem_filter hmf) row hrow

end

/-! ## Findings that list versions -/

/-- The finding has no ranges and lists versions; no list is an absent text. -/
def MaliciousFinding.Lists (versions : List String) (mf : MaliciousFinding) : Prop :=
  mf.versionRanges = "" ∧ mf.versions = if versions = [] then "" else versionsJSON versions

section

variable {mf : MaliciousFinding} {versions : List String} {row : MaliciousRow}

lemma MaliciousFinding.Lists.columns (hlists : mf.Lists versions) (h : mf.Holds row) :
    row.versionRanges = none ∧
      row.versions = if versions = [] then none else
        some (String.ofList (Json.Printer.spaced.render (.arr (versions.map .str)))) := by
  obtain ⟨-, -, -, -, -, hranges, hversions⟩ := h.columns
  rw [hlists.1] at hranges
  rw [hlists.2] at hversions
  refine ⟨(Except.ok.inj hranges).symm, ?_⟩
  split_ifs at hversions ⊢ with hnil
  · exact (Except.ok.inj hversions).symm
  · have hjsonb : (versions.map Json.str).map Json.jsonb = versions.map Json.str := by
      rw [List.map_map]
      exact List.map_congr_left fun s _ => Json.jsonb_str s
    rw [versionsJSON_of_ne_nil hnil, normalizeNullableJSON, trimSpace_render_arr,
      if_neg (not_or.mpr (render_arr_ne _ _)), nullableJsonbColumn, jsonbColumn, Json.jsonbText_render,
      Json.jsonb_arr, hjsonb] at hversions
    exact (Except.ok.inj hversions).symm

lemma MaliciousFinding.Lists.read (hlists : mf.Lists versions) (h : mf.Holds row) :
    readRanges (row.versionRanges.getD "") = some [] ∧
      readVersions (row.versions.getD "") = some versions := by
  obtain ⟨hranges, hversions⟩ := hlists.columns h
  rw [hranges, hversions]
  refine ⟨by decide, ?_⟩
  split_ifs with hnil
  · rw [hnil]
    decide
  · exact readVersions_render _ versions

/-- What a stored list of versions affects: no list is every version. -/
lemma MaliciousFinding.Lists.accepts_iff (hlists : mf.Lists versions) (h : mf.Holds row)
    (version ecosystem : String) :
    accepts version (row.versionRanges.getD "") (row.versions.getD "") ecosystem = true ↔
      versions = [] ∨ ∃ candidate ∈ versions, versionsEqual version candidate ecosystem = true := by
  rw [Version.accepts_iff, (hlists.read h).1, (hlists.read h).2]
  simp [Affected, or_comm]

end

end Packmon

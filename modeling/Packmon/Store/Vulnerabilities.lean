import Packmon.Library.Tables
import Packmon.Store.Constraints
import Packmon.Sync.Database

/-!
# Writing advisories

One transaction of the server stores an advisory (`upsertVulnerabilityTx`) or takes a source away from it
(`deleteVulnerabilityForSourceTx`).  A row is a new version with the stamp of the transaction only when a
column changes.  Affected packages are upserted by advisory, ecosystem and canonical name, one after
another: a later package of the same name replaces the constraints of an earlier one, and packages an
advisory no longer names stay.

Aliases, the exploit flag and the columns that only the statements below write are left out.
-/

namespace Packmon

open GoText Version

/-! ## What a feed hands over -/

structure VulnerabilitySource where
  source : String
  sourceID : String := ""
  url : String := ""
  rawJSON : String := ""

structure VulnerabilityReference where
  type : String := ""
  url : String
  source : String := ""

structure AffectedPackage where
  ecosystem : String
  name : String
  versionRanges : String := ""
  versionsAffected : String := ""

structure Vulnerability where
  id : String
  summary : String := ""
  details : String := ""
  severity : String := ""
  cvssScore : Option ℚ := none
  epssScore : Option ℚ := none
  epssPercentile : Option ℚ := none
  cisaKEV : Bool := false
  published : Time := 0
  modified : Time := 0
  withdrawn : Option Time := none
  sources : List VulnerabilitySource := []
  references : List VulnerabilityReference := []
  affectedPackages : List AffectedPackage := []

/-! ## Values the columns take -/

def nullableString (s : String) : Option String := if trimSpace s = "" then none else some s

def storedSeverityValid (severity : String) (allowUnknown : Bool) : Bool :=
  severity ∈ ["CRITICAL", "HIGH", "MEDIUM", "LOW"] || (severity = "UNKNOWN" && allowUnknown)

def normalizeVulnerabilitySeverity (severity : String) : Except String String :=
  let normalized := normalizeSeverity severity
  if normalized = "UNKNOWN" then .ok "LOW"
  else if storedSeverityValid normalized false then .ok normalized
  else .error ("unsupported vulnerability severity " ++ severity)

/-- A supported ecosystem. -/
abbrev StoredEcosystem := { ecosystem : String // ecosystem ∈ validEcosystems }

def normalizeStoredEcosystem (ecosystem : String) : Except String StoredEcosystem :=
  let normalized := toLower (trimSpace ecosystem)
  if h : normalized ∈ validEcosystems then .ok ⟨normalized, h⟩
  else .error ("unsupported ecosystem " ++ ecosystem)

def normalizeManualAdvisoryID (id : String) : Except String String :=
  let normalized := trimSpace id
  if "manual:".toList.isPrefixOf (toLower normalized).toList then .ok normalized
  else .error "manual advisory id must use manual: namespace"

def severityRank (severity : String) : ℕ :=
  match severity with
  | "CRITICAL" => 4
  | "HIGH" => 3
  | "MEDIUM" => 2
  | "LOW" => 1
  | _ => 0

/-! ## The rows of an advisory -/

def vulnerabilityRow (t : Stamp) (vuln : Vulnerability) (severity : String) : VulnerabilityRow where
  id := vuln.id
  summary := vuln.summary
  details := nullableString vuln.details
  severity := severity
  cvssScore := vuln.cvssScore
  epssScore := vuln.epssScore
  epssPercentile := vuln.epssPercentile
  cisaKEV := vuln.cisaKEV
  published := vuln.published
  modified := vuln.modified
  withdrawn := vuln.withdrawn
  stamp := t

/-- The columns an update sets; the stamp moves only when one of them changes. -/
def mergeVulnerability (old new : VulnerabilityRow) : VulnerabilityRow :=
  let merged : VulnerabilityRow :=
    { old with
      summary := if new.summary ≠ "" then new.summary else old.summary
      details := if new.details.getD "" ≠ "" then new.details else old.details
      severity := if severityRank old.severity < severityRank new.severity then new.severity
        else old.severity
      cvssScore := new.cvssScore.or old.cvssScore
      published := new.published
      modified := new.modified
      withdrawn := new.withdrawn }
  if merged = old then old else { merged with stamp := new.stamp }

def AffectedRow.key (row : AffectedRow) : String × String × String :=
  (row.vulnerabilityID, row.ecosystem, row.name)

/-- The constraints are replaced; the stamp moves only when they change. -/
def mergeAffected (old new : AffectedRow) : AffectedRow :=
  if old.versionRanges = new.versionRanges ∧ old.versionsAffected = new.versionsAffected then old
  else new

def VulnerabilitySourceRow.key (row : VulnerabilitySourceRow) : String × String :=
  (row.vulnerabilityID, row.source)

def mergeSource (old new : VulnerabilitySourceRow) : VulnerabilitySourceRow := { new with id := old.id }

def VulnerabilityReferenceRow.key (row : VulnerabilityReferenceRow) : String × String × String :=
  (row.vulnerabilityID, row.source, row.url)

def mergeReference (old new : VulnerabilityReferenceRow) : VulnerabilityReferenceRow :=
  { new with id := old.id }

/-- A row for the affected packages of an advisory. -/
abbrev StoredPackage (id : String) :=
  { row : AffectedRow // row.vulnerabilityID = id ∧ row.ecosystem ∈ validEcosystems }

/-- The row of an affected package, once its ecosystem and its constraints pass the checks. -/
def storedPackage (t : Stamp) (id : String) (pkg : AffectedPackage) :
    Except String (StoredPackage id) := do
  let ecosystem ← normalizeStoredEcosystem pkg.ecosystem
  let name := normalizePackageName ecosystem pkg.name
  let versionRanges := coalesceStoredJSONArray pkg.versionRanges
  let versionsAffected := coalesceStoredJSONArray pkg.versionsAffected
  let failure := "insert affected package " ++ ecosystem ++ "/" ++ name ++ ": "
  (validateStoredVersionRangesJSON id "version_ranges" versionRanges false).mapError (failure ++ ·)
  (validateStoredStringArrayJSON id "versions_affected" versionsAffected false).mapError
    (failure ++ ·)
  match Json.jsonbText versionRanges, Json.jsonbText versionsAffected with
  | some ranges, some versions =>
    .ok ⟨{ vulnerabilityID := id, ecosystem, name, versionRanges := ranges,
           versionsAffected := versions, stamp := t }, rfl, ecosystem.2⟩
  | _, _ => .error (failure ++ "invalid input syntax for type json")

/-- The next id of a table, above all that are there. -/
def nextID (ids : List ℕ) : ℕ := ids.foldr max 0 + 1

def sourceRows (vuln : Vulnerability) (next : ℕ) : List VulnerabilitySourceRow :=
  vuln.sources.zipIdx.map fun (source, i) =>
    { id := next + i, vulnerabilityID := vuln.id, source := source.source,
      sourceID := source.sourceID, url := nullableString source.url,
      rawJSON := if source.rawJSON = "" then none else Json.jsonbText source.rawJSON }

def vulnerabilityReferenceSources (vuln : Vulnerability) : List String :=
  (((vuln.sources.map fun source => trimSpace source.source) ++
    vuln.references.map fun ref => trimSpace ref.source).filter (· ≠ "")).dedup

def vulnerabilityReferenceSource (vuln : Vulnerability) (ref : VulnerabilityReference) : String :=
  if trimSpace ref.source ≠ "" then trimSpace ref.source
  else
    match vuln.sources with
    | [source] => trimSpace source.source
    | _ => ""

def referenceRows (shouldStore : String → Bool) (vuln : Vulnerability) (next : ℕ) :
    List VulnerabilityReferenceRow :=
  (vuln.references.filter fun ref => shouldStore ref.url).zipIdx.map fun (ref, i) =>
    { id := next + i, vulnerabilityID := vuln.id, type := nullableString ref.type, url := ref.url,
      source := vulnerabilityReferenceSource vuln ref }

/-! ## The statements -/

lemma mergeVulnerability_id (old new : VulnerabilityRow) : (mergeVulnerability old new).id = old.id := by
  rw [mergeVulnerability]
  split_ifs <;> rfl

/-- An advisory is withdrawn or not as the last report of it. -/
lemma mergeVulnerability_withdrawn (old new : VulnerabilityRow) :
    (mergeVulnerability old new).withdrawn = new.withdrawn := by
  unfold mergeVulnerability
  extract_lets merged
  by_cases h : merged = old
  · have hwithdrawn : merged.withdrawn = old.withdrawn := by rw [h]
    rw [if_pos h, ← hwithdrawn]
  · rw [if_neg h]

lemma mergeAffected_key {old new : AffectedRow} (h : old.key = new.key) :
    (mergeAffected old new).key = new.key := by
  rw [mergeAffected]
  split_ifs
  · exact h
  · rfl

section

variable (t : Stamp) (shouldStore : String → Bool) (vuln : Vulnerability) (severity : String)
  (packages : List (StoredPackage vuln.id)) (db : Database)

/-- The advisories with the new or changed one. -/
def Database.vulnerabilitiesWith : List VulnerabilityRow :=
  Tables.upsert VulnerabilityRow.id mergeVulnerability (vulnerabilityRow t vuln severity)
    db.vulnerabilities

lemma Database.map_id_vulnerabilitiesWith :
    (db.vulnerabilitiesWith t vuln severity).map VulnerabilityRow.id =
      if vuln.id ∈ db.vulnerabilities.map VulnerabilityRow.id then
        db.vulnerabilities.map VulnerabilityRow.id
      else db.vulnerabilities.map VulnerabilityRow.id ++ [vuln.id] :=
  Tables.map_key_upsert fun old new h => (mergeVulnerability_id old new).trans h

lemma Database.exists_vulnerabilitiesWith {id : String}
    (h : id = vuln.id ∨ ∃ v ∈ db.vulnerabilities, v.id = id) :
    ∃ v ∈ db.vulnerabilitiesWith t vuln severity, v.id = id := by
  have hmem : id ∈ (db.vulnerabilitiesWith t vuln severity).map VulnerabilityRow.id := by
    rw [Database.map_id_vulnerabilitiesWith]
    rcases h with rfl | ⟨v, hv, rfl⟩
    · split_ifs with hold
      · exact hold
      · simp
    · have hold := List.mem_map_of_mem (f := VulnerabilityRow.id) hv
      split_ifs
      · exact hold
      · exact List.mem_append_left _ hold
  simpa using hmem

/-- Store an advisory whose values have passed the checks. -/
def Database.upsertVulnerability : Database :=
  { db with
    vulnerabilities := db.vulnerabilitiesWith t vuln severity
    vulnerabilitySources := Tables.upsertAll VulnerabilitySourceRow.key mergeSource
      (sourceRows vuln (nextID (db.vulnerabilitySources.map VulnerabilitySourceRow.id)))
      db.vulnerabilitySources
    vulnerabilityReferences := Tables.upsertAll VulnerabilityReferenceRow.key mergeReference
      (referenceRows shouldStore vuln
        (nextID (db.vulnerabilityReferences.map VulnerabilityReferenceRow.id)))
      (db.vulnerabilityReferences.filter fun ref =>
        ¬(ref.vulnerabilityID = vuln.id ∧ ref.source ∈ vulnerabilityReferenceSources vuln))
    affectedPackages := Tables.upsertAll AffectedRow.key mergeAffected (packages.map Subtype.val)
      db.affectedPackages
    vulnerabilities_key := Tables.nodup_upsert
      (fun old new h => (mergeVulnerability_id old new).trans h) db.vulnerabilities_key
    affected_key := Tables.nodup_upsertAll (fun _ _ h => mergeAffected_key h) db.affected_key
    affected_vulnerability := by
      refine Tables.forall_mem_upsertAll (fun row hrow => ?_) (fun old hold new hnew hkey => ?_)
        fun row hrow => ?_
      · obtain ⟨pkg, -, rfl⟩ := List.mem_map.mp hrow
        exact db.exists_vulnerabilitiesWith t vuln severity (Or.inl pkg.2.1)
      · rw [mergeAffected]
        split_ifs
        · exact hold
        · exact hnew
      · exact db.exists_vulnerabilitiesWith t vuln severity
          (Or.inr (db.affected_vulnerability row hrow))
    affected_ecosystem := by
      refine Tables.forall_mem_upsertAll (fun row hrow => ?_) (fun old hold new hnew hkey => ?_)
        db.affected_ecosystem
      · obtain ⟨pkg, -, rfl⟩ := List.mem_map.mp hrow
        exact pkg.2.2
      · rw [mergeAffected]
        split_ifs
        · exact hold
        · exact hnew }

/-- An id of a manual advisory is in its own name space. -/
def checkManualSource (source : VulnerabilitySource) : Except String Unit := do
  if equalFold (trimSpace source.source) "manual" then
    let _ ← normalizeManualAdvisoryID vuln.id
    let _ ← normalizeManualAdvisoryID source.sourceID

/-- Store an advisory in one transaction; an error leaves nothing behind. -/
def upsertVulnerabilityTx : Except String Database := do
  let severity ← normalizeVulnerabilitySeverity vuln.severity
  vuln.sources.forM (checkManualSource vuln)
  let packages ← vuln.affectedPackages.mapM (storedPackage t vuln.id)
  return db.upsertVulnerability t shouldStore vuln severity packages

end

/-! ## Taking a source away -/

section

variable (t : Stamp) (id source : String) (db : Database)

/-- The sources without one of an advisory. -/
def Database.sourcesWithout : List VulnerabilitySourceRow :=
  db.vulnerabilitySources.filter fun row => ¬(row.vulnerabilityID = id ∧ row.source = source)

/-- An advisory that no source reports any more is withdrawn. -/
def withdrawUnreported (sources : List VulnerabilitySourceRow) (v : VulnerabilityRow) :
    VulnerabilityRow :=
  if v.id = id ∧ v.withdrawn = none ∧ ∀ row ∈ sources, row.vulnerabilityID ≠ id then
    { v with withdrawn := some t.updatedAt, stamp := t }
  else v

lemma withdrawUnreported_id (sources : List VulnerabilitySourceRow) (v : VulnerabilityRow) :
    (withdrawUnreported t id sources v).id = v.id := by
  rw [withdrawUnreported]
  split_ifs <;> rfl

lemma withdrawUnreported_withdrawn (sources : List VulnerabilitySourceRow) (v : VulnerabilityRow) :
    (withdrawUnreported t id sources v).withdrawn = none ↔
      v.withdrawn = none ∧ (v.id = id → ∃ row ∈ sources, row.vulnerabilityID = id) := by
  rw [withdrawUnreported]
  split_ifs with h
  · obtain ⟨hid, -, hnone⟩ := h
    refine iff_of_false (fun h => by cases h) ?_
    rintro ⟨-, hsome⟩
    obtain ⟨row, hrow, hrowID⟩ := hsome hid
    exact hnone row hrow hrowID
  · refine ⟨fun hactive => ⟨hactive, fun hid => ?_⟩, And.left⟩
    by_contra hnone
    push Not at hnone
    exact h ⟨hid, hactive, hnone⟩

lemma map_id_withdrawUnreported (sources : List VulnerabilitySourceRow) (rows : List VulnerabilityRow) :
    (rows.map (withdrawUnreported t id sources)).map VulnerabilityRow.id =
      rows.map VulnerabilityRow.id := by
  rw [List.map_map]
  exact List.map_congr_left fun v _ => withdrawUnreported_id t id sources v

def Database.deleteSource : Database :=
  { db with
    vulnerabilities := db.vulnerabilities.map (withdrawUnreported t id (db.sourcesWithout id source))
    vulnerabilitySources := db.sourcesWithout id source
    vulnerabilities_key := by
      rw [map_id_withdrawUnreported]
      exact db.vulnerabilities_key
    affected_vulnerability := by
      intro a ha
      obtain ⟨v, hv, hid⟩ := db.affected_vulnerability a ha
      refine ⟨withdrawUnreported t id (db.sourcesWithout id source) v, List.mem_map_of_mem hv, ?_⟩
      rw [withdrawUnreported_id, hid] }

/-- Take a source away from an advisory; one that is not there is left alone. -/
def deleteVulnerabilityForSourceTx : Except String Database :=
  if trimSpace source = "" then
    .error "postgres: source-scoped vulnerability delete requires source"
  else if ∃ v ∈ db.vulnerabilities, v.id = id then .ok (db.deleteSource t id (trimSpace source))
  else .ok db

end

end Packmon

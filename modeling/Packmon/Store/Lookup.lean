import Packmon.Store.Coverage
import Packmon.Store.Malicious

/-!
# What a check of a package version reports

The two lookups of the server, by ecosystem and canonical name.  What they report changes with a write as
the lemmas of the second half say.
-/

namespace Packmon

open GoText Version

inductive FindingType where
  | vulnerability | malicious | supplyChainRisk
  deriving DecidableEq

/-- What a check reports; its links and the fixed version are left out. -/
structure Finding where
  name : String
  version : String
  ecosystem : String
  type : FindingType
  severity : String
  advisoryID : String
  title : String
  riskType : String := ""
  source : String
  deriving DecidableEq

lemma ne_nil_iff_exists_mem {findings : List Finding} : findings ≠ [] ↔ ∃ f, f ∈ findings :=
  ⟨List.exists_mem_of_ne_nil findings, fun ⟨_, h⟩ => List.ne_nil_of_mem h⟩

/-! ## Advisories -/

/-- The source of an advisory that was stored first. -/
def Database.reportedSource (db : Database) (id : String) : String :=
  match ((db.vulnerabilitySources.filter fun s => s.vulnerabilityID = id).insertionSort
      fun a b => a.id ≤ b.id).head? with
  | some s => if s.source = "" then "unknown" else s.source
  | none => "unknown"

/-- The advisories of a package version, in no particular order; one whose constraints cannot be read
is among them. -/
def Database.findVulnerabilities (db : Database) (ecosystem name version : String) : List Finding :=
  (db.vulnerabilities.filter fun v => v.withdrawn = none).flatMap fun v =>
    (db.affectedPackages.filter fun row =>
      row.key = (v.id, ecosystem, normalizePackageName ecosystem name) ∧
        (version = "" ∨ (versionAffectedWithEcosystem version row.versionRanges row.versionsAffected
          ecosystem).getD true = true)).map fun _ =>
      { name := normalizePackageName ecosystem name
        version
        ecosystem
        type := .vulnerability
        severity := normalizeSeverity v.severity
        advisoryID := v.id
        title := if v.summary = "" then v.id else v.summary
        source := db.reportedSource v.id }

/-- The advisory is reported for the package version. -/
def ReportsAdvisory (db : Database) (id ecosystem name version : String) : Prop :=
  (∃ v ∈ db.vulnerabilities, v.id = id ∧ v.withdrawn = none) ∧
    ∃ row ∈ db.affectedPackages, row.key = (id, ecosystem, name) ∧
      (version = "" ∨ accepts version row.versionRanges row.versionsAffected ecosystem = true)

lemma findVulnerabilities_ne_nil_iff {db : Database} {ecosystem name version : String} :
    db.findVulnerabilities ecosystem name version ≠ [] ↔
      ∃ id, ReportsAdvisory db id ecosystem (normalizePackageName ecosystem name) version := by
  rw [Database.findVulnerabilities, ne_nil_iff_exists_mem]
  simp only [getD_versionAffectedWithEcosystem, List.mem_flatMap, List.mem_map, List.mem_filter,
    decide_eq_true_eq]
  constructor
  · rintro ⟨finding, v, ⟨hv, hactive⟩, row, ⟨hrow, hkey, haffected⟩, -⟩
    exact ⟨v.id, ⟨v, hv, rfl, hactive⟩, row, hrow, hkey, haffected⟩
  · rintro ⟨id, ⟨v, hv, rfl, hactive⟩, row, hrow, hkey, haffected⟩
    exact ⟨_, v, ⟨hv, hactive⟩, row, ⟨hrow, hkey, haffected⟩, rfl⟩

/-! ## Malicious findings -/

def findingTypeForMaliciousRiskType (riskType : String) : FindingType :=
  if toLower (trimSpace riskType) = "supply_chain" ∨ toLower (trimSpace riskType) = "typosquatting" then
    .supplyChainRisk
  else .malicious

def maliciousFindingAffectsVersion (ecosystem version rangesJSON versionsJSON : String) : Bool :=
  trimSpace version = "" ||
    (versionAffectedWithEcosystem version rangesJSON versionsJSON ecosystem).getD true

/-- The findings of a package version, in no particular order. -/
def Database.findMalicious (db : Database) (ecosystem name version : String) : List Finding :=
  (db.malicious.filter fun row =>
    row.ecosystem = ecosystem ∧ row.name = normalizePackageName ecosystem name ∧
      row.removedAt = none ∧
        maliciousFindingAffectsVersion ecosystem version (row.versionRanges.getD "")
          (row.versions.getD "") = true).map fun row =>
    { name := normalizePackageName ecosystem name
      version
      ecosystem
      type := findingTypeForMaliciousRiskType row.riskType
      severity := normalizeSeverity row.severity
      advisoryID := row.id
      title := if row.summary = "" then
          "malicious package: " ++ normalizePackageName ecosystem name ++ " (" ++ row.riskType ++ ")"
        else row.summary
      riskType := row.riskType
      source := if row.source = "" then "unknown" else row.source }

/-- A row that is active and affects the package version. -/
def MaliciousRow.Affects (ecosystem name version : String) (row : MaliciousRow) : Prop :=
  row.removedAt = none ∧ row.ecosystem = ecosystem ∧ row.name = name ∧
    (trimSpace version = "" ∨
      accepts version (row.versionRanges.getD "") (row.versions.getD "") ecosystem = true)

lemma findMalicious_ne_nil_iff {db : Database} {ecosystem name version : String} :
    db.findMalicious ecosystem name version ≠ [] ↔
      ∃ row ∈ db.malicious, row.Affects ecosystem (normalizePackageName ecosystem name) version := by
  rw [Database.findMalicious, ne_nil_iff_exists_mem]
  simp only [maliciousFindingAffectsVersion, getD_versionAffectedWithEcosystem, List.mem_map,
    List.mem_filter, decide_eq_true_eq, Bool.or_eq_true]
  constructor
  · rintro ⟨finding, row, ⟨hrow, hecosystem, hname, hactive, haffected⟩, -⟩
    exact ⟨row, hrow, hactive, hecosystem, hname, haffected⟩
  · rintro ⟨row, hrow, hactive, hecosystem, hname, haffected⟩
    exact ⟨_, row, ⟨hrow, hecosystem, hname, hactive, haffected⟩, rfl⟩

/-! ## After a write -/

section

variable {t : Stamp} {shouldStore : String → Bool} {vuln : Vulnerability} {db db' : Database}
  {id ecosystem name version : String}

lemma exists_sourcesWithout_iff {source : String} :
    (∃ row ∈ db.sourcesWithout id source, row.vulnerabilityID = id) ↔
      ∃ row ∈ db.vulnerabilitySources, row.vulnerabilityID = id ∧ row.source ≠ source := by
  simp only [Database.sourcesWithout, List.mem_filter, decide_eq_true_eq, not_and]
  constructor
  · rintro ⟨row, ⟨hrow, hsource⟩, hid⟩
    exact ⟨row, hrow, hid, hsource hid⟩
  · rintro ⟨row, hrow, hid, hsource⟩
    exact ⟨row, ⟨hrow, fun _ => hsource⟩, hid⟩

/-- An advisory that loses a source stays active when another source is left. -/
lemma exists_active_deleteSource_iff {other source : String} :
    (∃ v ∈ (db.deleteSource t id source).vulnerabilities, v.id = other ∧ v.withdrawn = none) ↔
      (∃ v ∈ db.vulnerabilities, v.id = other ∧ v.withdrawn = none) ∧
        (other = id →
          ∃ row ∈ db.vulnerabilitySources, row.vulnerabilityID = id ∧ row.source ≠ source) := by
  simp only [Database.deleteSource, List.mem_map, exists_exists_and_eq_and, withdrawUnreported_id,
    withdrawUnreported_withdrawn, exists_sourcesWithout_iff]
  constructor
  · rintro ⟨v, hv, rfl, hnone, hleft⟩
    exact ⟨⟨v, hv, rfl, hnone⟩, hleft⟩
  · rintro ⟨⟨v, hv, rfl, hnone⟩, hleft⟩
    exact ⟨v, hv, rfl, hnone, hleft⟩

/-- An advisory that loses a source is still reported when another source is left. -/
lemma reportsAdvisory_deleteSource_iff {other source : String} :
    ReportsAdvisory (db.deleteSource t id source) other ecosystem name version ↔
      ReportsAdvisory db other ecosystem name version ∧
        (other = id →
          ∃ row ∈ db.vulnerabilitySources, row.vulnerabilityID = id ∧ row.source ≠ source) := by
  rw [ReportsAdvisory, exists_active_deleteSource_iff, and_right_comm]
  rfl

/-- Findings do not change which advisories are reported. -/
lemma reportsAdvisory_upsertAllMalicious_iff {other : String} {rows : List MaliciousRow} :
    ReportsAdvisory (db.upsertAllMalicious rows) other ecosystem name version ↔
      ReportsAdvisory db other ecosystem name version := by
  obtain ⟨hvulnerabilities, haffected, -⟩ := db.upsertAllMalicious_frame rows
  rw [ReportsAdvisory, hvulnerabilities, haffected]
  rfl

/-- Which advisories are active after one is stored. -/
lemma exists_active_upsert_iff {other : String}
    (h : upsertVulnerabilityTx t shouldStore vuln db = .ok db') :
    (∃ v ∈ db'.vulnerabilities, v.id = other ∧ v.withdrawn = none) ↔
      (vuln.id = other ∧ vuln.withdrawn = none) ∨
        (other ≠ vuln.id ∧ ∃ v ∈ db.vulnerabilities, v.id = other ∧ v.withdrawn = none) := by
  obtain ⟨severity, packages, -, rfl⟩ := upsertVulnerabilityTx_eq_ok h
  refine (Tables.exists_upsert_iff (fun old new hid => ?_) db.vulnerabilities_key).trans ?_
  · rw [mergeVulnerability_id, mergeVulnerability_withdrawn, hid]
  · refine or_congr_right ?_
    constructor
    · rintro ⟨v, hv, hne, rfl, hnone⟩
      exact ⟨hne, v, hv, rfl, hnone⟩
    · rintro ⟨hne, v, hv, rfl, hnone⟩
      exact ⟨v, hv, hne, rfl, hnone⟩

/-- After an advisory is stored, it is reported by its last package of that key, and the others as
before. -/
lemma reportsAdvisory_upsert_iff {other : String}
    (h : upsertVulnerabilityTx t shouldStore vuln db = .ok db')
    (hprinted : ∀ pkg ∈ vuln.affectedPackages, pkg.Printed)
    (hnamed : ∃ pkg ∈ vuln.affectedPackages, pkg.key vuln.id = (vuln.id, ecosystem, name)) :
    ReportsAdvisory db' other ecosystem name version ↔
      (other = vuln.id ∧ vuln.withdrawn = none ∧
        ∃ pkg, Tables.IsLast (AffectedPackage.key vuln.id) pkg vuln.affectedPackages ∧
          pkg.key vuln.id = (vuln.id, ecosystem, name) ∧
            (version = "" ∨ pkg.Accepts ecosystem version)) ∨
      (other ≠ vuln.id ∧ ReportsAdvisory db other ecosystem name version) := by
  have hrows := exists_affected_upsert_iff h (other, ecosystem, name)
    (P := fun pkg => version = "" ∨ pkg.Accepts ecosystem version)
    (Q := fun row => version = "" ∨
      accepts version row.versionRanges row.versionsAffected ecosystem = true)
    (fun old new => by rw [accepts_mergeAffected])
    fun pkg hpkg row hrow => by
      rw [AffectedPackage.Accepts, accepts_storedPackage (hprinted pkg hpkg) hrow]
  have hkeyID {pkg : AffectedPackage} (hkey : pkg.key vuln.id = (other, ecosystem, name)) :
      other = vuln.id := (congrArg Prod.fst hkey).symm
  rw [ReportsAdvisory, exists_active_upsert_iff h, hrows]
  by_cases hother : other = vuln.id
  · subst hother
    obtain ⟨pkg, hpkg, hkey⟩ := hnamed
    have hnot : ¬∀ pkg ∈ vuln.affectedPackages, pkg.key vuln.id ≠ (vuln.id, ecosystem, name) :=
      fun hall => hall pkg hpkg hkey
    simp only [true_and, ne_eq, not_true_eq_false, false_and, or_false, hnot]
  · have hnone (P : AffectedPackage → Prop) :
        ¬∃ pkg, Tables.IsLast (AffectedPackage.key vuln.id) pkg vuln.affectedPackages ∧
          pkg.key vuln.id = (other, ecosystem, name) ∧ P pkg := by
      rintro ⟨_, -, hkey, -⟩
      exact hother (hkeyID hkey)
    have hall : ∀ pkg ∈ vuln.affectedPackages, pkg.key vuln.id ≠ (other, ecosystem, name) :=
      fun _ _ hkey => hother (hkeyID hkey)
    rw [and_iff_right hall]
    simp only [Ne.symm hother, hother, hnone, false_and, false_or, ne_eq, not_false_eq_true, true_and]
    rfl

end

end Packmon

import Packmon.Feed.Coverage
import Packmon.Local.Lookup
import Packmon.Store.Lookup
import Packmon.Version.Walk

/-!
# Entries of the OSV feed that flag malicious packages

An entry with a flagged element takes its advisory away and becomes a finding for each flagged element:
the ranges of the element shrink to the versions they start with, and elements without a flag are lost.
-/

namespace Packmon.Feed.Osv

open GoText Version

/-! ## The findings of an entry -/

section

variable {entry : OsvEntry} {mf : MaliciousFinding}

lemma mem_mapToMaliciousFindings :
    mf ∈ mapToMaliciousFindings entry ↔
      ∃ aff i ecosystem, (aff, i) ∈ entry.affected.zipIdx ∧ affectedHasMaliciousCategory aff = true ∧
        ecosystemOf aff = some ecosystem ∧ maliciousFinding entry aff i ecosystem = mf := by
  simp only [mapToMaliciousFindings, List.mem_filterMap, Prod.exists]
  refine exists_congr fun aff => exists_congr fun i => ?_
  by_cases hflag : affectedHasMaliciousCategory aff = true
  · simp [hflag]
  · simp [hflag]

lemma source_of_mem_findings : ∀ mf ∈ mapToMaliciousFindings entry, mf.source = feedName := by
  intro mf h
  obtain ⟨aff, i, ecosystem, -, -, -, rfl⟩ := mem_mapToMaliciousFindings.mp h
  rfl

lemma findingID_injective : Function.Injective (findingID entry) := by
  have hne (i : ℕ) (suffix : String) : entry.id ++ "-" ++ suffix ≠ entry.id := by
    intro h
    have hlength := congrArg String.length h
    simp only [String.length_append] at hlength
    have hone : "-".length = 1 := by decide
    omega
  intro i j h
  rcases Nat.eq_zero_or_pos i with rfl | hi <;> rcases Nat.eq_zero_or_pos j with rfl | hj
  · rfl
  · rw [findingID, findingID, if_neg (lt_irrefl 0), if_pos hj] at h
    exact absurd h.symm (hne j _)
  · rw [findingID, findingID, if_neg (lt_irrefl 0), if_pos hi] at h
    exact absurd h (hne i _)
  · rw [findingID, findingID, if_pos hi, if_pos hj] at h
    have hlist := congrArg String.toList h
    simp only [String.toList_append] at hlist
    exact itoa_injective (String.toList_inj.mp (List.append_cancel_left hlist))

/-- The findings of an entry have ids of their own. -/
lemma nodup_findings : ((mapToMaliciousFindings entry).map MaliciousFinding.id).Nodup := by
  have hsublist : List.Sublist ((mapToMaliciousFindings entry).map MaliciousFinding.id)
      (entry.affected.zipIdx.map fun p => findingID entry p.2) := by
    rw [mapToMaliciousFindings, List.map_filterMap]
    refine Tables.filterMap_sublist_map _ fun p id h => ?_
    obtain ⟨mf, hmf, rfl⟩ := Option.map_eq_some_iff.mp h
    dsimp only at hmf
    split_ifs at hmf
    obtain ⟨ecosystem, -, rfl⟩ := Option.map_eq_some_iff.mp hmf
    rfl
  refine hsublist.nodup ?_
  have hpositions : (entry.affected.zipIdx.map Prod.snd).Nodup := by
    rw [List.zipIdx_map_snd]
    exact List.nodup_range'
  have hmap := hpositions.map (@findingID_injective entry)
  rwa [List.map_map] at hmap

lemma lists_maliciousFinding (entry : OsvEntry) (aff : OsvAffected) (i : ℕ) (ecosystem : String) :
    (maliciousFinding entry aff i ecosystem).Lists (maliciousVersionList aff) :=
  ⟨rfl, rfl⟩

end

/-! ## Taking the advisory away -/

section

variable {t : Stamp} {id : String} {db : Database}

/-- Taking the feed's source away never fails. -/
lemma exists_deleteVulnerability (t : Stamp) (id : String) (db : Database) :
    ∃ db', deleteVulnerabilityForSourceTx t id feedName db = .ok db' := by
  have hname : trimSpace feedName ≠ "" := by decide
  rw [deleteVulnerabilityForSourceTx, if_neg hname]
  split_ifs
  · exact ⟨_, rfl⟩
  · exact ⟨_, rfl⟩

/-- The advisories that do not depend on the feed: others, or this one with another source. -/
def ReportsWithoutFeed (db : Database) (id ecosystem name version : String) : Prop :=
  ∃ other, ReportsAdvisory db other ecosystem name version ∧
    (other = id → ∃ row ∈ db.vulnerabilitySources, row.vulnerabilityID = id ∧ row.source ≠ feedName)

variable {db' : Database} {ecosystem name version : String}
  (h : deleteVulnerabilityForSourceTx t id feedName db = .ok db')

include h

lemma deleteVulnerability_eq :
    (∃ v ∈ db.vulnerabilities, v.id = id) ∧ db' = db.deleteSource t id feedName ∨
      (¬∃ v ∈ db.vulnerabilities, v.id = id) ∧ db' = db := by
  have hname : trimSpace feedName = feedName := by decide
  have hne : feedName ≠ "" := by decide
  rw [deleteVulnerabilityForSourceTx, hname, if_neg hne] at h
  split_ifs at h with hid
  · exact Or.inl ⟨hid, (Except.ok.inj h).symm⟩
  · exact Or.inr ⟨hid, (Except.ok.inj h).symm⟩

lemma malicious_deleteVulnerability : db'.malicious = db.malicious := by
  rcases deleteVulnerability_eq h with ⟨-, rfl⟩ | ⟨-, rfl⟩
  · rfl
  · rfl

lemma exists_reportsAdvisory_delete_iff :
    (∃ other, ReportsAdvisory db' other ecosystem name version) ↔
      ReportsWithoutFeed db id ecosystem name version := by
  refine exists_congr fun other => ?_
  rcases deleteVulnerability_eq h with ⟨-, rfl⟩ | ⟨hid, rfl⟩
  · exact reportsAdvisory_deleteSource_iff
  · refine ⟨fun hreports => ⟨hreports, ?_⟩, And.left⟩
    rintro rfl
    obtain ⟨⟨v, hv, hvid, -⟩, -⟩ := hreports
    exact absurd ⟨v, hv, hvid⟩ hid

end

/-! ## Which versions an entry keeps -/

/-- The row is active and makes the local store report the package version. -/
def ReportedLocally (ecosystem name version : String) (row : MaliciousRow) : Prop :=
  row.removedAt = none ∧ row.ecosystem = ecosystem ∧ row.name = name ∧
    Local.localMaliciousAffectsVersion row.id ecosystem version (row.versionRanges.getD "")
      (row.versions.getD "") = .ok true

/-- The package version is reported as malicious or as vulnerable. -/
def StoreReports (db : Database) (ecosystem name version : String) : Prop :=
  (∃ row ∈ db.malicious,
      ReportedLocally ecosystem (normalizePackageName ecosystem name) version row) ∨
    db.findVulnerabilities ecosystem name version ≠ []

/-- The version is listed by the element, or inside one of its ranges. -/
def CoveredBy (aff : OsvAffected) (ecosystem version : String) : Prop :=
  (∃ candidate ∈ aff.versions, versionsEqual version candidate ecosystem = true) ∨
    Packmon.Version.OsvAffected version ecosystem aff.ranges

section

variable (platform : Platform) (t : Stamp) (entry : OsvEntry) (rawJSON : String) (db : Database)
  (ecosystem name version : String)

/-- A flagged element for the package, whose finding can be written, lists no version at all or the
version; or a row that no finding replaces reports it. -/
def KeptByFindings : Prop :=
  (∃ aff i, (aff, i) ∈ entry.affected.zipIdx ∧ affectedHasMaliciousCategory aff = true ∧
      ecosystemOf aff = some ecosystem ∧ normalizePackageName ecosystem aff.name = name ∧
      (maliciousFinding entry aff i ecosystem).writable db = true ∧
      (trimSpace version = "" ∨ maliciousVersionList aff = [] ∨
        ∃ candidate ∈ maliciousVersionList aff, versionsEqual version candidate ecosystem = true)) ∨
    ∃ row ∈ db.malicious,
      (∀ mf ∈ mapToMaliciousFindings entry, mf.writable db = true → mf.id ≠ row.id) ∧
        ReportedLocally ecosystem name version row

/-- The advisory is stored and its last package of that name makes the version affected, or another
advisory does; or the advisory is not stored and one that was there does. -/
def KeptByAdvisory : Prop :=
  let vuln := mapToVulnerability platform entry rawJSON
  (AllStorable t vuln ∧
    ((vuln.withdrawn = none ∧
        ∃ pkg, Tables.IsLast (AffectedPackage.key vuln.id) pkg vuln.affectedPackages ∧
          pkg.key vuln.id = (vuln.id, ecosystem, name) ∧
            (version = "" ∨ pkg.Accepts ecosystem version)) ∨
      ∃ other, other ≠ vuln.id ∧ ReportsAdvisory db other ecosystem name version)) ∨
  (¬AllStorable t vuln ∧ ∃ other, ReportsAdvisory db other ecosystem name version)

/-- What is left of the coverage of a package version, by the way the entry is taken. -/
def KeptByEntry : Prop :=
  if isMaliciousPackageEntry entry then
    (∃ row ∈ db.malicious, ReportedLocally ecosystem name version row) ∨
      ∃ other, ReportsAdvisory db other ecosystem name version
  else if isWithdrawn entry then
    (∃ row ∈ db.malicious, ReportedLocally ecosystem name version row) ∨
      ReportsWithoutFeed db entry.id ecosystem name version
  else
    match mapToMaliciousFindings entry with
    | [] =>
      (∃ row ∈ db.malicious, ReportedLocally ecosystem name version row) ∨
        KeptByAdvisory platform t entry rawJSON db ecosystem name version
    | _ =>
      KeptByFindings entry db ecosystem name version ∨
        ReportsWithoutFeed db entry.id ecosystem name version

end

section

variable {platform : Platform} {stamps : ℕ → Stamp} {entry : OsvEntry} {rawJSON : String}
  {db : Database} {ecosystem name version : String}

lemma holds_reportedLocally_iff {aff : OsvAffected} {i : ℕ} {elementEcosystem : String}
    {row : MaliciousRow} (hecosystem : ecosystemOf aff = some elementEcosystem)
    (h : (maliciousFinding entry aff i elementEcosystem).Holds row) :
    ReportedLocally ecosystem name version row ↔
      elementEcosystem = ecosystem ∧ normalizePackageName ecosystem aff.name = name ∧
        (trimSpace version = "" ∨ maliciousVersionList aff = [] ∨
          ∃ candidate ∈ maliciousVersionList aff,
            versionsEqual version candidate ecosystem = true) := by
  obtain ⟨-, -, hactive, hrowEcosystem, hrowName, -⟩ := h.columns
  have hcanonical : toLower (trimSpace elementEcosystem) = elementEcosystem :=
    mapOSVEcosystem_canonical hecosystem
  have hlists := lists_maliciousFinding entry aff i elementEcosystem
  rw [ReportedLocally, Local.localMaliciousAffectsVersion_iff hlists h, hrowEcosystem, hrowName]
  dsimp only [maliciousFinding]
  rw [hcanonical, and_iff_right hactive]
  refine and_congr_right fun heq => ?_
  rw [heq]

/-- What the table reports after the findings of an entry were handed over. -/
lemma exists_reportedLocally_upsertEach_iff :
    (∃ row ∈ (upsertEach stamps (mapToMaliciousFindings entry) db).2.malicious,
        ReportedLocally ecosystem name version row) ↔
      KeptByFindings entry db ecosystem name version := by
  have hQ : ∀ mf ∈ mapToMaliciousFindings entry, ∀ row, mf.Holds row →
      ((∃ aff i, (aff, i) ∈ entry.affected.zipIdx ∧ affectedHasMaliciousCategory aff = true ∧
        ecosystemOf aff = some ecosystem ∧ maliciousFinding entry aff i ecosystem = mf ∧
        normalizePackageName ecosystem aff.name = name ∧
        (trimSpace version = "" ∨ maliciousVersionList aff = [] ∨
          ∃ candidate ∈ maliciousVersionList aff, versionsEqual version candidate ecosystem = true)) ↔
        ReportedLocally ecosystem name version row) := by
    intro mf hmf row hrow
    constructor
    · rintro ⟨aff, i, -, -, hecosystem, rfl, hname, hversion⟩
      exact (holds_reportedLocally_iff hecosystem hrow).mpr ⟨rfl, hname, hversion⟩
    · intro hreported
      obtain ⟨aff, i, elementEcosystem, hmem, hflag, hecosystem, rfl⟩ :=
        mem_mapToMaliciousFindings.mp hmf
      obtain ⟨rfl, hname, hversion⟩ := (holds_reportedLocally_iff hecosystem hrow).mp hreported
      exact ⟨aff, i, hmem, hflag, hecosystem, rfl, hname, hversion⟩
  have hnodup : (((mapToMaliciousFindings entry).filter (·.writable db)).map
      MaliciousFinding.id).Nodup := nodup_findings.sublist (List.filter_sublist.map _)
  rw [exists_malicious_upsertEach_iff source_of_mem_findings hQ]
  simp only [Tables.isLast_iff_mem hnodup]
  constructor
  · rintro (⟨mf, hmf, aff, i, hmem, hflag, hecosystem, rfl, hname, hversion⟩ |
      ⟨row, hrow, hid, hreported⟩)
    · exact Or.inl ⟨aff, i, hmem, hflag, hecosystem, hname, List.of_mem_filter hmf, hversion⟩
    · refine Or.inr ⟨row, hrow, fun mf hmf hwritable heq => hid ?_, hreported⟩
      exact heq ▸ List.mem_map_of_mem (List.mem_filter.mpr ⟨hmf, hwritable⟩)
  · rintro (⟨aff, i, hmem, hflag, hecosystem, hname, hwritable, hversion⟩ |
      ⟨row, hrow, hid, hreported⟩)
    · have hmf := mem_mapToMaliciousFindings.mpr ⟨aff, i, ecosystem, hmem, hflag, hecosystem, rfl⟩
      exact Or.inl ⟨_, List.mem_filter.mpr ⟨hmf, hwritable⟩, aff, i, hmem, hflag, hecosystem, rfl,
        hname, hversion⟩
    · refine Or.inr ⟨row, hrow, fun hmem => ?_, hreported⟩
      obtain ⟨mf, hmf, heq⟩ := List.mem_map.mp hmem
      exact hid mf (List.mem_of_mem_filter hmf) (List.of_mem_filter hmf) heq

lemma processMalicious_spec (findings : List MaliciousFinding)
    (hfindings : findings = mapToMaliciousFindings entry) :
    ((∃ row ∈ (processMalicious stamps entry db findings).2.malicious,
        ReportedLocally ecosystem name version row) ∨
      ∃ other, ReportsAdvisory (processMalicious stamps entry db findings).2 other ecosystem name
        version) ↔
      KeptByFindings entry db ecosystem name version ∨
        ReportsWithoutFeed db entry.id ecosystem name version := by
  obtain ⟨db', hdb'⟩ := exists_deleteVulnerability (stamps 0) entry.id db
  have hmalicious := malicious_deleteVulnerability hdb'
  obtain ⟨-, rows, -, hrows⟩ := @upsertEach_spec (fun i => stamps (i + 1))
    (mapToMaliciousFindings entry) feedName db' source_of_mem_findings
  have hkept : KeptByFindings entry db' ecosystem name version ↔
      KeptByFindings entry db ecosystem name version := by
    simp only [KeptByFindings, writable_congr hmalicious, hmalicious]
  rw [processMalicious, hdb', hfindings]
  dsimp only
  rw [exists_reportedLocally_upsertEach_iff, hkept, hrows]
  simp only [reportsAdvisory_upsertAllMalicious_iff, exists_reportsAdvisory_delete_iff hdb']

lemma upsertVulnerability_spec
    (hnamed : ∃ pkg ∈ (mapToVulnerability platform entry rawJSON).affectedPackages,
      pkg.key entry.id = (entry.id, ecosystem, name)) :
    ((∃ row ∈ (imported platform (stamps 0) (mapToVulnerability platform entry rawJSON) db).malicious,
        ReportedLocally ecosystem name version row) ∨
      ∃ other, ReportsAdvisory
        (imported platform (stamps 0) (mapToVulnerability platform entry rawJSON) db) other ecosystem
        name version) ↔
      (∃ row ∈ db.malicious, ReportedLocally ecosystem name version row) ∨
        KeptByAdvisory platform (stamps 0) entry rawJSON db ecosystem name version := by
  have hfeed := fromFeed platform entry rawJSON
  have hstored : (∃ db', upsertVulnerabilityTx (stamps 0) platform.shouldStoreVulnerabilityReference
      (mapToVulnerability platform entry rawJSON) db = .ok db') ↔
      AllStorable (stamps 0) (mapToVulnerability platform entry rawJSON) := hfeed.exists_upsert_iff
  unfold imported KeptByAdvisory
  cases h : upsertVulnerabilityTx (stamps 0) platform.shouldStoreVulnerabilityReference
      (mapToVulnerability platform entry rawJSON) db with
  | error message =>
    have hall : ¬AllStorable (stamps 0) (mapToVulnerability platform entry rawJSON) := by
      rw [← hstored, h]
      rintro ⟨db', hdb'⟩
      cases hdb'
    simp only [hall, false_and, not_false_eq_true, true_and, false_or]
  | ok db' =>
    have hall : AllStorable (stamps 0) (mapToVulnerability platform entry rawJSON) :=
      hstored.mp ⟨db', h⟩
    have hmalicious : db'.malicious = db.malicious := by
      obtain ⟨severity, packages, -, rfl⟩ := upsertVulnerabilityTx_eq_ok h
      rfl
    simp only [hall, hmalicious, true_and, not_true_eq_false, false_and, or_false,
      reportsAdvisory_upsert_iff h hfeed.printed hnamed, exists_or, exists_eq_left]

/-- After an entry is processed, a version that an element of a supported ecosystem covers is
reported exactly when the way the entry is taken keeps it. -/
theorem processOSVEntry_keeps_coverage_iff (platform : Platform) (stamps : ℕ → Stamp)
    (entry : OsvEntry) (rawJSON : String) (db : Database) {aff : OsvAffected} {ecosystem : String}
    (haff : aff ∈ entry.affected) (hecosystem : ecosystemOf aff = some ecosystem) (version : String) :
    (CoveredBy aff ecosystem version →
        StoreReports (processOSVEntry platform stamps entry rawJSON db).2 ecosystem aff.name version) ↔
      (CoveredBy aff ecosystem version →
        KeptByEntry platform (stamps 0) entry rawJSON db ecosystem
          (normalizePackageName ecosystem aff.name) version) := by
  refine imp_congr_right fun _ => ?_
  rw [StoreReports, findVulnerabilities_ne_nil_iff]
  unfold processOSVEntry KeptByEntry
  split_ifs
  · rfl
  · obtain ⟨db', hdb'⟩ := exists_deleteVulnerability (stamps 0) entry.id db
    rw [hdb']
    dsimp only
    rw [malicious_deleteVulnerability hdb', exists_reportsAdvisory_delete_iff hdb']
  · cases hfindings : mapToMaliciousFindings entry with
    | nil =>
      have hspec := @upsertVulnerability_spec platform stamps entry rawJSON db ecosystem
        (normalizePackageName ecosystem aff.name) version (exists_affectedPackage haff hecosystem)
      refine Iff.trans ?_ hspec
      unfold imported
      dsimp only
      cases upsertVulnerabilityTx (stamps 0) platform.shouldStoreVulnerabilityReference
          (mapToVulnerability platform entry rawJSON) db with
      | ok db' => rfl
      | error message => rfl
    | cons finding findings =>
      dsimp only
      exact processMalicious_spec _ hfindings.symm

end

section Example

/-- A finding for the versions from 1.0.0 up to the fix in 2.0.0. -/
def flaggedRange : OsvAffected where
  ecosystem := "npm"
  name := "left"
  ranges := [{ type := "SEMVER", events := [{ introduced := "1.0.0" }, { fixed := "2.0.0" }] }]
  databaseSpecific := some (.obj [("categories", .arr [.str "malicious"])])

def flaggedEntry : OsvEntry where
  id := "OSV-1"
  affected := [flaggedRange]

instance (db : Database) (ecosystem name version : String) :
    Decidable (StoreReports db ecosystem name version) :=
  inferInstanceAs (Decidable ((∃ row ∈ db.malicious, _ ∧ _ ∧ _ ∧ _ = _) ∨ _ ≠ []))

instance (aff : OsvAffected) (ecosystem version : String) :
    Decidable (CoveredBy aff ecosystem version) :=
  inferInstanceAs (Decidable ((∃ candidate ∈ aff.versions, _ = true) ∨
    ∃ r ∈ aff.ranges, _ = false ∧ _ = true))

theorem processOSVEntry_keeps_first_version :
    KeptByEntry bluntPlatform ⟨1, 1⟩ flaggedEntry "" {} "npm" "left" "1.0.0" :=
  (processOSVEntry_keeps_coverage_iff bluntPlatform (fun i => ⟨i + 1, i + 1⟩) flaggedEntry "" {}
    (List.mem_singleton.mpr rfl) (by decide : ecosystemOf flaggedRange = some "npm")
    "1.0.0").mp (fun _ => by decide +kernel) (by decide +kernel)

/-- Of a range only the first version is left. -/
theorem processOSVEntry_loses_range :
    affectedHasMaliciousCategory flaggedRange = true ∧ flaggedRange ∈ flaggedEntry.affected ∧
      ecosystemOf flaggedRange = some "npm" ∧ CoveredBy flaggedRange "npm" "1.5.0" ∧
      ¬StoreReports (processOSVEntry bluntPlatform (fun i => ⟨i + 1, i + 1⟩) flaggedEntry "" {}).2
        "npm" "left" "1.5.0" :=
  ⟨by decide, List.mem_singleton.mpr rfl, by decide, by decide,
    by decide +kernel⟩

end Example

end Packmon.Feed.Osv

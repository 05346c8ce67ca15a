import Packmon.Feed.Ghsa
import Packmon.Feed.Osv
import Packmon.Store.Coverage

/-!
# What an import keeps of the affected versions

An advisory whose packages pass the checks of the store is stored as a whole, and the row of a package
holds the constraints of the last affected package with its canonical name.  The OSV feed hands over one
package for each affected element, so of several elements for one package only the last one counts; the
GHSA feed merges elements of one spelling, and of several spellings only the last one counts.
-/

namespace Packmon.Feed

open GoText Version

/-- What holds of every advisory a feed hands over. -/
structure FromFeed (vuln : Vulnerability) : Prop where
  severity : vuln.severity ∈ ["CRITICAL", "HIGH", "MEDIUM", "LOW", "UNKNOWN"]
  sources : ∀ source ∈ vuln.sources, equalFold (trimSpace source.source) "manual" = false
  printed : ∀ pkg ∈ vuln.affectedPackages, pkg.Printed

section

variable (platform : Platform) (t : Stamp) (vuln : Vulnerability) (db : Database)

/-- The store after an advisory was handed over; a failed transaction leaves it as it was. -/
def imported : Database :=
  match upsertVulnerabilityTx t platform.shouldStoreVulnerabilityReference vuln db with
  | .ok db' => db'
  | .error _ => db

/-- Every affected package passes the checks of the store. -/
def AllStorable : Prop := ∀ pkg ∈ vuln.affectedPackages, pkg.Storable t vuln.id

/-- The last affected package with the canonical name makes the version affected and everything
passes the checks; or something does not, and the row that was there makes it affected. -/
def Kept (ecosystem name version : String) : Prop :=
  (AllStorable t vuln ∧
    ∃ pkg, Tables.IsLast (AffectedPackage.key vuln.id) pkg vuln.affectedPackages ∧
      pkg.key vuln.id = (vuln.id, ecosystem, name) ∧ pkg.Accepts ecosystem version) ∨
    (¬AllStorable t vuln ∧ StoredAccepts db vuln.id ecosystem name version)

variable {platform t vuln db}

/-- An advisory of a feed is stored exactly when its packages pass the checks. -/
lemma FromFeed.exists_upsert_iff (hfeed : FromFeed vuln) {shouldStore : String → Bool} :
    (∃ db', upsertVulnerabilityTx t shouldStore vuln db = .ok db') ↔ AllStorable t vuln := by
  have hseverity : ∃ severity, normalizeVulnerabilitySeverity vuln.severity = .ok severity := by
    have hall : ∀ s ∈ ["CRITICAL", "HIGH", "MEDIUM", "LOW", "UNKNOWN"],
        (normalizeVulnerabilitySeverity s).isOk = true := by decide
    have hok := hall _ hfeed.severity
    cases h : normalizeVulnerabilitySeverity vuln.severity with
    | ok severity => exact ⟨severity, rfl⟩
    | error message =>
      rw [h] at hok
      cases hok
  have hsources : vuln.sources.forM (checkManualSource vuln) = .ok () := by
    have hone : ∀ source ∈ vuln.sources, checkManualSource vuln source = .ok () := by
      intro source hsource
      simp [checkManualSource, hfeed.sources source hsource, pure, Except.pure]
    generalize vuln.sources = sources at hone
    induction sources with
    | nil => rfl
    | cons source sources ih =>
      change (checkManualSource vuln source >>= fun _ => sources.forM (checkManualSource vuln)) = _
      rw [hone source List.mem_cons_self]
      exact ih fun s hs => hone s (List.mem_cons_of_mem _ hs)
  obtain ⟨severity, hseverity⟩ := hseverity
  rw [AllStorable]
  simp only [AffectedPackage.Storable, ← exists_mapM_eq_ok, upsertVulnerabilityTx, hseverity, hsources,
    bind_eq_ok, Except.ok.injEq, pure, Except.pure]
  constructor
  · rintro ⟨db', _, rfl, _, -, packages, hpackages, -⟩
    exact ⟨packages, hpackages⟩
  · rintro ⟨packages, hpackages⟩
    exact ⟨_, severity, rfl, (), trivial, packages, hpackages, rfl⟩

/-- What the stored row of a package of the advisory affects. -/
lemma FromFeed.storedAccepts_imported_iff (hfeed : FromFeed vuln) {ecosystem name version : String}
    (hnamed : ∃ pkg ∈ vuln.affectedPackages, pkg.key vuln.id = (vuln.id, ecosystem, name)) :
    StoredAccepts (imported platform t vuln db) vuln.id ecosystem name version ↔
      Kept t vuln db ecosystem name version := by
  have hstored : (∃ db', upsertVulnerabilityTx t platform.shouldStoreVulnerabilityReference vuln db =
      .ok db') ↔ AllStorable t vuln := hfeed.exists_upsert_iff
  unfold imported Kept
  cases h : upsertVulnerabilityTx t platform.shouldStoreVulnerabilityReference vuln db with
  | ok db' =>
    have hall : AllStorable t vuln := hstored.mp ⟨db', h⟩
    obtain ⟨pkg, hpkg, hkey⟩ := hnamed
    have hnot : ¬∀ pkg ∈ vuln.affectedPackages, pkg.key vuln.id ≠ (vuln.id, ecosystem, name) :=
      fun hne => hne pkg hpkg hkey
    rw [storedAccepts_upsert_iff h hfeed.printed]
    simp only [hall, hnot, true_and, not_true_eq_false, false_and, or_false]
  | error message =>
    have hall : ¬AllStorable t vuln := by
      rw [← hstored]
      rintro ⟨db', hdb'⟩
      rw [h] at hdb'
      cases hdb'
    simp only [hall, false_and, not_false_eq_true, true_and, false_or]

end

/-! ## The two feeds -/

lemma cvssToSeverity_mem (score : ℚ) :
    cvssToSeverity score ∈ ["CRITICAL", "HIGH", "MEDIUM", "LOW", "UNKNOWN"] := by
  unfold cvssToSeverity
  split_ifs <;> simp

lemma spelledSeverity_mem {severity known : String} (h : spelledSeverity severity = some known) :
    known ∈ ["CRITICAL", "HIGH", "MEDIUM", "LOW", "UNKNOWN"] := by
  unfold spelledSeverity at h
  split at h <;> simp_all

namespace Osv

lemma mapSeverity_mem (platform : Platform) (entry : OsvEntry) :
    mapSeverity platform entry ∈ ["CRITICAL", "HIGH", "MEDIUM", "LOW", "UNKNOWN"] := by
  rw [mapSeverity]
  split_ifs
  · exact cvssToSeverity_mem _
  · cases h : (entry.databaseSpecific.bind (decodeSeveritySpec {})).bind fun dbSpec =>
        spelledSeverity dbSpec.severity with
    | none => simp
    | some known =>
      obtain ⟨dbSpec, -, hknown⟩ := Option.bind_eq_some_iff.mp h
      exact spelledSeverity_mem hknown

lemma fromFeed (platform : Platform) (entry : OsvEntry) (rawJSON : String) :
    FromFeed (mapToVulnerability platform entry rawJSON) where
  severity := mapSeverity_mem platform entry
  sources := by
    intro source hsource
    rw [List.mem_singleton.mp hsource]
    exact (by decide : equalFold (trimSpace feedName) "manual" = false)
  printed := by
    intro pkg hpkg
    obtain ⟨aff, -, haff⟩ := List.mem_filterMap.mp hpkg
    obtain ⟨ecosystem, -, rfl⟩ := Option.map_eq_some_iff.mp haff
    exact ⟨_, osvFormat, _, _, rfl, rfl⟩

/-- Every affected element of a supported ecosystem has its package in the advisory. -/
lemma exists_affectedPackage {platform : Platform} {entry : OsvEntry} {rawJSON ecosystem : String}
    {aff : OsvAffected} (haff : aff ∈ entry.affected) (hecosystem : ecosystemOf aff = some ecosystem) :
    ∃ pkg ∈ (mapToVulnerability platform entry rawJSON).affectedPackages,
      pkg.key entry.id = (entry.id, ecosystem, normalizePackageName ecosystem aff.name) := by
  refine ⟨affectedPackage aff ecosystem, ?_, ?_⟩
  · exact List.mem_filterMap.mpr ⟨aff, haff, by rw [hecosystem, Option.map_some]⟩
  · dsimp only [AffectedPackage.key, affectedPackage]
    rw [mapOSVEcosystem_canonical hecosystem]

end Osv

namespace Ghsa

lemma mapSeverity_mem (platform : Platform) (advisory : GhsaAdvisory) :
    mapSeverity platform advisory ∈ ["CRITICAL", "HIGH", "MEDIUM", "LOW", "UNKNOWN"] := by
  rw [mapSeverity]
  split
  · next severity h =>
    obtain ⟨spelled, -, hknown⟩ := Option.bind_eq_some_iff.mp h
    exact spelledSeverity_mem hknown
  · cases (advisory.severity.map fun s => platform.parseCVSSVector s.score).find? (0 < ·) with
    | none => simp
    | some score => exact cvssToSeverity_mem score

section

variable {platform : Platform} {advisory : GhsaAdvisory} {rawJSON : String} {vuln : Vulnerability}

lemma mapToVulnerability_eq_ok (h : mapToVulnerability platform advisory rawJSON = .ok vuln) :
    vuln.id = advisory.id ∧ FromFeed vuln ∧
      vuln.affectedPackages = (mergedAffected advisory).map MergedAffected.package := by
  rw [mapToVulnerability, bind_eq_ok] at h
  obtain ⟨withdrawn, -, h⟩ := h
  obtain rfl := Except.ok.inj h
  refine ⟨rfl, ⟨mapSeverity_mem platform advisory, ?_, ?_⟩, rfl⟩
  · intro source hsource
    rw [List.mem_singleton.mp hsource]
    exact (by decide : equalFold (trimSpace feedName) "manual" = false)
  · intro pkg hpkg
    obtain ⟨merged, -, rfl⟩ := List.mem_map.mp hpkg
    exact ⟨_, ghsaFormat, _, _, rfl, rfl⟩

/-- Every affected element of a supported ecosystem is merged into a package of the advisory. -/
lemma exists_affectedPackage {ecosystem : String} {aff : GhsaAffected}
    (h : mapToVulnerability platform advisory rawJSON = .ok vuln) (haff : aff ∈ advisory.affected)
    (hecosystem : mapGHSAEcosystem aff.ecosystem = some ecosystem) :
    ∃ pkg ∈ vuln.affectedPackages,
      pkg.key vuln.id = (vuln.id, ecosystem, normalizePackageName ecosystem aff.name) := by
  have hmem : (ecosystem, aff.name) ∈ (mergedAffected advisory).map MergedAffected.key := by
    have hkey (old new : MergedAffected) (h : old.key = new.key) : (old.add new).key = new.key := h
    rw [mergedAffected, Tables.mem_map_key_upsertAll hkey]
    refine Or.inl (List.mem_map.mpr ⟨MergedAffected.ofAffected aff ecosystem, ?_, rfl⟩)
    exact List.mem_filterMap.mpr ⟨aff, haff, by rw [hecosystem, Option.map_some]⟩
  obtain ⟨merged, hmerged, hkey⟩ := List.mem_map.mp hmem
  obtain ⟨hmergedEcosystem, hmergedName⟩ := Prod.mk.inj hkey
  refine ⟨merged.package, ?_, ?_⟩
  · rw [(mapToVulnerability_eq_ok h).2.2]
    exact List.mem_map_of_mem hmerged
  · dsimp only [AffectedPackage.key, MergedAffected.package]
    rw [hmergedEcosystem, hmergedName, mapGHSAEcosystem_canonical hecosystem]

end

section

variable (platform : Platform) (t : Stamp) (advisory : GhsaAdvisory) (rawJSON : String)
  (db : Database)

/-- The store after an advisory was mapped and handed over. -/
def importedAdvisory : Database :=
  match mapToVulnerability platform advisory rawJSON with
  | .ok vuln => imported platform t vuln db
  | .error _ => db

/-- The advisory is mapped and keeps the version; or it is not, and the row that was there makes the
version affected. -/
def KeptAdvisory (ecosystem name version : String) : Prop :=
  match mapToVulnerability platform advisory rawJSON with
  | .ok vuln => Kept t vuln db ecosystem name version
  | .error _ => StoredAccepts db advisory.id ecosystem name version

end

end Ghsa

section Example

/-- A platform that scores nothing and reads no timestamp. -/
def bluntPlatform : Platform := ⟨fun _ => 0, fun _ => none, fun _ => true⟩

/-- Two affected elements for one package, with one version each. -/
def twoReleases : Osv.OsvEntry where
  id := "OSV-1"
  affected := [{ ecosystem := "npm", name := "left", versions := ["1.0.0"] },
    { ecosystem := "npm", name := "left", versions := ["2.0.0"] }]

/-- The same elements in an advisory of the other feed, which merges them. -/
def twoMergedReleases : Ghsa.GhsaAdvisory where
  id := "GHSA-1"
  affected := [{ ecosystem := "npm", name := "left", versions := ["1.0.0"] },
    { ecosystem := "npm", name := "left", versions := ["2.0.0"] }]

end Example

end Packmon.Feed

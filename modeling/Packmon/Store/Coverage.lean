import Packmon.Store.Vulnerabilities

/-!
# Which versions the stored packages affect

After an advisory is stored, the row of a package affects what the last package of that canonical name in
the advisory affects; packages the advisory does not name affect what they did before
(`storedAccepts_upsert_iff`).
-/

namespace Packmon

open GoText Version

/-- The stored row of an affected package makes the version affected. -/
def StoredAccepts (db : Database) (id ecosystem name version : String) : Prop :=
  ∃ row ∈ db.affectedPackages, row.key = (id, ecosystem, name) ∧
    accepts version row.versionRanges row.versionsAffected ecosystem = true

instance (db : Database) (id ecosystem name version : String) :
    Decidable (StoredAccepts db id ecosystem name version) :=
  inferInstanceAs (Decidable (∃ row ∈ db.affectedPackages, _ ∧ _))

/-- The key under which a package of an advisory is stored. -/
def AffectedPackage.key (id : String) (pkg : AffectedPackage) : String × String × String :=
  (id, toLower (trimSpace pkg.ecosystem),
    normalizePackageName (toLower (trimSpace pkg.ecosystem)) pkg.name)

/-- The package passes the checks of the store. -/
def AffectedPackage.Storable (t : Stamp) (id : String) (pkg : AffectedPackage) : Prop :=
  ∃ row, storedPackage t id pkg = .ok row

/-- The constraints of the package were printed by a feed. -/
def AffectedPackage.Printed (pkg : AffectedPackage) : Prop :=
  ∃ (ι : Type) (format : RangeFormat ι) (ranges : List ι) (versions : List String),
    pkg.versionRanges = format.text ranges ∧ pkg.versionsAffected = versionsJSON versions

/-- The package makes the version affected. -/
def AffectedPackage.Accepts (ecosystem version : String) (pkg : AffectedPackage) : Prop :=
  accepts version pkg.versionRanges pkg.versionsAffected ecosystem = true

instance (ecosystem version : String) (pkg : AffectedPackage) :
    Decidable (pkg.Accepts ecosystem version) :=
  inferInstanceAs (Decidable (_ = true))

variable {t : Stamp} {id ecosystem name version : String}

section

variable {pkg : AffectedPackage} {row : StoredPackage id}

lemma storedPackage_eq_ok (h : storedPackage t id pkg = .ok row) :
    pkg.key id = row.val.key ∧
      validateStoredVersionRangesJSON id "version_ranges"
        (coalesceStoredJSONArray pkg.versionRanges) false = .ok () ∧
      Json.jsonbText (coalesceStoredJSONArray pkg.versionRanges) = some row.val.versionRanges ∧
      Json.jsonbText (coalesceStoredJSONArray pkg.versionsAffected) =
        some row.val.versionsAffected := by
  have hmapError {x : Except String Unit} {f : String → String} {u : Unit}
      (hx : x.mapError f = .ok u) : x = .ok () := by
    cases x with
    | error message => cases hx
    | ok u => rfl
  rw [storedPackage, bind_eq_ok] at h
  obtain ⟨stored, hstored, h⟩ := h
  simp only [bind_eq_ok] at h
  obtain ⟨u, hranges, u', -, h⟩ := h
  have hecosystem : stored.val = toLower (trimSpace pkg.ecosystem) := by
    rw [normalizeStoredEcosystem] at hstored
    split_ifs at hstored
    rw [← Except.ok.inj hstored]
  split at h
  · next ranges versions hr hv =>
    obtain rfl := Except.ok.inj h
    refine ⟨?_, hmapError hranges, hr, hv⟩
    dsimp only [AffectedPackage.key, AffectedRow.key]
    rw [hecosystem]
  · cases h

/-- A stored package affects what it was said to affect. -/
lemma accepts_storedPackage (hprinted : pkg.Printed) (h : storedPackage t id pkg = .ok row) :
    accepts version row.val.versionRanges row.val.versionsAffected ecosystem =
      accepts version pkg.versionRanges pkg.versionsAffected ecosystem := by
  obtain ⟨-, hvalid, hranges, hversions⟩ := storedPackage_eq_ok h
  obtain ⟨ι, format, ranges, versions, hrangesText, hversionsText⟩ := hprinted
  rw [hrangesText] at hvalid hranges ⊢
  rw [hversionsText] at hversions ⊢
  exact accepts_stored version ecosystem hvalid hranges hversions

end

lemma accepts_mergeAffected (old new : AffectedRow) :
    accepts version (mergeAffected old new).versionRanges (mergeAffected old new).versionsAffected
      ecosystem = accepts version new.versionRanges new.versionsAffected ecosystem := by
  rw [mergeAffected]
  split_ifs with h
  · rw [h.1, h.2]
  · rfl

section

variable {shouldStore : String → Bool} {vuln : Vulnerability} {db db' : Database}

lemma upsertVulnerabilityTx_eq_ok (h : upsertVulnerabilityTx t shouldStore vuln db = .ok db') :
    ∃ severity packages, vuln.affectedPackages.mapM (storedPackage t vuln.id) = .ok packages ∧
      db' = db.upsertVulnerability t shouldStore vuln severity packages := by
  rw [upsertVulnerabilityTx, bind_eq_ok] at h
  obtain ⟨severity, -, h⟩ := h
  simp only [bind_eq_ok] at h
  obtain ⟨u, -, packages, hpackages, h⟩ := h
  exact ⟨severity, packages, hpackages, (Except.ok.inj h).symm⟩

/-- After an advisory is stored, a query on the rows of a key finds the last package with that key in
the advisory, or what was there before when the advisory has no such package. -/
theorem exists_affected_upsert_iff {P : AffectedPackage → Prop} {Q : AffectedRow → Prop}
    (h : upsertVulnerabilityTx t shouldStore vuln db = .ok db') (key : String × String × String)
    (hmerge : ∀ old new, Q (mergeAffected old new) ↔ Q new)
    (hPQ : ∀ pkg ∈ vuln.affectedPackages, ∀ row : StoredPackage vuln.id,
      storedPackage t vuln.id pkg = .ok row → (P pkg ↔ Q row.val)) :
    (∃ row ∈ db'.affectedPackages, row.key = key ∧ Q row) ↔
      (∃ pkg, Tables.IsLast (AffectedPackage.key vuln.id) pkg vuln.affectedPackages ∧
        pkg.key vuln.id = key ∧ P pkg) ∨
      (∀ pkg ∈ vuln.affectedPackages, pkg.key vuln.id ≠ key) ∧
        ∃ row ∈ db.affectedPackages, row.key = key ∧ Q row := by
  obtain ⟨severity, packages, hpackages, rfl⟩ := upsertVulnerabilityTx_eq_ok h
  have hstored : List.Forall₂ (fun pkg row => ∃ stored : StoredPackage vuln.id,
      storedPackage t vuln.id pkg = .ok stored ∧ stored.val = row)
      vuln.affectedPackages (packages.map Subtype.val) :=
    List.forall₂_map_right_iff.mpr <| (forall₂_of_mapM hpackages).imp fun _ stored h =>
      ⟨stored, h, rfl⟩
  have hkey (pkg : AffectedPackage) (row : AffectedRow) : (∃ stored : StoredPackage vuln.id,
      storedPackage t vuln.id pkg = .ok stored ∧ stored.val = row) →
      pkg.key vuln.id = row.key := by
    rintro ⟨stored, h, rfl⟩
    exact (storedPackage_eq_ok h).1
  have hlast : (∃ row, Tables.IsLast AffectedRow.key row (packages.map Subtype.val) ∧
      row.key = key ∧ Q row) ↔
      ∃ pkg, Tables.IsLast (AffectedPackage.key vuln.id) pkg vuln.affectedPackages ∧
        pkg.key vuln.id = key ∧ P pkg := by
    refine Tables.exists_isLast_iff hstored hkey ?_
    rintro pkg hpkg row ⟨stored, h, rfl⟩
    rw [(storedPackage_eq_ok h).1, hPQ pkg hpkg stored h]
  have hold : (∃ row ∈ db.affectedPackages,
      row.key ∉ (packages.map Subtype.val).map AffectedRow.key ∧ row.key = key ∧ Q row) ↔
      (∀ pkg ∈ vuln.affectedPackages, pkg.key vuln.id ≠ key) ∧
        ∃ row ∈ db.affectedPackages, row.key = key ∧ Q row := by
    rw [← Tables.map_key_eq hstored hkey]
    constructor
    · rintro ⟨row, hrow, hnot, hrowKey, hQ⟩
      refine ⟨fun pkg hpkg hpkgKey => hnot ?_, row, hrow, hrowKey, hQ⟩
      rw [hrowKey, ← hpkgKey]
      exact List.mem_map_of_mem hpkg
    · rintro ⟨hnot, row, hrow, hrowKey, hQ⟩
      refine ⟨row, hrow, fun hmem => ?_, hrowKey, hQ⟩
      obtain ⟨pkg, hpkg, hpkgKey⟩ := List.mem_map.mp hmem
      exact hnot pkg hpkg (hpkgKey.trans hrowKey)
  rw [← hlast, ← hold]
  exact Tables.exists_upsertAll_iff (fun _ _ h => mergeAffected_key h)
    (fun old new h => by rw [mergeAffected_key h, hmerge]) db.affected_key

/-- After an advisory is stored, a row affects what the last package with its key in the advisory
affects, or what it did before when the advisory has no such package. -/
theorem storedAccepts_upsert_iff {other : String}
    (h : upsertVulnerabilityTx t shouldStore vuln db = .ok db')
    (hprinted : ∀ pkg ∈ vuln.affectedPackages, pkg.Printed) :
    StoredAccepts db' other ecosystem name version ↔
      (∃ pkg, Tables.IsLast (AffectedPackage.key vuln.id) pkg vuln.affectedPackages ∧
        pkg.key vuln.id = (other, ecosystem, name) ∧ pkg.Accepts ecosystem version) ∨
      (∀ pkg ∈ vuln.affectedPackages, pkg.key vuln.id ≠ (other, ecosystem, name)) ∧
        StoredAccepts db other ecosystem name version := by
  refine exists_affected_upsert_iff h (other, ecosystem, name) (fun old new => ?_)
    fun pkg hpkg row hrow => ?_
  · rw [accepts_mergeAffected]
  · rw [AffectedPackage.Accepts, accepts_storedPackage (hprinted pkg hpkg) hrow]

end

end Packmon

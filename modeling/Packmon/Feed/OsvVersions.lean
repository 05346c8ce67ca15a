import Packmon.Feed.OsvEntries

/-!
# The versions of an OSV entry

The versions of an entry are processed one after another.  Each writes its findings over those with the
same ids, and nothing removes a finding that only an earlier version had: the findings follow the entry
exactly when no earlier version had an id that the last one does not have (`follows_iff`).
-/

namespace Packmon.Feed.Osv

open GoText Version

/-- The findings that processing a version of an entry stores. -/
def producedFindings (entry : OsvEntry) : List MaliciousFinding :=
  if isWithdrawn entry then [] else mapToMaliciousFindings entry

/-- Process versions of an entry one after another; the number of errors and the store afterwards. -/
def processVersions (platform : Platform) :
    (ℕ → ℕ → Stamp) → List (OsvEntry × String) → Database → ℕ × Database
  | _, [], db => (0, db)
  | stamps, (entry, rawJSON) :: versions, db =>
    let step := processOSVEntry platform (stamps 0) entry rawJSON db
    let rest := processVersions platform (fun i => stamps (i + 1)) versions step.2
    (step.1.errors + rest.1, rest.2)

/-- The active rows of the feed under the ids of `produced` are those of `findings`. -/
def Follows (db : Database) (produced findings : List MaliciousFinding) : Prop :=
  (∀ row ∈ db.malicious, row.removedAt = none → row.source = feedName →
      row.id ∈ produced.map MaliciousFinding.id → ∃ mf ∈ findings, mf.Holds row) ∧
    ∀ mf ∈ findings, ∃ row ∈ db.malicious,
      row.removedAt = none ∧ row.source = feedName ∧ mf.Holds row

lemma source_of_mem_produced {entry : OsvEntry} :
    ∀ mf ∈ producedFindings entry, mf.source = feedName := by
  intro mf h
  rw [producedFindings] at h
  split_ifs at h
  · cases h
  · exact source_of_mem_findings mf h

lemma nodup_produced (entry : OsvEntry) :
    ((producedFindings entry).map MaliciousFinding.id).Nodup := by
  rw [producedFindings]
  split_ifs
  · exact List.nodup_nil
  · exact nodup_findings

/-! ## What a run leaves in the table -/

section

variable {platform : Platform} {db : Database}

lemma processMalicious_malicious {stamps : ℕ → Stamp} {entry : OsvEntry}
    {findings : List MaliciousFinding} (hfindings : findings = mapToMaliciousFindings entry)
    (hok : (processMalicious stamps entry db findings).1.errors = 0) :
    ∃ rows, List.Forall₂ MaliciousFinding.Holds findings rows ∧
      (processMalicious stamps entry db findings).2.malicious =
        Tables.upsertAll MaliciousRow.id (fun _ new => new) rows db.malicious := by
  obtain ⟨db', hdb'⟩ := exists_deleteVulnerability (stamps 0) entry.id db
  have hsource : ∀ mf ∈ findings, mf.source = feedName := hfindings ▸ source_of_mem_findings
  obtain ⟨herrors, rows, hrows, hresult⟩ :=
    @upsertEach_spec (fun i => stamps (i + 1)) findings feedName db' hsource
  rw [processMalicious, hdb'] at hok ⊢
  dsimp only at hok ⊢
  rw [herrors, Nat.zero_add, List.countP_eq_zero] at hok
  have hall : findings.filter (·.writable db') = findings :=
    List.filter_eq_self.mpr fun mf hmf => by simpa using hok mf hmf
  refine ⟨rows, hall ▸ hrows, ?_⟩
  rw [hresult, Database.malicious_upsertAll, malicious_deleteVulnerability hdb']

/-- One version: the rows of its findings replace those with their ids. -/
lemma processOSVEntry_malicious {stamps : ℕ → Stamp} {entry : OsvEntry} {rawJSON : String}
    (hentry : isMaliciousPackageEntry entry = false)
    (hok : (processOSVEntry platform stamps entry rawJSON db).1.errors = 0) :
    ∃ rows, List.Forall₂ MaliciousFinding.Holds (producedFindings entry) rows ∧
      (processOSVEntry platform stamps entry rawJSON db).2.malicious =
        Tables.upsertAll MaliciousRow.id (fun _ new => new) rows db.malicious := by
  unfold processOSVEntry at hok ⊢
  unfold producedFindings
  rw [hentry, if_neg Bool.false_ne_true] at hok ⊢
  split_ifs at hok ⊢ with hwithdrawn
  · obtain ⟨db', hdb'⟩ := exists_deleteVulnerability (stamps 0) entry.id db
    rw [hdb']
    exact ⟨[], .nil, malicious_deleteVulnerability hdb'⟩
  · cases hfindings : mapToMaliciousFindings entry with
    | nil =>
      refine ⟨[], .nil, ?_⟩
      dsimp only
      cases h : upsertVulnerabilityTx (stamps 0) platform.shouldStoreVulnerabilityReference
          (mapToVulnerability platform entry rawJSON) db with
      | error message => rfl
      | ok db' =>
        obtain ⟨severity, packages, -, rfl⟩ := upsertVulnerabilityTx_eq_ok h
        rfl
    | cons finding findings =>
      rw [hfindings] at hok
      dsimp only at hok ⊢
      exact processMalicious_malicious hfindings.symm hok

/-- Several versions: the same for the findings of all of them in turn. -/
lemma processVersions_malicious {stamps : ℕ → ℕ → Stamp} {versions : List (OsvEntry × String)}
    (hentries : ∀ version ∈ versions, isMaliciousPackageEntry version.1 = false)
    (hok : (processVersions platform stamps versions db).1 = 0) :
    ∃ rows, List.Forall₂ MaliciousFinding.Holds (versions.flatMap fun v => producedFindings v.1) rows ∧
      (processVersions platform stamps versions db).2.malicious =
        Tables.upsertAll MaliciousRow.id (fun _ new => new) rows db.malicious := by
  induction versions generalizing stamps db with
  | nil => exact ⟨[], .nil, rfl⟩
  | cons version versions ih =>
    obtain ⟨hentry, hentries⟩ := List.forall_mem_cons.mp hentries
    rw [processVersions] at hok ⊢
    obtain ⟨herrors, hrest⟩ := Nat.add_eq_zero_iff.mp hok
    obtain ⟨rows, hrows, hmalicious⟩ := processOSVEntry_malicious hentry herrors
    obtain ⟨rest, hrestRows, hrestMalicious⟩ := ih hentries hrest
    refine ⟨rows ++ rest, List.rel_append hrows hrestRows, ?_⟩
    rw [Tables.upsertAll, List.foldl_append]
    dsimp only
    rw [hrestMalicious, hmalicious]
    rfl

lemma processVersions_concat (stamps : ℕ → ℕ → Stamp) (earlier : List (OsvEntry × String))
    (last : OsvEntry × String) :
    (processVersions platform stamps (earlier ++ [last]) db).1 =
        (processVersions platform stamps earlier db).1 +
          (processOSVEntry platform (stamps earlier.length) last.1 last.2
            (processVersions platform stamps earlier db).2).1.errors ∧
      (processVersions platform stamps (earlier ++ [last]) db).2 =
        (processOSVEntry platform (stamps earlier.length) last.1 last.2
          (processVersions platform stamps earlier db).2).2 := by
  induction earlier generalizing stamps db with
  | nil =>
    rw [List.nil_append, processVersions, processVersions, processVersions]
    exact ⟨Nat.add_comm _ _, rfl⟩
  | cons version earlier ih =>
    obtain ⟨herrors, hdb⟩ := @ih (processOSVEntry platform (stamps 0) version.1 version.2 db).2
      fun i => stamps (i + 1)
    rw [List.cons_append, processVersions, processVersions]
    dsimp only
    rw [herrors, hdb, Nat.add_assoc, List.length_cons]
    exact ⟨rfl, rfl⟩

end

/-! ## When the findings follow the entry -/

/-- After versions of an entry were processed without an error, the active findings that any of them
produced are those of the last version exactly when every id that an earlier version produced is one
of the last version's. -/
theorem follows_iff (platform : Platform) (stamps : ℕ → ℕ → Stamp)
    (earlier : List (OsvEntry × String)) (last : OsvEntry × String) (db : Database)
    (hentries : ∀ version ∈ earlier ++ [last], isMaliciousPackageEntry version.1 = false)
    (hok : (processVersions platform stamps (earlier ++ [last]) db).1 = 0) :
    Follows (processVersions platform stamps (earlier ++ [last]) db).2
        ((earlier ++ [last]).flatMap fun version => producedFindings version.1)
        (producedFindings last.1) ↔
      ∀ version ∈ earlier, ∀ mf ∈ producedFindings version.1,
        mf.id ∈ (producedFindings last.1).map MaliciousFinding.id := by
  obtain ⟨herrors, hdb⟩ := @processVersions_concat platform db stamps earlier last
  rw [herrors, Nat.add_eq_zero_iff] at hok
  obtain ⟨earlierRows, hearlierRows, hearlier⟩ := processVersions_malicious
    (fun version h => hentries version (List.mem_append_left _ h)) hok.1
  obtain ⟨lastRows, hlastRows, hlast⟩ := processOSVEntry_malicious
    (hentries last (List.mem_append_right _ (List.mem_singleton.mpr rfl))) hok.2
  rw [hearlier] at hlast
  have hid (mf : MaliciousFinding) (row : MaliciousRow) (h : mf.Holds row) : mf.id = row.id :=
    h.columns.1.symm
  have hlastIDs := Tables.map_key_eq hlastRows hid
  have hmid : ((Tables.upsertAll MaliciousRow.id (fun _ new => new) earlierRows db.malicious).map
      MaliciousRow.id).Nodup := Tables.nodup_upsertAll (fun _ _ _ => rfl) db.malicious_key
  have hmem (row : MaliciousRow) :
      row ∈ (processVersions platform stamps (earlier ++ [last]) db).2.malicious ↔
        row ∈ lastRows ∨
          row ∈ Tables.upsertAll MaliciousRow.id (fun _ new => new) earlierRows db.malicious ∧
            row.id ∉ (producedFindings last.1).map MaliciousFinding.id := by
    rw [hdb, hlast, Tables.mem_upsertAll_replace hmid, hlastIDs,
      Tables.isLast_iff_mem (hlastIDs ▸ nodup_produced last.1)]
  constructor
  · rintro ⟨hfollows, -⟩ version hversion mf hmf
    by_contra hgone
    -- the row that the earlier versions left under the id is still there
    have hkey : mf.id ∈ (Tables.upsertAll MaliciousRow.id (fun _ new => new) earlierRows
        db.malicious).map MaliciousRow.id := by
      rw [Tables.mem_map_key_upsertAll fun _ _ _ => rfl, ← Tables.map_key_eq hearlierRows hid]
      exact Or.inl (List.mem_map_of_mem (List.mem_flatMap.mpr ⟨version, hversion, hmf⟩))
    obtain ⟨row, hrow, hrowID⟩ := List.mem_map.mp hkey
    have hholds : ∃ mf' ∈ earlier.flatMap (fun v => producedFindings v.1), mf'.Holds row := by
      refine Tables.exists_of_mem_right hearlierRows ?_
      rcases (Tables.mem_upsertAll_replace db.malicious_key).mp hrow with hnew | ⟨-, hnot⟩
      · exact hnew.mem
      · rw [hrowID, ← Tables.map_key_eq hearlierRows hid] at hnot
        exact absurd (List.mem_map_of_mem (List.mem_flatMap.mpr ⟨version, hversion, hmf⟩)) hnot
    obtain ⟨mf', hmf', hholds⟩ := hholds
    obtain ⟨v, hv, hmf'⟩ := List.mem_flatMap.mp hmf'
    obtain ⟨-, hsource, hactive, -⟩ := hholds.columns
    obtain ⟨mfLast, hmfLast, hholdsLast⟩ := hfollows row
      ((hmem row).mpr (Or.inr ⟨hrow, hrowID ▸ hgone⟩)) hactive
      (hsource.trans (source_of_mem_produced mf' hmf'))
      (List.mem_map.mpr ⟨mf, List.mem_flatMap.mpr
        ⟨version, List.mem_append_left _ hversion, hmf⟩, hrowID.symm⟩)
    exact hgone (List.mem_map.mpr ⟨mfLast, hmfLast, (hid mfLast row hholdsLast).trans hrowID⟩)
  · intro hall
    refine ⟨fun row hrow _ _ hrowID => ?_, fun mf hmf => ?_⟩
    · rcases (hmem row).mp hrow with hnew | ⟨-, hnot⟩
      · exact Tables.exists_of_mem_right hlastRows hnew
      · obtain ⟨mf, hmf, hmfID⟩ := List.mem_map.mp hrowID
        obtain ⟨version, hversion, hmf⟩ := List.mem_flatMap.mp hmf
        rcases List.mem_append.mp hversion with hearlierVersion | hlastVersion
        · exact absurd (hmfID ▸ hall version hearlierVersion mf hmf) hnot
        · rw [List.mem_singleton.mp hlastVersion] at hmf
          exact absurd (List.mem_map.mpr ⟨mf, hmf, hmfID⟩) hnot
    · obtain ⟨row, hrow, hholds⟩ := Tables.exists_of_mem_left hlastRows hmf
      obtain ⟨-, hsource, hactive, -⟩ := hholds.columns
      exact ⟨row, (hmem row).mpr (Or.inl hrow), hactive,
        hsource.trans (source_of_mem_produced mf hmf), hholds⟩

section Example

/-- The entry once more, when it was taken back. -/
def withdrawnEntry : OsvEntry := { flaggedEntry with withdrawn := some "2024-01-01T00:00:00Z" }

theorem follows_second_version :
    Follows (processVersions bluntPlatform (fun i j => ⟨i + 1, i + j + 1⟩)
        ([(withdrawnEntry, "")] ++ [(flaggedEntry, "")]) {}).2
      (([(withdrawnEntry, "")] ++ [(flaggedEntry, "")]).flatMap fun v => producedFindings v.1)
      (producedFindings flaggedEntry) :=
  (follows_iff bluntPlatform (fun i j => ⟨i + 1, i + j + 1⟩) [(withdrawnEntry, "")]
    (flaggedEntry, "") {} (by decide +kernel) (by decide +kernel)).mpr (by
      intro version hversion mf hmf
      rw [List.mem_singleton.mp hversion] at hmf
      cases hmf)

/-- The finding of an entry that is withdrawn later stays active. -/
theorem follows_fails_withdrawn :
    (processVersions bluntPlatform (fun i j => ⟨i + 1, i + j + 1⟩)
        ([(flaggedEntry, "")] ++ [(withdrawnEntry, "")]) {}).1 = 0 ∧
      ¬Follows (processVersions bluntPlatform (fun i j => ⟨i + 1, i + j + 1⟩)
          ([(flaggedEntry, "")] ++ [(withdrawnEntry, "")]) {}).2
        (([(flaggedEntry, "")] ++ [(withdrawnEntry, "")]).flatMap fun v => producedFindings v.1)
        (producedFindings withdrawnEntry) := by
  have hproduced : producedFindings withdrawnEntry = [] := by
    rw [producedFindings, if_pos (by decide)]
  have hactive : ∃ row ∈ (processVersions bluntPlatform (fun i j => ⟨i + 1, i + j + 1⟩)
      ([(flaggedEntry, "")] ++ [(withdrawnEntry, "")]) {}).2.malicious,
      row.removedAt = none ∧ row.source = feedName ∧ row.id ∈
        (([(flaggedEntry, "")] ++ [(withdrawnEntry, "")]).flatMap fun v =>
          producedFindings v.1).map MaliciousFinding.id := by decide +kernel
  obtain ⟨row, hrow, hnone, hsource, hid⟩ := hactive
  refine ⟨by decide +kernel, fun hfollows => ?_⟩
  obtain ⟨mf, hmf, -⟩ := hfollows.1 row hrow hnone hsource hid
  rw [hproduced] at hmf
  cases hmf

end Example

end Packmon.Feed.Osv

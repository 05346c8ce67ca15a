import Packmon.Store.Lookup

/-!
# Withdrawing advisories by source

Several feeds list one advisory.  A feed stores it with itself as a source, and takes only itself away
again; the advisory is withdrawn with its last source.  Transactions on one advisory are serialized by
the lock on its row, so an interleaving is a list of transactions (`FeedTransaction.run`), of which one
that fails leaves nothing behind.

What every transaction keeps is that an advisory is active exactly when a source lists it
(`FeedTransaction.active_iff_listed_commit`).
-/

namespace Packmon

open GoText

/-! ## Transactions of feeds -/

/-- A transaction of a feed. -/
inductive FeedTransaction where
  | upsert (t : Stamp) (shouldStore : String → Bool) (vuln : Vulnerability)
  | deleteForSource (t : Stamp) (id source : String)

namespace FeedTransaction

def result (db : Database) : FeedTransaction → Except String Database
  | upsert t shouldStore vuln => upsertVulnerabilityTx t shouldStore vuln db
  | deleteForSource t id source => deleteVulnerabilityForSourceTx t id source db

/-- The database after the transaction; one that fails is rolled back. -/
def commit (db : Database) (tx : FeedTransaction) : Database :=
  match tx.result db with
  | .ok db' => db'
  | .error _ => db

/-- The database after transactions one after another. -/
def run (db : Database) (txs : List FeedTransaction) : Database := txs.foldl commit db

/-- What is stored is not withdrawn, and has one source with a name. -/
def ListsOne : FeedTransaction → Prop
  | upsert _ _ vuln => vuln.withdrawn = none ∧ ∃ source, vuln.sources = [source] ∧ source.source ≠ ""
  | deleteForSource _ _ _ => True

end FeedTransaction

/-- The advisory is there and not withdrawn. -/
def Active (db : Database) (id : String) : Prop :=
  ∃ v ∈ db.vulnerabilities, v.id = id ∧ v.withdrawn = none

/-- A source lists the advisory. -/
def Listed (db : Database) (id : String) : Prop :=
  ∃ row ∈ db.vulnerabilitySources, row.vulnerabilityID = id

instance (db : Database) (id : String) : Decidable (Active db id) :=
  inferInstanceAs (Decidable (∃ v ∈ db.vulnerabilities, _))

instance (db : Database) (id : String) : Decidable (Listed db id) :=
  inferInstanceAs (Decidable (∃ row ∈ db.vulnerabilitySources, _))

/-! ## One transaction -/

section

variable {t : Stamp} {shouldStore : String → Bool} {vuln : Vulnerability} {db db' : Database}
  {id : String}

/-- Storing an advisory with a source lists it, and leaves the sources of the others. -/
lemma listed_upsert_iff (h : upsertVulnerabilityTx t shouldStore vuln db = .ok db')
    (hsources : vuln.sources ≠ []) : Listed db' id ↔ id = vuln.id ∨ Listed db id := by
  obtain ⟨severity, packages, -, rfl⟩ := upsertVulnerabilityTx_eq_ok h
  have hkey (old new : VulnerabilitySourceRow) (hkeys : old.key = new.key) :
      (mergeSource old new).key = new.key := rfl
  have hsource (next : ℕ) : (∃ row ∈ sourceRows vuln next, row.vulnerabilityID = id) ↔ id = vuln.id := by
    constructor
    · rintro ⟨row, hrow, rfl⟩
      obtain ⟨source, -, rfl⟩ := List.mem_map.mp hrow
      rfl
    · rintro rfl
      obtain ⟨source, rest, heq⟩ := List.exists_cons_of_ne_nil hsources
      rw [sourceRows, heq]
      exact ⟨_, List.mem_cons_self, rfl⟩
  rw [← hsource (nextID (db.vulnerabilitySources.map VulnerabilitySourceRow.id))]
  exact Tables.exists_key_upsertAll_iff hkey (P := fun key => key.1 = id)

/-- Taking a source away leaves the other sources of the advisory, and those of the others. -/
lemma listed_deleteSource_iff {other source : String} :
    Listed (db.deleteSource t other source) id ↔
      Listed db id ∧ (id = other →
        ∃ row ∈ db.vulnerabilitySources, row.vulnerabilityID = other ∧ row.source ≠ source) := by
  by_cases hid : id = other
  · subst hid
    refine exists_sourcesWithout_iff.trans ⟨fun h => ⟨?_, fun _ => h⟩, fun h => h.2 rfl⟩
    obtain ⟨row, hrow, hrowID, -⟩ := h
    exact ⟨row, hrow, hrowID⟩
  · rw [and_iff_left fun h => absurd h hid]
    constructor
    · rintro ⟨row, hrow, hrowID⟩
      exact ⟨row, (List.mem_filter.mp hrow).1, hrowID⟩
    · rintro ⟨row, hrow, rfl⟩
      exact ⟨row, List.mem_filter.mpr ⟨hrow, by simp [hid]⟩, rfl⟩

end

namespace FeedTransaction

variable {db : Database} {tx : FeedTransaction} {id : String}

/-- What taking a source away leaves. -/
lemma commit_deleteForSource (db : Database) (t : Stamp) (id source : String) :
    (deleteForSource t id source).commit db = db ∨
      (deleteForSource t id source).commit db = db.deleteSource t id (trimSpace source) := by
  unfold commit result
  dsimp only
  unfold deleteVulnerabilityForSourceTx
  split_ifs
  · exact Or.inl rfl
  · exact Or.inr rfl
  · exact Or.inl rfl

/-- A transaction keeps the active advisories those that a source lists. -/
lemma active_iff_listed_commit (hone : tx.ListsOne) (h : Active db id ↔ Listed db id) :
    Active (tx.commit db) id ↔ Listed (tx.commit db) id := by
  cases tx with
  | upsert t shouldStore vuln =>
    unfold commit
    cases hresult : (upsert t shouldStore vuln).result db with
    | error message => exact h
    | ok db' =>
      obtain ⟨hwithdrawn, source, hsources, -⟩ := hone
      have hlisted : Listed db' id ↔ id = vuln.id ∨ Listed db id :=
        listed_upsert_iff hresult (by simp [hsources])
      have hactive : Active db' id ↔ (vuln.id = id ∧ vuln.withdrawn = none) ∨
          (id ≠ vuln.id ∧ Active db id) := exists_active_upsert_iff hresult
      dsimp only
      rw [hactive, hlisted, h, eq_comm, and_iff_left hwithdrawn]
      by_cases hid : id = vuln.id <;> simp [hid]
  | deleteForSource t other source =>
    rcases commit_deleteForSource db t other source with hcommit | hcommit
    · rw [hcommit]
      exact h
    · rw [hcommit]
      exact exists_active_deleteSource_iff.trans
        ((and_congr_left fun _ => h).trans listed_deleteSource_iff.symm)

/-- So do all transactions of a run. -/
lemma active_iff_listed_run {txs : List FeedTransaction} (hone : ∀ tx ∈ txs, tx.ListsOne)
    (h : Active db id ↔ Listed db id) : Active (run db txs) id ↔ Listed (run db txs) id := by
  induction txs generalizing db with
  | nil => exact h
  | cons tx txs ih =>
    exact ih (fun tx' htx => hone tx' (List.mem_cons_of_mem _ htx))
      (active_iff_listed_commit (hone tx List.mem_cons_self) h)

/-- After every transaction of a run an advisory is active exactly when a source lists it, and a feed that
takes itself away never withdraws an advisory that another feed lists. -/
theorem run_active_iff_listed {txs : List FeedTransaction} (hone : ∀ tx ∈ txs, tx.ListsOne)
    (hstart : Active db id ↔ Listed db id) :
    (Active (run db txs) id ↔ Listed (run db txs) id) ∧
      ∀ t source,
        (∃ row ∈ (run db txs).vulnerabilitySources,
          row.vulnerabilityID = id ∧ row.source ≠ trimSpace source) →
        Active ((deleteForSource t id source).commit (run db txs)) id := by
  have hrun := active_iff_listed_run hone hstart
  refine ⟨hrun, fun t source hother => ?_⟩
  obtain ⟨row, hrow, hrowID, hsource⟩ := hother
  have hactive : Active (run db txs) id := hrun.mpr ⟨row, hrow, hrowID⟩
  rcases commit_deleteForSource (run db txs) t id source with hcommit | hcommit
  · rw [hcommit]
    exact hactive
  · rw [hcommit]
    exact exists_active_deleteSource_iff.mpr ⟨hactive, fun _ => ⟨row, hrow, hrowID, hsource⟩⟩

section Example

/-- One feed stores an advisory. -/
def storedBy (source : String) : FeedTransaction :=
  .upsert ⟨1, 1⟩ (fun _ => true) { id := "OSV-1", sources := [{ source }] }

/-- Two feeds store an advisory and one takes itself away: the advisory is active. -/
theorem run_active_of_second_feed :
    Active (run Database.empty
      [storedBy "osv", storedBy "ghsa", .deleteForSource ⟨2, 2⟩ "OSV-1" "osv"]) "OSV-1" := by
  refine (run_active_iff_listed ?_ (by decide)).1.mpr (by decide)
  simp only [List.forall_mem_cons, List.not_mem_nil, IsEmpty.forall_iff, implies_true, and_true]
  exact ⟨⟨rfl, _, rfl, by decide⟩, ⟨rfl, _, rfl, by decide⟩, trivial⟩

end Example

end FeedTransaction

end Packmon

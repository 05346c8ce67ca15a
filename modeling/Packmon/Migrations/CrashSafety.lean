import Packmon.Migrations.Migrator
import Mathlib.Data.List.Nodup

/-!
# Migration runs are crash safe

Whenever the runs before have stopped, and whatever the server refused, tore or answered too late, the
tables of the migrator are in one of two states: the recorded versions are those of the first migrations,
all clean (`Clean`), or one more is recorded and dirty (`Dirty`).  The repair of indexes and the statements
outside of transactions leave these tables alone (`Aside`), so the argument is about the transactions that
write them.
-/

namespace Packmon.Migrations

open CrashLogic

/-- The versions of the migrations that run in a transaction. -/
def transactional (migrations : List MigrationFile) : List ℕ :=
  (migrations.filter migrationRunsInTransaction).map (·.version)

/-! ## What leaves the tables alone -/

/-- A program that writes neither the rows nor the effects of transactions. -/
def Aside {α : Type} (p : Run α) : Prop :=
  ∀ rows committed, Keeps (fun db => db.rows = rows ∧ db.committed = committed) p

namespace Aside

variable {α β : Type} {p : Run α}

lemma keeps {K : List (ℕ × MigrationRow) → List ℕ → Prop} (h : Aside p) :
    Keeps (fun db => K db.rows db.committed) p := by
  intro answers db hdb
  refine (h db.rows db.committed).consequence ?_ (fun _ hs => hs) ?_ answers db ⟨rfl, rfl⟩
  · rintro s ⟨hrows, hcommitted⟩
    rwa [hrows, hcommitted]
  · rintro a s ⟨hrows, hcommitted⟩
    rwa [hrows, hcommitted]

lemma step {t : Step Database String α} (hnote : ∀ db, (t.note db).rows = db.rows ∧ (t.note db).committed = db.committed)
    (htorn : ∀ db, (t.torn db).rows = db.rows ∧ (t.torn db).committed = db.committed)
    (hrun : ∀ db a db', t.run db = .ok (a, db') → db'.rows = db.rows ∧ db'.committed = db.committed) :
    Aside (.step t) := by
  intro rows committed
  refine Keeps.step ?_ ?_ ?_
  · rintro s ⟨rfl, rfl⟩
    exact hnote s
  · rintro s ⟨rfl, rfl⟩
    exact htorn s
  · rintro s a s' ⟨rfl, rfl⟩ hok
    exact hrun s a s' hok

lemma pure {a : α} : Aside (Pure.pure a) := fun _ _ => Keeps.pure

lemma fail {e : String} : Aside (.fail e : Run α) := fun _ _ => Keeps.fail

lemma read {failure : String} {f : Database → Except String α} : Aside (.read failure f) := fun _ _ => Keeps.read

lemma bind {f : α → Run β} (hp : Aside p) (hf : ∀ a, Aside (f a)) : Aside (p >>= f) :=
  fun rows committed => Keeps.bind (hp rows committed) fun a => hf a rows committed

lemma mapError {f : String → String} (hp : Aside p) : Aside (p.mapError f) :=
  fun rows committed => Keeps.mapError (hp rows committed)

lemma wrap {context : String} (hp : Aside p) : Aside (wrap context p) := hp.mapError

lemma forEach {body : β → Run Unit} {bs : List β} (hbody : ∀ b, Aside (body b)) : Aside (.forEach body bs) :=
  fun rows committed => Keeps.forEach fun b _ => hbody b rows committed

end Aside

namespace Database

variable {db db' : Database} {i : ConcurrentIndexBuild}

lemma build_tables (h : db.build i = .ok ((), db')) : db'.rows = db.rows ∧ db'.committed = db.committed := by
  unfold build at h
  split_ifs at h
  · obtain rfl : db.setRelation i.name .validIndex = db' := by simpa using h
    exact ⟨rfl, rfl⟩
  · obtain rfl : db = db' := by simpa using h
    exact ⟨rfl, rfl⟩

lemma tornBuild_tables : (db.tornBuild i).rows = db.rows ∧ (db.tornBuild i).committed = db.committed := by
  unfold tornBuild
  split_ifs
  · exact ⟨rfl, rfl⟩
  · exact ⟨rfl, rfl⟩

end Database

namespace Binary

variable (b : Binary)

lemma execute_tables {statement : List Char} {db db' : Database} (h : b.execute statement db = .ok ((), db')) :
    db'.rows = db.rows ∧ db'.committed = db.committed := by
  unfold execute at h
  cases hreading : postgresReading statement with
  | comment =>
    obtain rfl : db = db' := by simpa [hreading] using h
    exact ⟨rfl, rfl⟩
  | build i =>
    rw [hreading] at h
    exact Database.build_tables h
  | other =>
    rw [hreading] at h
    obtain rfl : { db with catalog := b.effect statement db.catalog } = db' := by simpa using h
    exact ⟨rfl, rfl⟩

lemma executeTorn_tables (statement : List Char) (db : Database) :
    (b.executeTorn statement db).rows = db.rows ∧ (b.executeTorn statement db).committed = db.committed := by
  unfold executeTorn
  cases postgresReading statement with
  | comment => exact ⟨rfl, rfl⟩
  | build i => exact Database.tornBuild_tables
  | other => exact ⟨rfl, rfl⟩

lemma aside_exec (statement : List Char) : Aside (b.exec statement) :=
  Aside.step (fun _ => ⟨rfl, rfl⟩) (b.executeTorn_tables statement) fun _ _ _ hok => b.execute_tables hok

lemma aside_dropIndex (name : List Char) : Aside (b.dropIndex name) := by
  refine Aside.step (fun _ => ⟨rfl, rfl⟩) (fun _ => ⟨rfl, rfl⟩) ?_
  intro db a db' hok
  obtain rfl : db.setRelation name .absent = db' := by simpa using hok
  exact ⟨rfl, rfl⟩

lemma aside_dropInvalidIndex (name : List Char) : Aside (b.dropInvalidIndex name) := by
  refine Aside.bind (Aside.wrap Aside.read) fun state => ?_
  split_ifs
  · exact Aside.pure
  · exact (b.aside_dropIndex name).wrap

lemma aside_requireValidIndex (name : List Char) : Aside (b.requireValidIndex name) := by
  refine Aside.bind (Aside.wrap Aside.read) fun state => ?_
  split_ifs
  · exact Aside.fail
  · exact Aside.pure

lemma aside_applyNoTransactionStatement (migration : MigrationFile) (statement : List Char) :
    Aside (b.applyNoTransactionStatement migration statement) := by
  refine Aside.wrap ?_
  cases parseConcurrentIndexBuild statement with
  | none => exact b.aside_exec statement
  | some i =>
    refine Aside.bind (b.aside_dropInvalidIndex i.name) fun _ => ?_
    exact Aside.bind (b.aside_exec statement) fun _ => b.aside_requireValidIndex i.name

lemma aside_applyMigrationWithoutTransaction (migration : MigrationFile) :
    Aside (b.applyMigrationWithoutTransaction migration) := by
  unfold applyMigrationWithoutTransaction
  cases splitSQLStatements migration.sql with
  | error e => exact Aside.fail
  | ok statements => exact Aside.forEach (b.aside_applyNoTransactionStatement migration)

lemma aside_buildIndex (name statement : List Char) : Aside (b.buildIndex name statement) :=
  Aside.bind (b.aside_exec statement).wrap fun _ => b.aside_requireValidIndex name

lemma aside_repairIndex (migration : MigrationFile) (statement : List Char) (i : ConcurrentIndexBuild) :
    Aside (b.repairIndex migration statement i) := by
  refine Aside.bind (Aside.wrap Aside.read) fun state => ?_
  cases state with
  | valid => exact Aside.pure
  | invalid =>
    refine Aside.mapError ?_
    exact Aside.bind (b.aside_dropIndex i.name).wrap fun _ => b.aside_buildIndex i.name statement
  | missing =>
    refine Aside.bind (Aside.wrap Aside.read) fun isThere => ?_
    split_ifs
    · exact Aside.pure
    · exact (b.aside_buildIndex i.name statement).mapError

lemma aside_repairStatement (migration : MigrationFile) (statement : List Char) :
    Aside (b.repairStatement migration statement) := by
  unfold repairStatement
  cases parseConcurrentIndexBuild statement with
  | none => exact Aside.pure
  | some i => exact b.aside_repairIndex migration statement i

lemma aside_repairMigration (migration : MigrationFile) : Aside (b.repairMigration migration) := by
  unfold repairMigration
  split_ifs
  · exact Aside.pure
  · cases splitSQLStatements migration.sql with
    | error e => exact Aside.fail
    | ok statements => exact Aside.forEach (b.aside_repairStatement migration)

lemma aside_validateMigrationPrerequisites (migration : MigrationFile) :
    Aside (b.validateMigrationPrerequisites migration) := by
  unfold validateMigrationPrerequisites
  split_ifs
  · exact Aside.read
  · exact Aside.pure

lemma aside_finishMigrationEvent (eventID : ℕ) (success dirty : Bool) :
    Aside (b.finishMigrationEvent eventID success dirty) := by
  refine Aside.step (fun _ => ⟨rfl, rfl⟩) (fun _ => ⟨rfl, rfl⟩) ?_
  intro db a db' hok
  obtain rfl := (Prod.mk.inj (Except.ok.inj hok)).2
  exact ⟨rfl, rfl⟩

/-! ## The tables of the migrator -/

/-- The row of a migration that is done, with its version. -/
def cleanEntry (m : MigrationFile) : ℕ × MigrationRow := (m.version, b.cleanRow m)

def dirtyEntry (m : MigrationFile) : ℕ × MigrationRow := (m.version, b.dirtyRow m)

/-- The migrations `applied` are recorded and clean. -/
def Clean (applied : List MigrationFile) (rows : List (ℕ × MigrationRow)) (committed : List ℕ) : Prop :=
  rows = applied.map b.cleanEntry ∧ committed = transactional applied

/-- The migration `m` is recorded behind those that are clean, with the effects of `effects`. -/
def Begun (applied : List MigrationFile) (m : MigrationFile) (effects : List MigrationFile)
    (rows : List (ℕ × MigrationRow)) (committed : List ℕ) : Prop :=
  rows = applied.map b.cleanEntry ++ [b.dirtyEntry m] ∧ committed = transactional effects

/-- The migration `m` has begun, and its effects are committed or not. -/
def Dirty (applied : List MigrationFile) (m : MigrationFile) (rows : List (ℕ × MigrationRow))
    (committed : List ℕ) : Prop :=
  b.Begun applied m applied rows committed ∨ b.Begun applied m (applied ++ [m]) rows committed

/-- The first migrations are recorded, and none is dirty but the last of them. -/
def Recorded (rows : List (ℕ × MigrationRow)) (committed : List ℕ) : Prop :=
  ∃ applied pending, b.migrations = applied ++ pending ∧
    (b.Clean applied rows committed ∨ ∃ m rest, pending = m :: rest ∧ b.Dirty applied m rows committed)

/-- What the tables are between any two steps. -/
def Invariant (db : Database) : Prop := b.Recorded db.rows db.committed

variable {b} {applied pending rest : List MigrationFile} {m : MigrationFile} {db : Database}

lemma version_lt (h : b.migrations = applied ++ m :: rest) : ∀ m' ∈ applied, m'.version < m.version := by
  have hsorted := b.sorted
  rw [h, List.pairwise_append] at hsorted
  exact fun m' hm' => hsorted.2.2 m' hm' m List.mem_cons_self

lemma row_eq_none (hrows : db.rows = applied.map b.cleanEntry) (hlt : ∀ m' ∈ applied, m'.version < m.version) :
    db.row m.version = none := by
  rw [Database.row, hrows, Option.map_eq_none_iff, List.find?_eq_none]
  intro r hr
  obtain ⟨m', hm', rfl⟩ := List.mem_map.mp hr
  simp [cleanEntry, (hlt m' hm').ne]

/-- A migration is recorded as dirty behind those that are clean. -/
lemma safe_startMigrationEventAndMarkDirty (h : b.migrations = applied ++ m :: rest) :
    Safe b.Invariant (fun db => b.Clean applied db.rows db.committed) (b.startMigrationEventAndMarkDirty m)
      fun _ db => b.Begun applied m applied db.rows db.committed := by
  have hbefore : ∀ db : Database, b.Clean applied db.rows db.committed → b.Invariant db :=
    fun db hdb => ⟨applied, m :: rest, h, .inl hdb⟩
  refine Safe.step hbefore hbefore hbefore ?_
  rintro db eventID db' ⟨hrows, hcommitted⟩ hok
  obtain rfl := (Prod.mk.inj (Except.ok.inj hok)).2
  have hbegun : b.Begun applied m applied
      (db.upsertRow m.version (b.dirtyRow m) fun _ => b.dirtyRow m).rows
      (db.upsertRow m.version (b.dirtyRow m) fun _ => b.dirtyRow m).committed := by
    have hnone := row_eq_none hrows (version_lt h)
    simp only [Database.upsertRow, hnone, Option.isSome_none, Bool.false_eq_true, if_false]
    exact ⟨by rw [hrows]; rfl, hcommitted⟩
  exact ⟨hbegun, applied, m :: rest, h, .inr ⟨m, rest, rfl, .inl hbegun⟩⟩

/-- The statements of a migration: with a value its effects are there. -/
lemma safe_applyStatements (h : b.migrations = applied ++ m :: rest) :
    Safe b.Invariant (fun db => b.Begun applied m applied db.rows db.committed) (b.applyStatements m)
      fun _ db => b.Begun applied m (applied ++ [m]) db.rows db.committed := by
  have hbegun : ∀ effects, effects = applied ∨ effects = applied ++ [m] → ∀ db : Database,
      b.Begun applied m effects db.rows db.committed → b.Invariant db := by
    rintro effects (rfl | rfl) db hdb
    · exact ⟨effects, m :: rest, h, .inr ⟨m, rest, rfl, .inl hdb⟩⟩
    · exact ⟨applied, m :: rest, h, .inr ⟨m, rest, rfl, .inr hdb⟩⟩
  unfold applyStatements
  split_ifs with htransaction
  · -- outside of a transaction there is nothing to commit
    have hnone : transactional (applied ++ [m]) = transactional applied := by
      simp [transactional, by simpa using htransaction]
    refine ((b.aside_applyMigrationWithoutTransaction m).keeps.safe (hbegun applied (.inl rfl))).consequence
      (fun _ hs => hs) (fun _ hs => hs) ?_
    rintro _ db ⟨hrows, hcommitted⟩
    exact ⟨hrows, hcommitted.trans hnone.symm⟩
  · have hone : transactional (applied ++ [m]) = transactional applied ++ [m.version] := by
      simp [transactional, by simpa using htransaction]
    refine Safe.step (hbegun applied (.inl rfl)) (hbegun applied (.inl rfl)) (hbegun applied (.inl rfl)) ?_
    rintro db _ db' ⟨hrows, hcommitted⟩ hok
    obtain rfl := (Prod.mk.inj (Except.ok.inj hok)).2
    have hdone : b.Begun applied m (applied ++ [m]) db.rows (db.committed ++ [m.version]) :=
      ⟨hrows, by rw [hone, hcommitted]⟩
    exact ⟨hdone, hbegun _ (.inr rfl) _ hdone⟩

/-- A migration whose effects are there is recorded as clean. -/
lemma safe_finishSuccessfulMigrationEvent (h : b.migrations = applied ++ m :: rest) (eventID : ℕ) :
    Safe b.Invariant (fun db => b.Begun applied m (applied ++ [m]) db.rows db.committed)
      (b.finishSuccessfulMigrationEvent eventID m)
      fun _ db => b.Clean (applied ++ [m]) db.rows db.committed := by
  have hbefore : ∀ db : Database, b.Begun applied m (applied ++ [m]) db.rows db.committed → b.Invariant db :=
    fun db hdb => ⟨applied, m :: rest, h, .inr ⟨m, rest, rfl, .inr hdb⟩⟩
  refine Safe.step hbefore hbefore hbefore ?_
  rintro db _ db' ⟨hrows, hcommitted⟩ hok
  obtain rfl := (Prod.mk.inj (Except.ok.inj hok)).2
  have hothers : ∀ r ∈ applied.map b.cleanEntry,
      (if r.1 = m.version then (r.1, b.cleanRow m) else r) = r := by
    intro r hr
    obtain ⟨m', hm', rfl⟩ := List.mem_map.mp hr
    exact if_neg (version_lt h m' hm').ne
  have hclean : b.Clean (applied ++ [m]) (db.updateRow m.version fun _ => b.cleanRow m).rows db.committed := by
    refine ⟨?_, hcommitted⟩
    rw [Database.updateRow, hrows, List.map_append, List.map_append, List.map_congr_left hothers]
    simp [dirtyEntry, cleanEntry]
  exact ⟨hclean, applied ++ [m], rest, by simp [h], .inl hclean⟩

lemma safe_applyMigration (h : b.migrations = applied ++ m :: rest) :
    Safe b.Invariant (fun db => b.Clean applied db.rows db.committed) (b.applyMigration m)
      fun _ db => b.Clean (applied ++ [m]) db.rows db.committed := by
  have hbefore : ∀ db : Database, b.Clean applied db.rows db.committed → b.Invariant db :=
    fun db hdb => ⟨applied, m :: rest, h, .inl hdb⟩
  refine Safe.bind ((b.aside_validateMigrationPrerequisites m).keeps.safe hbefore) fun _ => ?_
  refine Safe.bind (safe_startMigrationEventAndMarkDirty h) fun eventID => ?_
  refine Safe.onError ?_ ((b.aside_finishMigrationEvent eventID false true).keeps (K := b.Recorded))
  exact Safe.bind (safe_applyStatements h) fun _ => safe_finishSuccessfulMigrationEvent h eventID

/-! ## A run -/

lemma current_eq_some {init : List (ℕ × MigrationRow)} {r : ℕ × MigrationRow} (hrows : db.rows = init ++ [r])
    (hlt : ∀ r' ∈ init, r'.1 < r.1) : db.current = some r := by
  rw [Database.current, hrows, List.argmax_concat]
  cases hmax : init.argmax Prod.fst with
  | none => rfl
  | some r' =>
    have hr' : r' ∈ init := List.argmax_mem hmax
    simp [hlt r' hr']

lemma cleanEntry_lt (h : b.migrations = applied ++ m :: rest) : ∀ r ∈ applied.map b.cleanEntry, r.1 < m.version := by
  intro r hr
  obtain ⟨m', hm', rfl⟩ := List.mem_map.mp hr
  exact version_lt h m' hm'

/-- The highest version is that of the last migration that is clean. -/
lemma current_of_clean (h : b.migrations = applied ++ pending) (hclean : b.Clean applied db.rows db.committed) :
    db.current = applied.getLast?.map b.cleanEntry := by
  rcases List.eq_nil_or_concat applied with rfl | ⟨applied, m, rfl⟩
  · simp [Database.current, hclean.1]
  · rw [List.concat_eq_append] at *
    have hsplit : b.migrations = applied ++ m :: pending := by simp [h]
    rw [current_eq_some (by rw [hclean.1, List.map_append, List.map_singleton]) (cleanEntry_lt hsplit)]
    simp

lemma current_of_begun {effects : List MigrationFile} (h : b.migrations = applied ++ m :: rest)
    (hbegun : b.Begun applied m effects db.rows db.committed) : db.current = some (b.dirtyEntry m) :=
  current_eq_some hbegun.1 (cleanEntry_lt h)

lemma upTo_eq {current : ℕ} (h : b.migrations = applied ++ pending) (hle : ∀ m ∈ applied, m.version ≤ current)
    (hlt : ∀ m ∈ pending, current < m.version) : b.upTo current = applied := by
  rw [upTo, h, List.takeWhile_append_of_pos (by simpa using hle)]
  cases pending with
  | nil => simp
  | cons m rest => simp [hlt m List.mem_cons_self]

/-- Nothing is completed in a row that is complete. -/
lemma backfillRow_of_clean (hclean : b.Clean applied db.rows db.committed) (hm : m ∈ applied) :
    b.backfillRow db m = db := by
  have hrow : (db.row m.version).isSome = true := by
    rw [Database.row, Option.isSome_map, hclean.1, List.find?_isSome]
    exact ⟨b.cleanEntry m, List.mem_map_of_mem hm, by simp [cleanEntry]⟩
  rw [backfillRow, Database.upsertRow, if_pos hrow, Database.updateRow]
  congr 1
  refine (List.map_congr_left fun r hr => ?_).trans (List.map_id' _)
  obtain ⟨m', -, rfl⟩ := List.mem_map.mp (hclean.1 ▸ hr)
  simp [cleanEntry, cleanRow]

lemma foldl_backfillRow {ms : List MigrationFile} (hclean : b.Clean applied db.rows db.committed)
    (hms : ∀ m ∈ ms, m ∈ applied) : ms.foldl b.backfillRow db = db := by
  induction ms with
  | nil => rfl
  | cons m ms ih =>
    rw [List.foldl_cons, backfillRow_of_clean hclean (hms m List.mem_cons_self)]
    exact ih fun m' hm' => hms m' (List.mem_cons_of_mem m hm')

/-- The metadata, the checks and the repairs leave clean tables as they are. -/
lemma safe_checkRecorded {current : ℕ} (h : b.migrations = applied ++ pending)
    (hle : ∀ m ∈ applied, m.version ≤ current) (hlt : ∀ m ∈ pending, current < m.version) :
    Safe b.Invariant (fun db => b.Clean applied db.rows db.committed) (b.checkRecorded current)
      fun _ db => b.Clean applied db.rows db.committed := by
  refine Keeps.safe ?_ fun db hdb => ⟨applied, pending, h, .inl hdb⟩
  refine Keeps.bind ?_ fun _ => Keeps.bind ?_ fun _ => ?_
  · refine Keeps.step (fun _ hs => hs) (fun _ hs => hs) ?_
    intro db _ db' hclean hok
    obtain rfl := (Prod.mk.inj (Except.ok.inj hok)).2
    rwa [foldl_backfillRow hclean (by simp [upTo_eq h hle hlt])]
  · exact Keeps.forEach fun _ _ => Keeps.read
  · exact (Aside.forEach b.aside_repairMigration).keeps

/-- The loop over the migrations: those that are recorded are passed over, the others are applied in their order. -/
lemma safe_forEach_applyUnlessRecorded {current : Option ℕ} (h : b.migrations = applied ++ pending)
    (hle : ∀ m ∈ applied, (current.any fun version => m.version ≤ version) = true)
    (hlt : ∀ m ∈ pending, (current.any fun version => m.version ≤ version) = false) :
    Safe b.Invariant (fun db => b.Clean applied db.rows db.committed)
      (.forEach (b.applyUnlessRecorded current) b.migrations)
      fun _ db => b.Clean b.migrations db.rows db.committed := by
  -- `passed` is behind the loop; of what is ahead, `skipped` is recorded
  let J (ahead : List MigrationFile) (db : Database) : Prop :=
    ∃ passed skipped todo, b.migrations = passed ++ skipped ++ todo ∧ ahead = skipped ++ todo ∧
      (∀ m ∈ skipped, (current.any fun version => m.version ≤ version) = true) ∧
      (∀ m ∈ todo, (current.any fun version => m.version ≤ version) = false) ∧
      b.Clean (passed ++ skipped) db.rows db.committed
  have hloop : Safe b.Invariant (J b.migrations) (.forEach (b.applyUnlessRecorded current) b.migrations) fun _ => J [] := by
    refine Safe.forEach J ?_
    rintro m ahead answers db ⟨passed, skipped, todo, hsplit, hahead, hskipped, htodo, hclean⟩
    cases skipped with
    | cons m' skipped =>
      obtain ⟨rfl, rfl⟩ : m = m' ∧ ahead = skipped ++ todo := by simpa using hahead
      rw [applyUnlessRecorded, if_pos (hskipped m List.mem_cons_self)]
      have hnext : J (skipped ++ todo) db := by
        refine ⟨passed ++ [m], skipped, todo, by simpa using hsplit, rfl, ?_, htodo, by simpa using hclean⟩
        exact fun m' hm' => hskipped m' (List.mem_cons_of_mem m hm')
      exact hnext
    | nil =>
      obtain rfl : m :: ahead = todo := by simpa using hahead
      rw [applyUnlessRecorded, if_neg (by simp [htodo m List.mem_cons_self])]
      have hsplit' : b.migrations = passed ++ m :: ahead := by simpa using hsplit
      refine (safe_applyMigration hsplit').consequence (fun _ hs => hs) (fun _ hs => hs) ?_ answers db
        (by simpa using hclean)
      intro _ db' hclean'
      refine ⟨passed ++ [m], [], ahead, by simp [hsplit'], rfl, by simp, ?_, by simpa using hclean'⟩
      exact fun m' hm' => htodo m' (List.mem_cons_of_mem m hm')
  refine hloop.consequence (fun _ hs => hs) ?_ ?_
  · intro db hclean
    exact ⟨[], applied, pending, by simpa using h, h, hle, hlt, by simpa using hclean⟩
  · rintro _ db ⟨passed, skipped, todo, hsplit, hahead, -, -, hclean⟩
    obtain ⟨rfl, rfl⟩ : skipped = [] ∧ todo = [] := by simpa using hahead
    rw [hsplit, List.append_nil]
    exact hclean

lemma keeps_ensureVersionTable {K : Database → Prop} : Keeps K b.ensureVersionTable :=
  Keeps.forEach fun _ _ => Keeps.mapError Keeps.read

/-- A run over clean tables. -/
lemma safe_runContext_of_clean (h : b.migrations = applied ++ pending) :
    Safe b.Invariant (fun db => b.Clean applied db.rows db.committed) b.runContext
      fun _ db => b.Clean b.migrations db.rows db.committed := by
  have hbefore : ∀ db : Database, b.Clean applied db.rows db.committed → b.Invariant db :=
    fun db hdb => ⟨applied, pending, h, .inl hdb⟩
  refine Safe.bind (keeps_ensureVersionTable.safe hbefore) fun _ => ?_
  refine Safe.bind (Q := fun recorded db => b.Clean applied db.rows db.committed ∧
    recorded = applied.getLast?.map fun m => (m.version, false)) (Safe.read hbefore ?_) fun recorded => ?_
  · intro db recorded hclean hok
    refine ⟨hclean, ?_⟩
    rw [← Except.ok.inj hok, current_of_clean h hclean, Option.map_map]
    rfl
  refine Safe.of_forall (fun db hdb => hdb.2) fun hrecorded => ?_
  have hclean : ∀ {p : Run Unit} {Q : Unit → Database → Prop},
      Safe b.Invariant (fun db => b.Clean applied db.rows db.committed) p Q →
        Safe b.Invariant (fun db => b.Clean applied db.rows db.committed ∧
          recorded = applied.getLast?.map fun m => (m.version, false)) p Q :=
    fun hp => hp.consequence (fun _ hs => hs) (fun _ hs => hs.1) fun _ _ hs => hs
  refine hclean ?_
  rcases List.eq_nil_or_concat applied with rfl | ⟨applied, m, rfl⟩
  · subst hrecorded
    exact safe_forEach_applyUnlessRecorded h (by simp) (by simp)
  · rw [List.concat_eq_append] at *
    obtain rfl : recorded = some (m.version, false) := by simpa using hrecorded
    have hsplit : b.migrations = applied ++ m :: pending := by simp [h]
    have hle : ∀ m' ∈ applied ++ [m], m'.version ≤ m.version := by
      intro m' hm'
      rcases List.mem_append.mp hm' with hm' | hm'
      · exact (version_lt hsplit m' hm').le
      · exact (List.mem_singleton.mp hm').symm ▸ le_rfl
    have hlt : ∀ m' ∈ pending, m.version < m'.version := by
      have hsorted := b.sorted
      rw [h, List.pairwise_append] at hsorted
      exact fun m' hm' => hsorted.2.2 m (by simp) m' hm'
    dsimp only
    rw [if_neg Bool.false_ne_true]
    split_ifs with hnewer
    · exact Safe.fail hbefore
    · refine Safe.bind (safe_checkRecorded h hle hlt) fun _ => ?_
      exact safe_forEach_applyUnlessRecorded h (by simpa using hle) (by simpa using hlt)

/-- A run over a dirty database ends with an error before it does anything. -/
lemma safe_runContext_of_dirty {db₀ : Database} {r : ℕ × MigrationRow} (hcurrent : db₀.current = some r)
    (hdirty : r.2.dirty = true) : Safe (fun db => db = db₀) (fun db => db = db₀) b.runContext fun _ _ => False := by
  refine Safe.bind keeps_ensureVersionTable fun _ => ?_
  refine Safe.bind (Q := fun recorded db => db = db₀ ∧ recorded = some (r.1, true))
    (Safe.read (fun _ hs => hs) ?_) fun recorded => ?_
  · rintro db recorded rfl hok
    refine ⟨rfl, ?_⟩
    rw [← Except.ok.inj hok, hcurrent, Option.map_some, hdirty]
  refine Safe.of_forall (fun db hdb => hdb.2) fun hrecorded => ?_
  subst hrecorded
  exact Safe.fail fun db hdb => hdb.1

lemma keeps_runContext_of_dirty {db₀ : Database} {r : ℕ × MigrationRow} (hcurrent : db₀.current = some r)
    (hdirty : r.2.dirty = true) : Keeps (fun db => db = db₀) b.runContext :=
  (safe_runContext_of_dirty hcurrent hdirty).consequence (fun _ hs => hs) (fun _ hs => hs) fun _ _ => False.elim

lemma keeps_runContext : Keeps b.Invariant b.runContext := by
  rintro answers db ⟨applied, pending, h, hclean | ⟨m, rest, rfl, hdirty⟩⟩
  · exact (safe_runContext_of_clean h).consequence (fun _ hs => hs) (fun _ hs => hs)
      (fun _ _ hs => ⟨b.migrations, [], by simp, .inl hs⟩) answers db hclean
  · have hcurrent : db.current = some (b.dirtyEntry m) := by
      rcases hdirty with hbegun | hbegun
      · exact current_of_begun h hbegun
      · exact current_of_begun h hbegun
    have hinv : b.Invariant db := ⟨applied, m :: rest, h, .inr ⟨m, rest, rfl, hdirty⟩⟩
    refine (keeps_runContext_of_dirty hcurrent rfl).consequence ?_ (fun _ hs => hs) ?_ answers db rfl
    · rintro _ rfl
      exact hinv
    · rintro _ _ rfl
      exact hinv

/-! ## All runs -/

lemma nodup_transactional {ms : List MigrationFile} (h : ms <+: b.migrations) : (transactional ms).Nodup := by
  have hsorted : ms.Pairwise fun m m' => m.version < m'.version := b.sorted.sublist h.sublist
  have hversions : (transactional ms).Pairwise (· < ·) := by
    rw [transactional, List.pairwise_map]
    exact hsorted.sublist List.filter_sublist
  exact hversions.imp fun hlt => hlt.ne

lemma count_transactional {ms : List MigrationFile} (h : ms <+: b.migrations) (hm : m ∈ ms)
    (htransaction : migrationRunsInTransaction m = true) : (transactional ms).count m.version = 1 := by
  refine List.count_eq_one_of_mem (nodup_transactional h) ?_
  exact List.mem_map.mpr ⟨m, List.mem_filter.mpr ⟨hm, htransaction⟩, rfl⟩

/-- What is below a recorded version is applied. -/
lemma mem_applied_of_lt {recorded : List MigrationFile} {v : ℕ} (h : b.migrations = recorded ++ rest)
    (hm : m ∈ b.migrations) (hv : v ∈ recorded.map (·.version)) (hlt : m.version < v) : m ∈ recorded := by
  rw [h] at hm
  refine (List.mem_append.mp hm).resolve_right fun hrest => ?_
  obtain ⟨m', hm', rfl⟩ := List.mem_map.mp hv
  have hsorted := b.sorted
  rw [h, List.pairwise_append] at hsorted
  exact absurd (hsorted.2.2 m' hm' m hrest) hlt.asymm

/-- What the invariant says of the rows and of the effects. -/
lemma Invariant.spec (hinv : b.Invariant db) :
    ∃ recorded effects, recorded <+: b.migrations ∧ effects <+: b.migrations ∧
      db.rows.map Prod.fst = recorded.map (·.version) ∧ db.committed = transactional effects ∧
      (∀ r ∈ db.rows, r.2.dirty = true → ∀ r' ∈ db.rows, r'.1 ≤ r.1) ∧
      ∀ m ∈ b.migrations, (∃ r ∈ db.rows, m.version < r.1) → m ∈ effects := by
  obtain ⟨applied, pending, h, ⟨hrows, hcommitted⟩ | ⟨m, rest, rfl, hdirty⟩⟩ := hinv
  · have hversions : db.rows.map Prod.fst = applied.map (·.version) := by simp [hrows, cleanEntry, Function.comp_def]
    refine ⟨applied, applied, ⟨pending, h.symm⟩, ⟨pending, h.symm⟩, hversions, hcommitted, ?_, ?_⟩
    · intro r hr hrdirty
      rw [hrows] at hr
      obtain ⟨m, -, rfl⟩ := List.mem_map.mp hr
      simp [cleanEntry, cleanRow] at hrdirty
    · rintro m hm ⟨r, hr, hlt⟩
      exact mem_applied_of_lt h hm (hversions ▸ List.mem_map_of_mem hr) hlt
  · have hinit : applied <+: b.migrations := ⟨m :: rest, h.symm⟩
    have hinit' : applied ++ [m] <+: b.migrations := ⟨rest, by simp [h]⟩
    -- committed or not, what is below the dirty version is
    obtain ⟨effects, hsub, heffects, hrows, hcommitted⟩ : ∃ effects, applied ⊆ effects ∧ effects <+: b.migrations ∧
        b.Begun applied m effects db.rows db.committed := by
      rcases hdirty with hbegun | hbegun
      · exact ⟨applied, List.Subset.refl _, hinit, hbegun⟩
      · exact ⟨applied ++ [m], List.subset_append_left _ _, hinit', hbegun⟩
    have hversions : db.rows.map Prod.fst = (applied ++ [m]).map (·.version) := by
      simp [hrows, cleanEntry, dirtyEntry, Function.comp_def]
    have hmax : ∀ r' ∈ db.rows, r'.1 ≤ m.version := by
      intro r' hr'
      rw [hrows] at hr'
      rcases List.mem_append.mp hr' with hr' | hr'
      · exact (cleanEntry_lt h r' hr').le
      · exact (List.mem_singleton.mp hr').symm ▸ le_rfl
    refine ⟨applied ++ [m], effects, hinit', heffects, hversions, hcommitted, ?_, ?_⟩
    · intro r hr hrdirty
      rw [hrows] at hr
      rcases List.mem_append.mp hr with hr | hr
      · obtain ⟨m', -, rfl⟩ := List.mem_map.mp hr
        simp [cleanEntry, cleanRow] at hrdirty
      · exact (List.mem_singleton.mp hr).symm ▸ hmax
    · rintro m' hm' ⟨r, hr, hlt⟩
      have hsplit : b.migrations = applied ++ [m] ++ rest := by simp [h]
      have hrecorded := mem_applied_of_lt hsplit hm' (hversions ▸ List.mem_map_of_mem hr) hlt
      rcases List.mem_append.mp hrecorded with happlied | hlast
      · exact hsub happlied
      · obtain rfl := List.mem_singleton.mp hlast
        exact absurd hlt (hmax r hr).not_gt

/-- Behind any runs from an empty database, each of them with any answers and stopped anywhere: the
recorded versions are those of the first migrations; none is dirty but the highest; a transactional
migration below a recorded version has been committed exactly once; and once the highest version is
dirty, later runs send no statement of a migration. -/
theorem runContext_crash_safe (b : Binary) (catalog : Catalog) (answers : List (List Answer)) :
    let db := b.runContext.runs answers { catalog }
    (∃ recorded, recorded <+: b.migrations ∧ db.rows.map Prod.fst = recorded.map (·.version)) ∧
      (∀ r ∈ db.rows, r.2.dirty = true → ∀ r' ∈ db.rows, r'.1 ≤ r.1) ∧
      (∀ m ∈ b.migrations, migrationRunsInTransaction m = true → (∃ r ∈ db.rows, m.version < r.1) →
        db.committed.count m.version = 1) ∧
      ∀ r, db.current = some r → r.2.dirty = true →
        ∀ later, (b.runContext.runs later db).sent = db.sent := by
  intro db
  have hempty : b.Invariant { catalog } := ⟨[], b.migrations, rfl, .inl ⟨rfl, rfl⟩⟩
  have hinv : b.Invariant db := Safe.runs keeps_runContext hempty answers
  obtain ⟨recorded, effects, hrecorded, heffects, hversions, hcommitted, hhighest, hbelow⟩ := hinv.spec
  refine ⟨⟨recorded, hrecorded, hversions⟩, hhighest, ?_, ?_⟩
  · intro m hm htransaction hlt
    rw [hcommitted]
    exact count_transactional heffects (hbelow m hm hlt) htransaction
  · intro r hcurrent hdirty later
    have hsame : b.runContext.runs later db = db := Safe.runs (keeps_runContext_of_dirty hcurrent hdirty) rfl later
    rw [hsame]

/-- Behind any runs from an empty database, a run that reports success leaves every migration recorded as
applied, under its name and checksum, and every transactional one committed exactly once. -/
theorem runContext_complete (b : Binary) (catalog : Catalog) (before : List (List Answer)) {answers : List Answer}
    (hok : (b.runContext answers (b.runContext.runs before { catalog })).1 = .value ()) :
    let db := (b.runContext answers (b.runContext.runs before { catalog })).2.2
    db.rows = b.migrations.map (fun m => (m.version, b.cleanRow m)) ∧
      ∀ m ∈ b.migrations, migrationRunsInTransaction m = true → db.committed.count m.version = 1 := by
  intro db
  have hempty : b.Invariant { catalog } := ⟨[], b.migrations, rfl, .inl ⟨rfl, rfl⟩⟩
  obtain ⟨applied, pending, h, hclean | ⟨m, rest, rfl, hdirty⟩⟩ := Safe.runs keeps_runContext hempty before
  · have hend := safe_runContext_of_clean h answers _ hclean
    rw [hok] at hend
    refine ⟨hend.1, fun m hm htransaction => ?_⟩
    rw [hend.2]
    exact count_transactional List.prefix_rfl hm htransaction
  · -- a dirty database is refused
    have hcurrent : (b.runContext.runs before { catalog }).current = some (b.dirtyEntry m) := by
      rcases hdirty with hbegun | hbegun
      · exact current_of_begun h hbegun
      · exact current_of_begun h hbegun
    have hend := @safe_runContext_of_dirty b _ _ hcurrent rfl answers _ rfl
    rw [hok] at hend
    exact hend.elim

end Binary

end Packmon.Migrations

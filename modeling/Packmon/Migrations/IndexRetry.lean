import Packmon.Migrations.CrashSafety

/-!
# Retrying a migration that only builds indexes

A run that finds a dirty version refuses, and for a migration that only builds indexes it names a way
out: delete the dirty row and run again.  When the database reads the statements of the migration as the
program does, a rerun that ends without an error leaves the version clean and all its indexes valid,
whatever the interrupted run has left (`retry_sound`).

The argument needs no invariant of the interrupted run.  An index that is valid stays valid: only invalid
ones are dropped and only free names are built.
-/

namespace Packmon.Migrations

open CrashLogic

namespace MigrationFile

variable (m : MigrationFile)

def statements : List (List Char) := (splitSQLStatements m.sql).toOption.getD []

/-- The database reads every statement as the program does. -/
def ReadAlike : Prop := ∀ statement ∈ m.statements, postgresReading statement = programReading statement

instance : Decidable m.ReadAlike :=
  inferInstanceAs (Decidable (∀ statement ∈ m.statements, postgresReading statement = programReading statement))

/-- The indexes a migration builds, under the names the database gives them. -/
def Builds (name : List Char) : Prop :=
  ∃ statement ∈ m.statements, ∃ i, postgresReading statement = .build i ∧ i.name = name

end MigrationFile

/-- `DELETE FROM schema_migrations WHERE version = … AND dirty`. -/
def Database.deleteDirty (db : Database) (version : ℕ) : Database :=
  { db with rows := db.rows.filter fun r => !(r.1 = version && r.2.dirty) }

/-- The statements of a migration leave an index valid, those apart that build indexes themselves. -/
def Binary.Spares (b : Binary) (m : MigrationFile) (name : List Char) : Prop :=
  ∀ statement, (migrationRunsInTransaction m = true ∧ statement = m.sql ∨
      statement ∈ m.statements ∧ postgresReading statement = .other) →
    ∀ catalog : Catalog, catalog name = .validIndex → b.effect statement catalog name = .validIndex

/-! ## Programs that are followed only where they succeed -/

/-- What holds before the program holds behind it when it ends with a value. -/
def Passes {α : Type} (K : Database → Prop) (p : Run α) : Prop := Safe (fun _ => True) K p fun _ => K

namespace Passes

variable {α β : Type} {K : Database → Prop} {p : Run α}

lemma of_keeps (h : Keeps K p) : Passes K p := h.safe fun _ _ => trivial

lemma pure {a : α} : Passes K (Pure.pure a) := of_keeps Keeps.pure

lemma fail {e : String} : Passes K (.fail e : Run α) := of_keeps Keeps.fail

lemma read {failure : String} {f : Database → Except String α} : Passes K (.read failure f) := of_keeps Keeps.read

lemma bind {f : α → Run β} (hp : Passes K p) (hf : ∀ a, Passes K (f a)) : Passes K (p >>= f) := Safe.bind hp hf

lemma wrap {context : String} (hp : Passes K p) : Passes K (wrap context p) := Safe.mapError hp

lemma step {t : Step Database String α} (hrun : ∀ db a db', K db → t.run (t.note db) = .ok (a, db') → K db') :
    Passes K (.step t) :=
  Safe.step (fun _ _ => trivial) (fun _ _ => trivial) (fun _ _ => trivial)
    fun db a db' hdb hok => ⟨hrun db a db' hdb hok, trivial⟩

lemma forEach {body : β → Run Unit} {bs : List β} (hbody : ∀ x ∈ bs, Passes K (body x)) :
    Passes K (.forEach body bs) := by
  induction bs with
  | nil => exact pure
  | cons x rest ih =>
    exact bind (hbody x List.mem_cons_self) fun _ => ih fun y hy => hbody y (List.mem_cons_of_mem x hy)

end Passes

lemma safe_trivial {α : Type} {P : Database → Prop} {p : Run α} : Safe (fun _ => True) P p fun _ _ => True := by
  intro answers db _
  rcases p answers db with ⟨outcome, rest, db'⟩
  cases outcome with
  | value a => trivial
  | error e => trivial
  | stopped => trivial

/-! ## Valid indexes stay valid -/

/-- An index is valid. -/
def Database.Valid (name : List Char) (db : Database) : Prop := db.catalog name = .validIndex

namespace Database

variable {db db' : Database} {name : List Char} {i : ConcurrentIndexBuild}

lemma build_valid (hvalid : db.Valid name) (h : db.build i = .ok ((), db')) : db'.Valid name := by
  unfold build at h
  split_ifs at h with htable hfree hskip
  · obtain rfl : db.setRelation i.name .validIndex = db' := by simpa using h
    by_cases hname : name = i.name
    · simp [Valid, setRelation, hname]
    · simpa [Valid, setRelation, hname] using hvalid
  · obtain rfl : db = db' := by simpa using h
    exact hvalid

end Database

namespace Binary

variable {b : Binary} {name : List Char} {m m' : MigrationFile}

lemma passes_exec {statement : List Char}
    (h : postgresReading statement = .other → ∀ catalog : Catalog, catalog name = .validIndex →
      b.effect statement catalog name = .validIndex) :
    Passes (Database.Valid name) (b.exec statement) := by
  refine Passes.step fun db _ db' hvalid hok => ?_
  have hsent : (db.send statement).Valid name := hvalid
  dsimp only at hok
  unfold execute at hok
  cases hreading : postgresReading statement with
  | comment =>
    obtain rfl : db.send statement = db' := by simpa [hreading] using hok
    exact hsent
  | build i =>
    rw [hreading] at hok
    exact Database.build_valid hsent hok
  | other =>
    rw [hreading] at hok
    obtain rfl : { db.send statement with catalog := b.effect statement (db.send statement).catalog } = db' := by
      simpa using hok
    exact h hreading db.catalog hvalid

/-- Only an invalid index is dropped. -/
lemma passes_dropInvalidIndex (other : List Char) : Passes (Database.Valid name) (b.dropInvalidIndex other) := by
  refine Safe.bind (Q := fun state db => db.Valid name ∧ state = (db.catalog other).indexState)
    (Safe.mapError (Safe.read (fun _ _ => trivial) fun db state hvalid hok => ⟨hvalid, (Except.ok.inj hok).symm⟩))
    fun state => ?_
  split_ifs with hstate
  · exact Safe.pure fun db hdb => hdb.1
  · obtain rfl : state = .invalid := by simpa using hstate
    refine Safe.mapError (Safe.step (fun _ _ => trivial) (fun _ _ => trivial) (fun _ _ => trivial) ?_)
    rintro db _ db' ⟨hvalid, hinvalid⟩ hok
    obtain rfl : db.setRelation other .absent = db' := by simpa using hok
    have hname : name ≠ other := by
      rintro rfl
      rw [hvalid] at hinvalid
      exact absurd hinvalid (by decide)
    exact ⟨by simpa [Database.Valid, Database.setRelation, hname] using hvalid, trivial⟩

lemma passes_requireValidIndex {K : Database → Prop} (other : List Char) : Passes K (b.requireValidIndex other) := by
  refine Passes.bind (Passes.wrap Passes.read) fun state => ?_
  split_ifs
  · exact Passes.fail
  · exact Passes.pure

/-- With a value the index is valid. -/
lemma safe_requireValidIndex {P : Database → Prop} :
    Safe (fun _ => True) P (b.requireValidIndex name) fun _ => Database.Valid name := by
  refine Safe.bind (Q := fun state db => state = (db.catalog name).indexState)
    (Safe.mapError (Safe.read (fun _ _ => trivial) fun db state _ hok => (Except.ok.inj hok).symm)) fun state => ?_
  split_ifs with hstate
  · exact Safe.fail fun _ _ => trivial
  · obtain rfl : state = .valid := by simpa using hstate
    refine Safe.pure fun db hdb => ?_
    rw [Database.Valid]
    cases hrelation : db.catalog name with
    | validIndex => rfl
    | absent => simp [hrelation, Relation.indexState] at hdb
    | table => simp [hrelation, Relation.indexState] at hdb
    | invalidIndex => simp [hrelation, Relation.indexState] at hdb

lemma passes_applyNoTransactionStatement {statement : List Char}
    (h : postgresReading statement = .other → ∀ catalog : Catalog, catalog name = .validIndex →
      b.effect statement catalog name = .validIndex) :
    Passes (Database.Valid name) (b.applyNoTransactionStatement m statement) := by
  refine Passes.wrap ?_
  cases parseConcurrentIndexBuild statement with
  | none => exact passes_exec h
  | some i =>
    refine Passes.bind (passes_dropInvalidIndex i.name) fun _ => ?_
    exact Passes.bind (passes_exec h) fun _ => passes_requireValidIndex i.name

/-- A build that succeeds leaves its index valid. -/
lemma safe_applyNoTransactionStatement {P : Database → Prop} {statement : List Char} {i : ConcurrentIndexBuild}
    (h : parseConcurrentIndexBuild statement = some i) :
    Safe (fun _ => True) P (b.applyNoTransactionStatement m statement) fun _ => Database.Valid i.name := by
  refine Safe.mapError ?_
  rw [h]
  refine Safe.bind safe_trivial fun _ => ?_
  exact Safe.bind safe_trivial fun _ => safe_requireValidIndex

lemma statements_eq {statements : List (List Char)} (h : splitSQLStatements m.sql = .ok statements) :
    m.statements = statements := by
  simp [MigrationFile.statements, h, Except.toOption]

lemma passes_applyStatements (hspares : b.Spares m name) : Passes (Database.Valid name) (b.applyStatements m) := by
  unfold applyStatements
  split_ifs with htransaction
  · unfold applyMigrationWithoutTransaction
    cases hsplit : splitSQLStatements m.sql with
    | error e => exact Passes.fail
    | ok statements =>
      refine Passes.forEach fun statement hstatement => passes_applyNoTransactionStatement fun hother => ?_
      exact hspares statement (.inr ⟨statements_eq hsplit ▸ hstatement, hother⟩)
  · refine Passes.step fun db _ db' hvalid hok => ?_
    obtain rfl := (Prod.mk.inj (Except.ok.inj hok)).2
    exact hspares m.sql (.inl ⟨by simpa using htransaction, rfl⟩) db.catalog hvalid

/-- Behind the statements of a migration that only builds indexes, each of them is valid. -/
lemma safe_applyStatements_valid (hsafe : migrationIsRetrySafeIndexBuild m = true) (halike : m.ReadAlike)
    (hname : m.Builds name) {P : Database → Prop} :
    Safe (fun _ => True) P (b.applyStatements m) fun _ => Database.Valid name := by
  obtain ⟨htransaction, statements, hsplit, hrepeatable⟩ := migrationIsRetrySafeIndexBuild_spec hsafe
  obtain ⟨built, hbuilt, i, hreading, rfl⟩ := hname
  have hstatements := statements_eq hsplit
  rw [applyStatements, htransaction, Bool.not_false, if_pos rfl, applyMigrationWithoutTransaction, hsplit]
  -- the build is ahead of the loop, or its index is valid
  have hloop : Safe (fun _ => True) (fun db => statements <:+ statements ∧ (built ∈ statements ∨ db.Valid i.name))
      (.forEach (b.applyNoTransactionStatement m) statements)
      fun _ db => [] <:+ statements ∧ (built ∈ [] ∨ db.Valid i.name) := by
    refine Safe.forEach (fun rest (db : Database) => rest <:+ statements ∧ (built ∈ rest ∨ db.Valid i.name)) ?_
    intro statement rest
    refine Safe.of_forall (fun db hdb => hdb.1) fun hsuffix => ?_
    have hrest : rest <:+ statements := (List.suffix_cons statement rest).trans hsuffix
    have hmem : statement ∈ m.statements := hstatements ▸ hsuffix.mem List.mem_cons_self
    by_cases hthis : statement = built
    · subst hthis
      have hparse : parseConcurrentIndexBuild statement = some i :=
        programReading_eq_build_iff.mp ((halike statement hmem).symm.trans hreading)
      exact (safe_applyNoTransactionStatement hparse).consequence (fun _ hs => hs) (fun _ hs => hs)
        fun _ db hvalid => ⟨hrest, .inr hvalid⟩
    · have hnotOther : postgresReading statement ≠ .other := by
        intro hother
        have hrep := hrepeatable statement (hstatements ▸ hmem)
        rw [← halike statement hmem, hother] at hrep
        exact hrep
      intro answers db hdb
      rcases hdb.2 with hahead | hvalid
      · refine (safe_trivial (P := fun _ => True)).consequence (fun _ hs => hs) (fun _ hs => hs) ?_ answers db trivial
        exact fun _ db' _ => ⟨hrest, .inl ((List.mem_cons.mp hahead).resolve_left fun h => hthis h.symm)⟩
      · refine (passes_applyNoTransactionStatement fun hother => absurd hother hnotOther).consequence
          (fun _ hs => hs) (fun _ hs => hs) ?_ answers db hvalid
        exact fun _ db' hvalid' => ⟨hrest, .inr hvalid'⟩
  refine hloop.consequence (fun _ hs => hs) (fun db _ => ⟨List.suffix_refl _, .inl (hstatements ▸ hbuilt)⟩) ?_
  exact fun _ db hdb => hdb.2.resolve_left List.not_mem_nil

/-! ## One migration -/

lemma safe_applyMigration_steps {P A B K : Database → Prop}
    (hstart : Safe (fun _ => True) P (b.startMigrationEventAndMarkDirty m) fun _ => A)
    (hstatements : Safe (fun _ => True) A (b.applyStatements m) fun _ => B)
    (hfinish : ∀ eventID, Safe (fun _ => True) B (b.finishSuccessfulMigrationEvent eventID m) fun _ => K) :
    Safe (fun _ => True) P (b.applyMigration m) fun _ => K := by
  have hvalidate : Passes P (b.validateMigrationPrerequisites m) := by
    unfold validateMigrationPrerequisites
    split_ifs
    · exact Passes.read
    · exact Passes.pure
  refine Safe.bind hvalidate fun _ => Safe.bind hstart fun eventID => ?_
  exact Safe.onError (Safe.bind hstatements fun _ => hfinish eventID) safe_trivial

lemma passes_start_valid : Passes (Database.Valid name) (b.startMigrationEventAndMarkDirty m) := by
  refine Passes.step fun db _ db' hdb hok => ?_
  obtain rfl := (Prod.mk.inj (Except.ok.inj hok)).2
  unfold Database.upsertRow
  split_ifs
  · exact hdb
  · exact hdb

lemma passes_finish_valid (eventID : ℕ) : Passes (Database.Valid name) (b.finishSuccessfulMigrationEvent eventID m) := by
  refine Passes.step fun db _ db' hdb hok => ?_
  obtain rfl := (Prod.mk.inj (Except.ok.inj hok)).2
  exact hdb

end Binary

namespace Database

variable {db : Database} {version version' : ℕ} {r : MigrationRow} {f : MigrationRow → MigrationRow}

lemma row_updateRow :
    (db.updateRow version f).row version' = (db.row version').map fun r => if version' = version then f r else r := by
  have hkeys : (fun r : ℕ × MigrationRow => decide (r.1 = version')) ∘
      (fun r => if r.1 = version then (r.1, f r.2) else r) = fun r => decide (r.1 = version') := by
    funext r
    dsimp only [Function.comp]
    split_ifs
    · rfl
    · rfl
  rw [row, updateRow, List.find?_map, hkeys, row]
  cases hfind : db.rows.find? fun r => decide (r.1 = version') with
  | none => rfl
  | some r =>
    obtain rfl : r.1 = version' := by simpa using List.find?_some hfind
    simp only [Option.map_some]
    split_ifs
    · rfl
    · rfl

lemma row_updateRow_self (h : (db.row version).isSome = true) :
    (db.updateRow version fun _ => r).row version = some r := by
  obtain ⟨row, hrow⟩ := Option.isSome_iff_exists.mp h
  rw [row_updateRow, hrow, Option.map_some, if_pos rfl]

lemma row_updateRow_other (hne : version' ≠ version) : (db.updateRow version f).row version' = db.row version' := by
  simp [row_updateRow, hne]

lemma row_upsertRow_self : ((db.upsertRow version r fun _ => r).row version).isSome = true := by
  unfold upsertRow
  split_ifs with h
  · rw [row_updateRow_self h]
    rfl
  · simp [row, List.find?_append]

lemma row_upsertRow_other (hne : version' ≠ version) :
    (db.upsertRow version r f).row version' = db.row version' := by
  unfold upsertRow
  split_ifs with h
  · exact row_updateRow_other hne
  · simp [row, List.find?_append, hne.symm]

end Database

namespace Binary

variable {b : Binary} {name : List Char} {m m' : MigrationFile}

/-- A migration that succeeds is recorded as clean. -/
lemma safe_applyMigration_row (htransaction : migrationRunsInTransaction m = false) {P : Database → Prop} :
    Safe (fun _ => True) P (b.applyMigration m) fun _ db => db.row m.version = some (b.cleanRow m) := by
  refine safe_applyMigration_steps (A := fun db => (db.row m.version).isSome = true)
    (B := fun db => (db.row m.version).isSome = true) ?_ ?_ fun eventID => ?_
  · refine Safe.step (fun _ _ => trivial) (fun _ _ => trivial) (fun _ _ => trivial) ?_
    intro db _ db' _ hok
    obtain rfl := (Prod.mk.inj (Except.ok.inj hok)).2
    exact ⟨Database.row_upsertRow_self, trivial⟩
  · rw [applyStatements, htransaction, Bool.not_false, if_pos rfl]
    exact Passes.of_keeps ((b.aside_applyMigrationWithoutTransaction m).keeps
      (K := fun rows _ => ((rows.find? fun r => r.1 = m.version).map Prod.snd).isSome = true))
  · refine Safe.step (fun _ _ => trivial) (fun _ _ => trivial) (fun _ _ => trivial) ?_
    intro db _ db' hrow hok
    obtain rfl := (Prod.mk.inj (Except.ok.inj hok)).2
    exact ⟨Database.row_updateRow_self hrow, trivial⟩

/-- The row of a version is left alone by the migrations of other versions. -/
lemma passes_applyMigration_row {version : ℕ} {row : MigrationRow} (hne : version ≠ m.version) :
    Passes (fun db => db.row version = some row) (b.applyMigration m) := by
  refine safe_applyMigration_steps (A := fun db => db.row version = some row)
    (B := fun db => db.row version = some row) ?_ ?_ fun eventID => ?_
  · refine Passes.step fun db _ db' hrow hok => ?_
    obtain rfl := (Prod.mk.inj (Except.ok.inj hok)).2
    exact (Database.row_upsertRow_other hne).trans hrow
  · unfold applyStatements
    split_ifs
    · exact Passes.of_keeps ((b.aside_applyMigrationWithoutTransaction m).keeps
        (K := fun rows _ => (rows.find? fun r => r.1 = version).map Prod.snd = some row))
    · refine Passes.step fun db _ db' hrow hok => ?_
      obtain rfl := (Prod.mk.inj (Except.ok.inj hok)).2
      exact hrow
  · refine Passes.step fun db _ db' hrow hok => ?_
    obtain rfl := (Prod.mk.inj (Except.ok.inj hok)).2
    exact (Database.row_updateRow_other (f := fun _ => b.cleanRow m) hne).trans hrow

/-! ## A run -/

/-- A run over a database that knows lower versions only comes to the migration, and what it brings about
is there in the end if the later ones keep it. -/
lemma safe_runContext_of_applyMigration {K : Database → Prop} (hm : m ∈ b.migrations)
    (happly : Safe (fun _ => True) (fun _ => True) (b.applyMigration m) fun _ => K)
    (hlater : ∀ m' ∈ b.migrations, m.version < m'.version → Passes K (b.applyMigration m')) :
    Safe (fun _ => True) (fun db => ∀ r ∈ db.rows, r.1 < m.version) b.runContext fun _ => K := by
  have hloop : ∀ {P : Database → Prop} {current : Option ℕ}, (∀ version ∈ current, version < m.version) →
      Safe (fun _ => True) P (.forEach (b.applyUnlessRecorded current) b.migrations) fun _ => K := by
    intro P current hcurrent
    -- the migration is ahead of the loop, or only later ones are and it has been applied
    let J (ahead : List MigrationFile) (db : Database) : Prop :=
      ahead <:+ b.migrations ∧ (m ∈ ahead ∨ (∀ m' ∈ ahead, m.version < m'.version) ∧ K db)
    have hJ : Safe (fun _ => True) (J b.migrations) (.forEach (b.applyUnlessRecorded current) b.migrations)
        fun _ => J [] := by
      refine Safe.forEach J ?_
      intro m' ahead
      refine Safe.of_forall (fun db hdb => hdb.1) fun hsuffix => ?_
      have hahead : ahead <:+ b.migrations := (List.suffix_cons m' ahead).trans hsuffix
      have hsorted : (m' :: ahead).Pairwise fun m m' => m.version < m'.version := b.sorted.sublist hsuffix.sublist
      by_cases hthis : m' = m
      · subst hthis
        have hpending : ¬ (current.any fun version => m'.version ≤ version) = true := by
          cases current with
          | none => simp
          | some version => simpa using hcurrent version rfl
        rw [applyUnlessRecorded, if_neg hpending]
        refine happly.consequence (fun _ hs => hs) (fun _ _ => trivial) ?_
        exact fun _ db hK => ⟨hahead, .inr ⟨(List.pairwise_cons.mp hsorted).1, hK⟩⟩
      · intro answers db hdb
        rcases hdb.2 with hmem | ⟨hlast, hK⟩
        · refine (safe_trivial (P := fun _ => True)).consequence (fun _ hs => hs) (fun _ hs => hs) ?_ answers db trivial
          exact fun _ db' _ => ⟨hahead, .inl ((List.mem_cons.mp hmem).resolve_left fun h => hthis h.symm)⟩
        · have hpasses : Passes K (b.applyUnlessRecorded current m') := by
            unfold applyUnlessRecorded
            split_ifs
            · exact Passes.pure
            · exact hlater m' (hsuffix.mem List.mem_cons_self) (hlast m' List.mem_cons_self)
          refine hpasses.consequence (fun _ hs => hs) (fun _ hs => hs) ?_ answers db hK
          exact fun _ db' hK' => ⟨hahead, .inr ⟨fun m'' hm'' => hlast m'' (List.mem_cons_of_mem m' hm''), hK'⟩⟩
    refine hJ.consequence (fun _ hs => hs) (fun _ _ => ⟨List.suffix_refl _, .inl hm⟩) ?_
    exact fun _ db hdb => (hdb.2.resolve_left List.not_mem_nil).2
  refine Safe.bind (keeps_ensureVersionTable.safe fun _ _ => trivial) fun _ => ?_
  refine Safe.bind (Q := fun recorded _ => ∀ r ∈ recorded, r.1 < m.version)
    (Safe.read (fun _ _ => trivial) ?_) fun recorded => ?_
  · intro db recorded hlower hok
    obtain rfl := Except.ok.inj hok
    intro r hr
    obtain ⟨entry, hentry, rfl⟩ := Option.mem_map.mp hr
    exact hlower entry (List.argmax_mem hentry)
  refine Safe.of_forall (fun db hdb => hdb) fun hlower => ?_
  cases recorded with
  | none => exact hloop (by simp)
  | some recorded =>
    obtain ⟨current, dirty⟩ := recorded
    dsimp only
    split_ifs
    · exact Safe.fail fun _ _ => trivial
    · exact Safe.fail fun _ _ => trivial
    · refine Safe.bind safe_trivial fun _ => hloop ?_
      intro version hversion
      obtain rfl : current = version := by simpa using hversion
      exact hlower (current, dirty) rfl

lemma rows_deleteDirty_lt {db : Database} {row : MigrationRow} (hkey : (db.rows.map Prod.fst).Nodup)
    (hcurrent : db.current = some (m.version, row)) (hdirty : row.dirty = true) :
    ∀ r ∈ (db.deleteDirty m.version).rows, r.1 < m.version := by
  intro r hr
  obtain ⟨hmem, hkept⟩ := List.mem_filter.mp hr
  have hle : r.1 ≤ m.version := List.le_of_mem_argmax hmem hcurrent
  refine lt_of_le_of_ne hle fun heq => ?_
  have hsame : r = (m.version, row) :=
    List.inj_on_of_nodup_map hkey hmem (List.argmax_mem hcurrent) heq
  simp [hsame, hdirty] at hkept

/-- The documented retry: for a migration that only builds indexes, whose statements the database reads as
the program does, every statement is a comment or a build that is skipped when its index is there; and from
any database that is dirty at its version, with any catalog, a run behind the deletion of the dirty row
fails or ends with the version clean and every index of the migration valid, if the later migrations leave
these indexes alone. -/
theorem retry_sound (b : Binary) (m : MigrationFile) (db : Database) (row : MigrationRow) (answers : List Answer)
    (hm : m ∈ b.migrations) (hsafe : migrationIsRetrySafeIndexBuild m = true) (halike : m.ReadAlike)
    (hspares : ∀ m' ∈ b.migrations, m.version < m'.version → ∀ name, m.Builds name → b.Spares m' name)
    (hkey : (db.rows.map Prod.fst).Nodup) (hcurrent : db.current = some (m.version, row)) (hdirty : row.dirty = true) :
    (∀ statement ∈ m.statements, (postgresReading statement).Repeatable) ∧
      ((b.runContext answers (db.deleteDirty m.version)).1 = .value () →
        (b.runContext answers (db.deleteDirty m.version)).2.2.row m.version = some (b.cleanRow m) ∧
          ∀ name, m.Builds name →
            (b.runContext answers (db.deleteDirty m.version)).2.2.catalog name = .validIndex) := by
  obtain ⟨htransaction, statements, hsplit, hrepeatable⟩ := migrationIsRetrySafeIndexBuild_spec hsafe
  have hlower := rows_deleteDirty_lt hkey hcurrent hdirty
  refine ⟨?_, fun hvalue => ⟨?_, fun name hname => ?_⟩⟩
  · intro statement hstatement
    rw [halike statement hstatement]
    exact hrepeatable statement (statements_eq hsplit ▸ hstatement)
  · have hrun := safe_runContext_of_applyMigration hm (safe_applyMigration_row htransaction)
      (fun m' _ hlt => passes_applyMigration_row hlt.ne) answers (db.deleteDirty m.version) hlower
    rwa [hvalue] at hrun
  · have hrun := safe_runContext_of_applyMigration hm
      (safe_applyMigration_steps safe_trivial (safe_applyStatements_valid hsafe halike hname) passes_finish_valid)
      (fun m' hm' hlt => safe_applyMigration_steps passes_start_valid
        (passes_applyStatements (hspares m' hm' hlt name hname)) passes_finish_valid)
      answers (db.deleteDirty m.version) hlower
    rwa [hvalue] at hrun

/-! ## Two migrations that are read differently -/

/-- A binary of one migration, whose other statements do nothing to the catalog. -/
def ofMigration (m : MigrationFile) : Binary where
  migrations := [m]
  sorted := List.pairwise_singleton _ _
  expectedVersion := m.version
  checksum := String.ofList
  historical _ := []
  effect _ catalog := catalog
  tornEffect _ catalog := catalog
  settings _ := ⟨true, true, "public", true, "on", true, ""⟩
  refusal := "refused"
  quote s := s

/-- A run over one build whose index is there as the database reads the name and valid as the program does:
the build is skipped, and nothing is changed. -/
lemma runContext_ofMigration {m : MigrationFile} {statement : List Char} {i j : ConcurrentIndexBuild}
    {catalog : Catalog} (htransaction : migrationRunsInTransaction m = false)
    (hdirective : ¬ pgStatStatementsDirective <:+: m.sql) (hsplit : splitSQLStatements m.sql = .ok [statement])
    (hprogram : parseConcurrentIndexBuild statement = some i) (hpostgres : postgresReading statement = .build j)
    (hvalid : catalog i.name = .validIndex) (hthere : catalog j.name ≠ .absent) (htable : catalog j.table = .table)
    (hexists : j.ifNotExists = true) :
    ((ofMigration m).runContext (List.replicate 13 .done) { catalog }).1 = .value () ∧
      ((ofMigration m).runContext (List.replicate 13 .done) { catalog }).2.2.catalog = catalog := by
  constructor <;>
    simp [runContext, ofMigration, Program.forEach, Program.read, Program.step, Program.mapError, Program.onError,
      bind, pure, wrap, List.replicate, Except.map, ensureVersionTable, versionTableStatements, currentVersion,
      Database.current, applyUnlessRecorded, applyMigration, validateMigrationPrerequisites, hdirective,
      startMigrationEventAndMarkDirty, Database.upsertRow, Database.row, applyStatements, htransaction,
      applyMigrationWithoutTransaction, hsplit, applyNoTransactionStatement, hprogram, dropInvalidIndex, indexState,
      hvalid, Relation.indexState, exec, execute, hpostgres, Database.send, Database.build, hthere, htable, hexists,
      requireValidIndex, finishSuccessfulMigrationEvent, Database.updateRow, Database.updateEvent]

/-- A build of an index with the given name. -/
def indexStatement (name : List Char) : List Char :=
  "/* packmon:migration no-transaction */ CREATE INDEX CONCURRENTLY IF NOT EXISTS ".toList ++ name ++ " ON t".toList

@[inherit_doc indexStatement]
def indexMigration (name : List Char) : MigrationFile where
  version := 1
  name := "001_index.up.sql"
  sql := indexStatement name

/-- A build within a comment, as the database reads it, and the drop of a table behind it. -/
def nestedCommentMigration : MigrationFile where
  version := 1
  name := "001_nested.up.sql"
  sql :=
    ("/* packmon:migration no-transaction /* */ CREATE INDEX CONCURRENTLY IF NOT EXISTS i ON t (c) /* */ */ " ++
      "DROP TABLE t").toList

/-- A database that is dirty at the first version, with a table and a valid and an invalid index. -/
def interrupted (valid invalid : List Char) : Database where
  rows := [(1, ⟨none, none, false, true⟩)]
  catalog name :=
    if name = valid then .validIndex else if name = invalid then .invalidIndex
    else if name = ['t'] then .table else .absent

set_option maxRecDepth 4000 in
theorem runContext_complete_index :
    ((ofMigration (indexMigration ['i'])).runContext (List.replicate 13 .done)
        { catalog := (interrupted ['i'] ['j']).catalog }).2.2.rows =
      [(1, (ofMigration (indexMigration ['i'])).cleanRow (indexMigration ['i']))] := by
  have hrun := @runContext_ofMigration (indexMigration ['i']) (indexStatement ['i']) ⟨['i'], ['t'], true⟩
    ⟨['i'], ['t'], true⟩ (interrupted ['i'] ['j']).catalog (by decide) (by decide) (by decide) (by decide) (by decide)
    rfl (by decide) rfl rfl
  exact (runContext_complete _ _ [] hrun.1).1

set_option maxRecDepth 4000 in
theorem retry_sound_index :
    ((ofMigration (indexMigration ['i'])).runContext (List.replicate 13 .done)
        ((interrupted ['i'] ['j']).deleteDirty 1)).1 = .value () ∧
      ((ofMigration (indexMigration ['i'])).runContext (List.replicate 13 .done)
        ((interrupted ['i'] ['j']).deleteDirty 1)).2.2.row 1 =
          some ((ofMigration (indexMigration ['i'])).cleanRow (indexMigration ['i'])) := by
  have hsplit : splitSQLStatements (indexMigration ['i']).sql = .ok [indexStatement ['i']] := by decide
  have hstatements : (indexMigration ['i']).statements = [indexStatement ['i']] := statements_eq hsplit
  have hprogram : programReading (indexStatement ['i']) = .build ⟨['i'], ['t'], true⟩ := by decide
  have hpostgres : postgresReading (indexStatement ['i']) = .build ⟨['i'], ['t'], true⟩ := by decide
  have hrun := @runContext_ofMigration _ _ _ _ (interrupted ['i'] ['j']).catalog (by decide) (by decide) hsplit
    (programReading_eq_build_iff.mp hprogram) hpostgres rfl (by decide) rfl rfl
  have halike : (indexMigration ['i']).ReadAlike := by
    intro statement hstatement
    rw [hstatements, List.mem_singleton] at hstatement
    rw [hstatement, hprogram, hpostgres]
  have hlater : ∀ m' ∈ (ofMigration (indexMigration ['i'])).migrations,
      (indexMigration ['i']).version < m'.version → ∀ name, (indexMigration ['i']).Builds name →
        (ofMigration (indexMigration ['i'])).Spares m' name := by
    intro m' hm' hlt
    rw [List.mem_singleton.mp hm'] at hlt
    exact absurd hlt (lt_irrefl _)
  exact ⟨hrun.1, ((retry_sound (ofMigration (indexMigration ['i'])) (indexMigration ['i']) (interrupted ['i'] ['j'])
    ⟨none, none, false, true⟩ (List.replicate 13 .done) List.mem_cons_self (by decide) halike hlater
    (by decide) rfl rfl).2 hrun.1).1⟩

set_option maxRecDepth 4000 in
/-- A comment that is open to the database and closed to the program hides the build, and what is left of
the statement drops a table.  And an index whose name has the Kelvin sign is asked for under another name:
it stays invalid though the rerun succeeds. -/
theorem retry_unsound :
    (migrationIsRetrySafeIndexBuild nestedCommentMigration = true ∧
      ¬ ∀ statement ∈ nestedCommentMigration.statements, (postgresReading statement).Repeatable) ∧
      migrationIsRetrySafeIndexBuild (indexMigration [kelvinSign]) = true ∧
      ((ofMigration (indexMigration [kelvinSign])).runContext (List.replicate 13 .done)
        ((interrupted ['k'] [kelvinSign]).deleteDirty 1)).1 = .value () ∧
      ((ofMigration (indexMigration [kelvinSign])).runContext (List.replicate 13 .done)
        ((interrupted ['k'] [kelvinSign]).deleteDirty 1)).2.2.catalog [kelvinSign] = .invalidIndex := by
  have hrun := @runContext_ofMigration (indexMigration [kelvinSign]) (indexStatement [kelvinSign])
    ⟨['k'], ['t'], true⟩ ⟨[kelvinSign], ['t'], true⟩ (interrupted ['k'] [kelvinSign]).catalog (by decide) (by decide)
    (by decide) (by decide) (by decide) rfl (by decide) rfl rfl
  refine ⟨⟨by decide, by decide⟩, by decide, hrun.1, ?_⟩
  exact (congrFun hrun.2 [kelvinSign]).trans (by decide)

end Binary

end Packmon.Migrations

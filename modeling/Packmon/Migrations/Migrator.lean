import Packmon.Library.CrashLogic
import Packmon.Migrations.ConcurrentIndex
import Mathlib.Data.List.MinMax

/-!
# Running migrations

`runContext` is one run over the embedded migrations: it reads the recorded version, refuses a dirty one,
completes and checks the metadata of the recorded versions, repairs their concurrent indexes and applies
the migrations that are missing.  A migration is recorded as dirty before its statements and as clean
behind them, each in a transaction of its own.

The database keeps, besides the tables of the migrator, what a reader wants to know of a run: the
transactional migrations whose effects are committed, and the migration statements that were sent.
-/

namespace Packmon.Migrations

open CrashLogic GoText

/-! ## The database -/

/-- A row of `schema_migrations`; `applied` says that `applied_at` is set. -/
structure MigrationRow where
  name : Option String
  checksum : Option String
  applied : Bool
  dirty : Bool
  deriving DecidableEq

structure MigrationEvent where
  version : ℕ
  finished : Bool
  success : Bool
  dirty : Bool
  deriving DecidableEq

/-- What a name stands for. -/
inductive Relation where
  | absent
  | table
  | validIndex
  | invalidIndex
  deriving DecidableEq

/-- The states the catalog reports of an index. -/
inductive IndexState where
  | missing
  | valid
  | invalid
  deriving DecidableEq

def Relation.indexState : Relation → IndexState
  | absent => .missing
  | table => .missing
  | validIndex => .valid
  | invalidIndex => .invalid

def IndexState.text : IndexState → String
  | missing => "missing or not an index"
  | valid => "valid"
  | invalid => "INVALID"

abbrev Catalog := List Char → Relation

structure Database where
  rows : List (ℕ × MigrationRow) := []
  events : List MigrationEvent := []
  catalog : Catalog
  committed : List ℕ := []
  sent : List (List Char) := []

namespace Database

variable (db : Database)

/-- The row of the highest version. -/
def current : Option (ℕ × MigrationRow) := db.rows.argmax Prod.fst

def row (version : ℕ) : Option MigrationRow := (db.rows.find? fun r => r.1 = version).map Prod.snd

def updateRow (version : ℕ) (f : MigrationRow → MigrationRow) : Database :=
  { db with rows := db.rows.map fun r => if r.1 = version then (r.1, f r.2) else r }

/-- `INSERT … ON CONFLICT (version) DO UPDATE`. -/
def upsertRow (version : ℕ) (row : MigrationRow) (onConflict : MigrationRow → MigrationRow) : Database :=
  if (db.row version).isSome then db.updateRow version onConflict
  else { db with rows := db.rows ++ [(version, row)] }

def updateEvent (id : ℕ) (f : MigrationEvent → MigrationEvent) : Database :=
  { db with events := db.events.modify id f }

def setRelation (name : List Char) (relation : Relation) : Database :=
  { db with catalog := fun other => if other = name then relation else db.catalog other }

def send (statement : List Char) : Database := { db with sent := db.sent ++ [statement] }

/-- A concurrent build: refused or skipped for a name that is taken, and refused without its table. -/
def build (i : ConcurrentIndexBuild) : Except String (Unit × Database) :=
  if db.catalog i.table = .absent then .error "relation does not exist"
  else if db.catalog i.name = .absent then .ok ((), db.setRelation i.name .validIndex)
  else if i.ifNotExists then .ok ((), db)
  else .error "relation already exists"

/-- A build that is torn leaves an invalid index. -/
def tornBuild (i : ConcurrentIndexBuild) : Database :=
  if db.catalog i.table ≠ .absent ∧ db.catalog i.name = .absent then db.setRelation i.name .invalidIndex else db

end Database

/-- What the prerequisites of a migration are read from. -/
structure ServerSettings where
  extensionAvailable : Bool
  extensionInstalled : Bool
  extensionSchema : String
  currentUserSuperuser : Bool
  computeQueryID : String
  usable : Bool
  sharedPreloadLibraries : String

/-- What a binary and its server bring to a run: the embedded migrations in the order of their versions,
the checksums, what statements that build no index do to the catalog, whole or torn, and the words of the
server's and the language's errors. -/
structure Binary where
  migrations : List MigrationFile
  sorted : migrations.Pairwise fun m m' => m.version < m'.version
  expectedVersion : ℕ
  checksum : List Char → String
  historical : String → List String
  effect : List Char → Catalog → Catalog
  tornEffect : List Char → Catalog → Catalog
  settings : Catalog → ServerSettings
  refusal : String
  quote : String → String

abbrev Run := Program Database String

/-- `fmt.Errorf("…: %w", err)`. -/
def wrap {α : Type} (context : String) (p : Run α) : Run α := p.mapError fun e => context ++ ": " ++ e

namespace Binary

variable (b : Binary)

/-! ## Statements outside of transactions -/

/-- What the database does with a statement. -/
def execute (statement : List Char) (db : Database) : Except String (Unit × Database) :=
  match postgresReading statement with
  | .comment => .ok ((), db)
  | .build i => db.build i
  | .other => .ok ((), { db with catalog := b.effect statement db.catalog })

def executeTorn (statement : List Char) (db : Database) : Database :=
  match postgresReading statement with
  | .comment => db
  | .build i => db.tornBuild i
  | .other => { db with catalog := b.tornEffect statement db.catalog }

def exec (statement : List Char) : Run Unit :=
  .step
    { run := b.execute statement
      failure := b.refusal
      torn := b.executeTorn statement
      note := (·.send statement) }

def indexState (name : List Char) : Run IndexState := .read b.refusal fun db => .ok (db.catalog name).indexState

def tableExists (name : List Char) : Run Bool := .read b.refusal fun db => .ok (db.catalog name ≠ .absent)

/-- `DROP INDEX CONCURRENTLY IF EXISTS`. -/
def dropIndex (name : List Char) : Run Unit :=
  .step { run := fun db => .ok ((), db.setRelation name .absent), failure := b.refusal }

def dropInvalidIndex (name : List Char) : Run Unit := do
  let state ← wrap ("read state of index " ++ String.ofList name) (b.indexState name)
  if state ≠ .invalid then pure ()
  else wrap ("drop INVALID index " ++ String.ofList name) (b.dropIndex name)

def requireValidIndex (name : List Char) : Run Unit := do
  let state ← wrap ("read state of index " ++ String.ofList name) (b.indexState name)
  if state ≠ .valid then
    .fail ("index " ++ String.ofList name ++ " is " ++ state.text ++
      " after its concurrent build, want a valid index")
  else pure ()

def applyNoTransactionStatement (migration : MigrationFile) (statement : List Char) : Run Unit :=
  wrap ("migrations: apply " ++ migration.name)
    (match parseConcurrentIndexBuild statement with
    | none => b.exec statement
    | some i => do
      b.dropInvalidIndex i.name
      b.exec statement
      b.requireValidIndex i.name)

def applyMigrationWithoutTransaction (migration : MigrationFile) : Run Unit :=
  match splitSQLStatements migration.sql with
  | .error e => .fail ("migrations: parse " ++ migration.name ++ ": " ++ e)
  | .ok statements => .forEach (b.applyNoTransactionStatement migration) statements

/-! ## Indexes of recorded migrations -/

def buildIndex (name statement : List Char) : Run Unit := do
  wrap "build" (b.exec statement)
  b.requireValidIndex name

def rebuildInvalidIndex (name statement : List Char) : Run Unit := do
  wrap "drop" (b.dropIndex name)
  b.buildIndex name statement

def repairIndex (migration : MigrationFile) (statement : List Char) (i : ConcurrentIndexBuild) : Run Unit := do
  let place := String.ofList i.name ++ " from " ++ migration.name
  let state ← wrap ("migrations: read state of index " ++ place) (b.indexState i.name)
  match state with
  | .valid => pure ()
  | .invalid =>
    (b.rebuildInvalidIndex i.name statement).mapError fun e =>
      "migrations: rebuild INVALID index " ++ place ++ ": " ++ e ++ "; rerun packmon-server migrate to retry the rebuild"
  | .missing => do
    let isThere ← wrap ("migrations: read state of table " ++ String.ofList i.table ++ " for index " ++ place)
      (b.tableExists i.table)
    if !isThere then pure ()
    else
      (b.buildIndex i.name statement).mapError fun e =>
        "migrations: recreate missing index " ++ place ++ ": " ++ e ++ "; rerun packmon-server migrate to retry the build"

def repairStatement (migration : MigrationFile) (statement : List Char) : Run Unit :=
  match parseConcurrentIndexBuild statement with
  | none => pure ()
  | some i => b.repairIndex migration statement i

def repairMigration (migration : MigrationFile) : Run Unit :=
  if migrationRunsInTransaction migration then pure ()
  else
    match splitSQLStatements migration.sql with
    | .error e => .fail ("migrations: parse " ++ migration.name ++ ": " ++ e)
    | .ok statements => .forEach (b.repairStatement migration) statements

/-- The embedded migrations up to a version. -/
def upTo (current : ℕ) : List MigrationFile := b.migrations.takeWhile (·.version ≤ current)

def repairInvalidConcurrentIndexes (current : ℕ) : Run Unit := .forEach b.repairMigration (b.upTo current)

/-! ## Metadata -/

/-- A version that is recorded without its metadata, or not at all, is completed. -/
def backfillRow (db : Database) (migration : MigrationFile) : Database :=
  db.upsertRow migration.version ⟨some migration.name, some (b.checksum migration.sql), true, false⟩ fun row =>
    if row.name = none ∨ row.checksum = none ∨ row.applied = false then
      { row with
        name := row.name.or (some migration.name)
        checksum := row.checksum.or (some (b.checksum migration.sql))
        applied := true }
    else row

def backfillAppliedMigrationMetadata (current : ℕ) : Run Unit :=
  .step
    { run := fun db => .ok ((), (b.upTo current).foldl b.backfillRow db)
      failure := "migrations: backfill migration metadata: " ++ b.refusal }

def migrationChecksumMatches (migration : MigrationFile) (checksum : String) : Bool :=
  checksum = b.checksum migration.sql || (b.historical migration.name).contains checksum

/-- `%03d`. -/
def versionText (version : ℕ) : String :=
  String.ofList (List.replicate (3 - (itoa version).length) '0') ++ itoa version

def checkRow (migration : MigrationFile) : Option MigrationRow → Except String Unit
  | none => .error ("migrations: missing metadata for applied migration " ++ migration.name)
  | some row =>
    if row.dirty then .error ("migrations: database is dirty at version " ++ itoa migration.version)
    else if trimSpace (row.name.getD "") = "" then
      .error ("migrations: missing name for applied migration version " ++ versionText migration.version)
    else if row.name ≠ some migration.name then
      .error ("migrations: migration version " ++ versionText migration.version ++ " name mismatch: database has " ++
        b.quote (row.name.getD "") ++ ", binary has " ++ b.quote migration.name)
    else if trimSpace (row.checksum.getD "") = "" then
      .error ("migrations: missing checksum for applied migration " ++ migration.name)
    else if !b.migrationChecksumMatches migration (row.checksum.getD "") then
      .error ("migrations: migration " ++ migration.name ++ " checksum mismatch")
    else .ok ()

def validateAppliedMigrationMetadata (current : ℕ) : Run Unit :=
  .forEach
    (fun migration =>
      .read ("migrations: read metadata for " ++ migration.name ++ ": " ++ b.refusal) fun db =>
        b.checkRow migration (db.row migration.version))
    (b.upTo current)

/-! ## One migration -/

def pgStatStatementsDirective : List Char := "packmon:migration require-pg-stat-statements".toList

def postgresQueryIDsEnabled (setting : String) : Bool :=
  equalFold (trimSpace setting) "on" || equalFold (trimSpace setting) "auto"

def postgresLibraryListContains (setting library : String) : Bool :=
  (setting.toList.splitOn ',').any fun entry =>
    String.ofList (trimBy (fun c => c = '\'' || c = '"') (trimChars entry)) = library

def checkPrerequisites (name : String) (s : ServerSettings) : Except String Unit :=
  if !postgresQueryIDsEnabled s.computeQueryID then
    .error ("migrations: " ++ name ++ " requires compute_query_id to be on or auto before retrying")
  else if !s.extensionAvailable then
    .error ("migrations: " ++ name ++ " requires the pg_stat_statements extension files on the PostgreSQL server")
  else if s.extensionInstalled then
    if s.extensionSchema ≠ "public" then
      .error ("migrations: " ++ name ++ " requires pg_stat_statements to be installed in schema public; " ++
        "database administrator installed it in schema " ++ b.quote s.extensionSchema)
    else if !s.usable then
      .error ("migrations: " ++ name ++ " requires pg_stat_statements in shared_preload_libraries and a " ++
        "PostgreSQL restart before retrying: " ++ b.refusal)
    else .ok ()
  else if !s.currentUserSuperuser then
    .error ("migrations: " ++ name ++ " requires a database administrator to run CREATE EXTENSION " ++
      "pg_stat_statements before retrying with the non-superuser migration role")
  else if !postgresLibraryListContains s.sharedPreloadLibraries "pg_stat_statements" then
    .error ("migrations: " ++ name ++ " requires pg_stat_statements in shared_preload_libraries and a " ++
      "PostgreSQL restart before retrying")
  else .ok ()

def validateMigrationPrerequisites (migration : MigrationFile) : Run Unit :=
  if pgStatStatementsDirective <:+: migration.sql then
    .read ("migrations: check pg_stat_statements prerequisite for " ++ migration.name ++ ": " ++ b.refusal) fun db =>
      b.checkPrerequisites migration.name (b.settings db.catalog)
  else pure ()

/-- The row of a migration that has begun. -/
def dirtyRow (migration : MigrationFile) : MigrationRow :=
  ⟨some migration.name, some (b.checksum migration.sql), false, true⟩

/-- The row of a migration that is done. -/
def cleanRow (migration : MigrationFile) : MigrationRow :=
  ⟨some migration.name, some (b.checksum migration.sql), true, false⟩

/-- The start event and the dirty row, in one transaction; the event's id is returned. -/
def startMigrationEventAndMarkDirty (migration : MigrationFile) : Run ℕ :=
  .step
    { run := fun db =>
        let marked := db.upsertRow migration.version (b.dirtyRow migration) fun _ => b.dirtyRow migration
        .ok (db.events.length, { marked with events := db.events ++ [⟨migration.version, false, false, true⟩] })
      failure := "migrations: start " ++ migration.name ++ ": " ++ b.refusal }

/-- The clean row and the finished event, in one transaction. -/
def finishSuccessfulMigrationEvent (eventID : ℕ) (migration : MigrationFile) : Run Unit :=
  .step
    { run := fun db =>
        let clean := db.updateRow migration.version fun _ => b.cleanRow migration
        .ok ((), clean.updateEvent eventID fun event =>
          { event with finished := true, success := true, dirty := false })
      failure := "migrations: mark " ++ migration.name ++ " clean: " ++ b.refusal }

def finishMigrationEvent (eventID : ℕ) (success dirty : Bool) : Run Unit :=
  .step
    { run := fun db =>
        .ok ((), db.updateEvent eventID fun event => { event with finished := true, success, dirty })
      failure := "migrations: record finish event: " ++ b.refusal }

/-- The statements of a migration in one transaction. -/
def applyInTransaction (migration : MigrationFile) : Run Unit :=
  .step
    { run := fun db =>
        .ok ((), { db with
          catalog := b.effect migration.sql db.catalog
          committed := db.committed ++ [migration.version] })
      failure := "migrations: apply " ++ migration.name ++ ": " ++ b.refusal
      note := (·.send migration.sql) }

/-- The statements of a migration. -/
def applyStatements (migration : MigrationFile) : Run Unit :=
  if !migrationRunsInTransaction migration then b.applyMigrationWithoutTransaction migration
  else b.applyInTransaction migration

def applyMigration (migration : MigrationFile) : Run Unit := do
  b.validateMigrationPrerequisites migration
  let eventID ← b.startMigrationEventAndMarkDirty migration
  -- errors are joined by a line end
  Program.onError (fun e e' => e ++ "\n" ++ e')
    (do
      b.applyStatements migration
      b.finishSuccessfulMigrationEvent eventID migration)
    (b.finishMigrationEvent eventID false true)

/-! ## A run -/

/-- The tables, indexes and columns a run makes sure of, with the words of the errors about them. -/
def versionTableStatements : List String :=
  ["migrations: ensure version table", "migrations: ensure migration event table",
    "migrations: ensure migration event index", "migrations: ensure migration event index",
    "migrations: extend version table", "migrations: extend version table", "migrations: extend version table"]

def ensureVersionTable : Run Unit :=
  .forEach (fun context => wrap context (.read b.refusal fun _ => .ok ())) versionTableStatements

def currentVersion : Run (Option (ℕ × Bool)) :=
  .read ("migrations: read version: " ++ b.refusal) fun db => .ok (db.current.map fun r => (r.1, r.2.dirty))

def dirtyDatabaseError (version : ℕ) : String :=
  match b.migrations.find? fun m => m.version = version && migrationIsRetrySafeIndexBuild m with
  | some m =>
    "migrations: database is dirty at version " ++ itoa version ++ "; " ++ m.name ++
      " only builds indexes concurrently and is safe to retry: " ++
      "after confirming no other migrate run is active, clear the marker with DELETE FROM schema_migrations " ++
      "WHERE version = " ++ itoa version ++ " AND dirty " ++
      "and rerun packmon-server migrate, which replaces any INVALID index the interrupted run left behind"
  | none => "migrations: database is dirty at version " ++ itoa version

/-- What is done about the versions that are recorded. -/
def checkRecorded (current : ℕ) : Run Unit := do
  b.backfillAppliedMigrationMetadata current
  b.validateAppliedMigrationMetadata current
  b.repairInvalidConcurrentIndexes current

/-- A migration of the loop; those that are recorded are passed over. -/
def applyUnlessRecorded (current : Option ℕ) (migration : MigrationFile) : Run Unit :=
  if current.any fun version => migration.version ≤ version then pure () else b.applyMigration migration

def runContext : Run Unit := do
  b.ensureVersionTable
  let recorded ← b.currentVersion
  match recorded with
  | none => .forEach (b.applyUnlessRecorded none) b.migrations
  | some (current, dirty) =>
    if dirty then .fail (b.dirtyDatabaseError current)
    else if b.expectedVersion < current then
      .fail ("migrations: database schema version " ++ itoa current ++ " is newer than binary expected version " ++
        itoa b.expectedVersion)
    else do
      b.checkRecorded current
      .forEach (b.applyUnlessRecorded (some current)) b.migrations

end Binary

end Packmon.Migrations

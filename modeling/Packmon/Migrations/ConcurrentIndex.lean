import Packmon.Migrations.SplitStatements

/-!
# Concurrent index builds

A migration outside of a transaction may build indexes concurrently.  `parseConcurrentIndexBuild`
recognizes such a statement behind its comments, and `migrationIsRetrySafeIndexBuild` the migrations that
do nothing else: every statement of theirs is a comment or a build that is skipped when its index is
there (`migrationIsRetrySafeIndexBuild_spec`).

The database reads the statements too, and not quite as the program does: its block comments nest, its
lines end at a carriage return as well, and the Kelvin sign, which the program takes for a `k`, stays what
it is.  `programReading` and `postgresReading` are the two readings.
-/

namespace Packmon.Migrations

open GoText

structure MigrationFile where
  version : ℕ
  name : String
  sql : List Char
  deriving DecidableEq

def noTransactionDirective : List Char := "packmon:migration no-transaction".toList

def migrationRunsInTransaction (migration : MigrationFile) : Bool :=
  !decide (noTransactionDirective <:+: migration.sql)

/-! ## Leading comments -/

/-- What follows the end of a block comment. -/
def behindBlockComment : List Char → Option (List Char)
  | [] => none
  | c :: rest => if ['*', '/'].isPrefixOf (c :: rest) then some (rest.drop 1) else behindBlockComment rest

/-- The loop over the comments in front; each round takes at least two characters. -/
def stripComments : ℕ → List Char → Option (List Char)
  | 0, body => some body
  | fuel + 1, body =>
    if ['-', '-'].isPrefixOf body then
      match body.dropWhile (· ≠ '\n') with
      | [] => some []
      | _ :: rest => stripComments fuel (trimChars rest)
    else if ['/', '*'].isPrefixOf body then
      match behindBlockComment (body.drop 2) with
      | none => none
      | some rest => stripComments fuel (trimChars rest)
    else some body

lemma length_trimChars_le (text : List Char) : (trimChars text).length ≤ text.length :=
  calc ((text.dropWhile isSpace).rdropWhile isSpace).length
    _ ≤ (text.dropWhile isSpace).length := (List.rdropWhile_prefix _ _).length_le
    _ ≤ text.length := (List.dropWhile_suffix _).length_le

lemma length_behindBlockComment_lt {text rest : List Char} (h : behindBlockComment text = some rest) :
    rest.length < text.length := by
  induction text with
  | nil => simp [behindBlockComment] at h
  | cons c text ih =>
    rw [behindBlockComment] at h
    split_ifs at h
    · obtain rfl : text.drop 1 = rest := by simpa using h
      simp only [List.length_drop, List.length_cons]
      omega
    · exact (ih h).trans (Nat.lt_succ_self _)

/-- The loop ends of itself: more rounds than there are characters change nothing. -/
lemma stripComments_succ {fuel : ℕ} {body : List Char} (h : body.length ≤ fuel) :
    stripComments (fuel + 1) body = stripComments fuel body := by
  induction fuel generalizing body with
  | zero =>
    obtain rfl := List.length_eq_zero_iff.mp (Nat.le_zero.mp h)
    rfl
  | succ fuel ih =>
    have hnext : ∀ rest : List Char, rest.length < body.length →
        stripComments (fuel + 1) (trimChars rest) = stripComments fuel (trimChars rest) := by
      intro rest hrest
      have htrim := length_trimChars_le rest
      exact ih (by omega)
    rw [stripComments, stripComments]
    split_ifs
    · cases hline : body.dropWhile (· ≠ '\n') with
      | nil => rfl
      | cons c rest =>
        have hle := (List.dropWhile_suffix (l := body) (· ≠ '\n')).length_le
        rw [hline, List.length_cons] at hle
        exact hnext rest hle
    · cases hblock : behindBlockComment (body.drop 2) with
      | none => rfl
      | some rest =>
        have hlt := length_behindBlockComment_lt hblock
        rw [List.length_drop] at hlt
        exact hnext rest (by omega)
    · rfl

def stripLeadingSQLComments (statement : List Char) : Option (List Char) :=
  stripComments statement.length (trimChars statement)

/-! ## The pattern -/

/-- How a reader takes the characters of a statement: the case of keywords is ignored by `fold`, that of
names is lowered by `lower`. -/
structure Reader where
  fold : Char → Char
  lower : Char → Char
  isBlank : Char → Bool
  isNameStart : Char → Bool
  isNamePart : Char → Bool

namespace Reader

variable (r : Reader)

def keyword (word : String) (text : List Char) : Option (List Char) :=
  if (text.take word.toList.length).map r.fold = word.toList then some (text.drop word.toList.length) else none

def blanks : List Char → Option (List Char)
  | [] => none
  | c :: rest => if r.isBlank c then some (rest.dropWhile r.isBlank) else none

/-- A keyword and the white space behind it. -/
def word (w : String) (text : List Char) : Option (List Char) := (r.keyword w text).bind r.blanks

def plainName : List Char → Option (List Char × List Char)
  | [] => none
  | c :: rest =>
    if r.isNameStart c then some (c :: rest.takeWhile r.isNamePart, rest.dropWhile r.isNamePart) else none

/-- The table of a build: a name before a bracket, white space or the end. -/
def matchTable (text : List Char) : Option (List Char) :=
  (r.plainName text).bind fun (table, rest) =>
    if rest.head?.all fun c => c = '(' || r.isBlank c then some table else none

/-- The index and the table of a build. -/
def matchTarget (text : List Char) : Option (List Char × List Char) :=
  (r.plainName text).bind fun (name, rest) =>
    ((r.blanks rest).bind (r.word "on")).bind fun rest =>
      (((r.word "only" rest).bind r.matchTable).orElse fun _ => r.matchTable rest).map fun table => (name, table)

/-- The groups of the pattern: whether the build is skipped for an index that is there, the index and the table. -/
def concurrentIndexBuildPattern (body : List Char) : Option (Bool × List Char × List Char) :=
  (r.word "create" body).bind fun rest =>
    ((r.word "index" ((r.word "unique" rest).getD rest)).bind (r.word "concurrently")).bind fun rest =>
      (((((r.word "if" rest).bind (r.word "not")).bind (r.word "exists")).bind r.matchTarget).map (true, ·)).orElse
        fun _ => (r.matchTarget rest).map (false, ·)

end Reader

structure ConcurrentIndexBuild where
  name : List Char
  table : List Char
  ifNotExists : Bool
  deriving DecidableEq

def Reader.build (r : Reader) (body : List Char) : Option ConcurrentIndexBuild :=
  (r.concurrentIndexBuildPattern body).map fun (ifNotExists, name, table) =>
    { name := name.map r.lower, table := table.map r.lower, ifNotExists }

lemma Reader.build_nil (r : Reader) : r.build [] = none := rfl

/-- A letter beyond ASCII whose lower case is a letter of ASCII. -/
def kelvinSign : Char := Char.ofNat 0x212A

/-- The pattern of the program, and `strings.ToLower` on the characters of a name. -/
def programReader : Reader where
  fold := foldChar
  lower := toLowerChar
  isBlank c := c = ' ' || c = '\t' || c = '\n' || c = '\x0c' || c = '\r'
  isNameStart c := c = '_' || (foldChar c).isLower
  isNamePart c := c = '_' || (foldChar c).isLower || c.isDigit

def parseConcurrentIndexBuild (statement : List Char) : Option ConcurrentIndexBuild :=
  (stripLeadingSQLComments statement).bind programReader.build

/-! ## The database's reading -/

/-- The white space of the database. -/
def isPostgresBlank (c : Char) : Bool := c = ' ' || c = '\t' || c = '\n' || c = '\x0b' || c = '\x0c' || c = '\r'

/-- Only letters of ASCII are lowered; every character beyond ASCII may be in a name. -/
def postgresReader : Reader where
  fold := Char.toLower
  lower := Char.toLower
  isBlank := isPostgresBlank
  isNameStart c := c = '_' || c.isAlpha || 128 ≤ c.toNat
  isNamePart c := c = '_' || c.isAlpha || 128 ≤ c.toNat || c.isDigit || c = '$'

/-- What follows a block comment with `depth` more comments open around it: block comments nest. -/
def behindNestedComment : (depth : ℕ) → List Char → Option (List Char)
  | _, [] => none
  | _, [_] => none
  | depth, c :: d :: rest =>
    if c = '/' ∧ d = '*' then behindNestedComment (depth + 1) rest
    else if c = '*' ∧ d = '/' then if depth = 0 then some rest else behindNestedComment (depth - 1) rest
    else behindNestedComment depth (d :: rest)

/-- The white space and the comments in front; a line ends with either line end. -/
def postgresStrip : ℕ → List Char → Option (List Char)
  | 0, text => some text
  | fuel + 1, text =>
    let body := text.dropWhile isPostgresBlank
    if ['-', '-'].isPrefixOf body then postgresStrip fuel (body.dropWhile fun c => c ≠ '\n' ∧ c ≠ '\r')
    else if ['/', '*'].isPrefixOf body then (behindNestedComment 0 (body.drop 2)).bind (postgresStrip fuel)
    else some body

/-- What a statement is to its reader. -/
inductive Reading where
  | comment
  | build (i : ConcurrentIndexBuild)
  | other
  deriving DecidableEq

def Reader.reading (r : Reader) : (body : Option (List Char)) → Reading
  | none => .other
  | some body => if body = [] then .comment else (r.build body).elim .other .build

def programReading (statement : List Char) : Reading := programReader.reading (stripLeadingSQLComments statement)

def postgresReading (statement : List Char) : Reading :=
  postgresReader.reading (postgresStrip (statement.length + 1) statement)

/-! ## Migrations that only build indexes -/

def retrySafeLoop : (builds : ℕ) → List (List Char) → Bool
  | builds, [] => 0 < builds
  | builds, statement :: rest =>
    match stripLeadingSQLComments statement with
    | none => false
    | some body =>
      if body = [] then retrySafeLoop builds rest
      else
        match parseConcurrentIndexBuild statement with
        | none => false
        | some build => if !build.ifNotExists then false else retrySafeLoop (builds + 1) rest

def migrationIsRetrySafeIndexBuild (migration : MigrationFile) : Bool :=
  if migrationRunsInTransaction migration then false
  else
    match splitSQLStatements migration.sql with
    | .error _ => false
    | .ok statements => retrySafeLoop 0 statements

/-- A comment, or a build that is skipped for an index that is there. -/
def Reading.Repeatable : Reading → Prop
  | comment => True
  | build i => i.ifNotExists = true
  | other => False

instance : DecidablePred Reading.Repeatable
  | .comment => inferInstanceAs (Decidable True)
  | .build i => inferInstanceAs (Decidable (i.ifNotExists = true))
  | .other => inferInstanceAs (Decidable False)

lemma retrySafeLoop_spec {builds : ℕ} {statements : List (List Char)} (h : retrySafeLoop builds statements = true) :
    ∀ statement ∈ statements, (programReading statement).Repeatable := by
  induction statements generalizing builds with
  | nil => simp
  | cons statement rest ih =>
    rw [retrySafeLoop] at h
    cases hbody : stripLeadingSQLComments statement with
    | none => simp [hbody] at h
    | some body =>
      simp only [hbody] at h
      split_ifs at h with hempty
      · refine List.forall_mem_cons.mpr ⟨?_, ih h⟩
        simp [programReading, hbody, Reader.reading, hempty, Reading.Repeatable]
      · have hparse : parseConcurrentIndexBuild statement = programReader.build body := by
          simp [parseConcurrentIndexBuild, hbody]
        cases hbuild : programReader.build body with
        | none => simp [hparse, hbuild] at h
        | some build =>
          simp only [hparse, hbuild] at h
          cases hexists : build.ifNotExists with
          | false => simp [hexists] at h
          | true =>
            simp only [hexists, Bool.not_true, Bool.false_eq_true, if_false] at h
            refine List.forall_mem_cons.mpr ⟨?_, ih h⟩
            simp [programReading, hbody, Reader.reading, hempty, hbuild, Reading.Repeatable, hexists]

/-- A migration that may be retried runs outside of a transaction and does nothing but build indexes. -/
lemma migrationIsRetrySafeIndexBuild_spec {migration : MigrationFile}
    (h : migrationIsRetrySafeIndexBuild migration = true) :
    migrationRunsInTransaction migration = false ∧
      ∃ statements, splitSQLStatements migration.sql = .ok statements ∧
        ∀ statement ∈ statements, (programReading statement).Repeatable := by
  rw [migrationIsRetrySafeIndexBuild] at h
  split_ifs at h with htransaction
  refine ⟨by simpa using htransaction, ?_⟩
  cases hsplit : splitSQLStatements migration.sql with
  | error e => simp [hsplit] at h
  | ok statements =>
    rw [hsplit] at h
    exact ⟨statements, rfl, retrySafeLoop_spec h⟩

/-- What the program takes for a build is what its reading says. -/
lemma programReading_eq_build_iff {statement : List Char} {i : ConcurrentIndexBuild} :
    programReading statement = .build i ↔ parseConcurrentIndexBuild statement = some i := by
  rw [programReading, parseConcurrentIndexBuild]
  cases hbody : stripLeadingSQLComments statement with
  | none => simp [Reader.reading]
  | some body =>
    by_cases hempty : body = []
    · simp [hempty, Reader.reading, Reader.build_nil]
    · cases hbuild : programReader.build body with
      | none => simp [Reader.reading, hempty, hbuild]
      | some j => simp [Reader.reading, hempty, hbuild]

end Packmon.Migrations

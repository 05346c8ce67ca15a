import Packmon.Library.GoText

/-!
# The statements of a migration

`splitSQLStatements` cuts a migration at its semicolons, but not at those in strings, quoted identifiers,
comments and dollar-quoted strings.  A migration is a sequence of lexemes (`Lexeme`); where no lexeme
runs into the next one (`Lexeme.Joins`) what is found are the texts between the semicolons among them
(`splitSQLStatements_lexemes`).

The loop looks ahead and jumps, so it may be inside of the next lexeme before it comes to it: a string
right behind a string of the same quote, and a hyphen before a comment.  That is why the lemmas of the
lexemes are about all of the text that is left.
-/

namespace Packmon.Migrations

open GoText

/-! ## The loop -/

inductive SplitMode where
  | normal
  | singleQuote
  | doubleQuote
  | lineComment
  | blockComment
  | dollarQuote (tag : List Char)
  deriving DecidableEq

/-- The loop between two characters; `skip` characters ahead are written already. -/
structure SplitState where
  statements : List (List Char) := []
  statement : List Char := []
  mode : SplitMode := .normal
  skip : ℕ := 0
  deriving DecidableEq

def isDollarQuoteTagChar (c : Char) : Bool := c = '_' || c.isAlphanum

/-- The characters of a tag behind its first dollar, and its last dollar. -/
def readDollarQuoteTagEnd : List Char → Option (List Char)
  | [] => none
  | c :: rest =>
    if c = '$' then some ['$']
    else if !isDollarQuoteTagChar c then none
    else (readDollarQuoteTagEnd rest).map (c :: ·)

def readDollarQuoteTag : List Char → Option (List Char)
  | [] => none
  | c :: rest => if c ≠ '$' then none else (readDollarQuoteTagEnd rest).map ('$' :: ·)

namespace SplitState

variable (s : SplitState)

def write (text : List Char) : SplitState := { s with statement := s.statement ++ text }

def endStatement : SplitState :=
  if trimChars s.statement ≠ [] then
    { s with statements := s.statements ++ [trimChars s.statement], statement := [] }
  else { s with statement := [] }

def readNormal (c : Char) (rest : List Char) : SplitState :=
  if c = '\'' then { s.write [c] with mode := .singleQuote }
  else if c = '"' then { s.write [c] with mode := .doubleQuote }
  else if c = '-' ∧ rest.head? = some '-' then { s.write ['-', '-'] with mode := .lineComment, skip := 1 }
  else if c = '/' ∧ rest.head? = some '*' then { s.write ['/', '*'] with mode := .blockComment, skip := 1 }
  else if c = '$' then
    match readDollarQuoteTag (c :: rest) with
    | some tag => { s.write tag with mode := .dollarQuote tag, skip := tag.length - 1 }
    | none => s.write [c]
  else if c = ';' then s.endStatement
  else s.write [c]

/-- Within quotes; a doubled quote does not end them. -/
def readQuoted (q c : Char) (rest : List Char) : SplitState :=
  if c = q then
    if rest.head? = some q then { s.write [c, q] with skip := 1 } else { s.write [c] with mode := .normal }
  else s.write [c]

def readLineComment (c : Char) : SplitState :=
  if c = '\n' then { s.write [c] with mode := .normal } else s.write [c]

def readBlockComment (c : Char) (rest : List Char) : SplitState :=
  if c = '*' ∧ rest.head? = some '/' then { s.write ['*', '/'] with mode := .normal, skip := 1 }
  else s.write [c]

def readDollarQuote (tag : List Char) (c : Char) (rest : List Char) : SplitState :=
  if tag.isPrefixOf (c :: rest) then { s.write tag with mode := .normal, skip := tag.length - 1 }
  else s.write [c]

def read (c : Char) (rest : List Char) : SplitState :=
  if s.skip ≠ 0 then { s with skip := s.skip - 1 }
  else
    match s.mode with
    | .normal => s.readNormal c rest
    | .singleQuote => s.readQuoted '\'' c rest
    | .doubleQuote => s.readQuoted '"' c rest
    | .lineComment => s.readLineComment c
    | .blockComment => s.readBlockComment c rest
    | .dollarQuote tag => s.readDollarQuote tag c rest

end SplitState

def splitLoop : SplitState → List Char → SplitState
  | s, [] => s
  | s, c :: rest => splitLoop (s.read c rest) rest

def SplitMode.unterminated : SplitMode → Bool
  | .normal => false
  | .singleQuote => true
  | .doubleQuote => true
  | .lineComment => false
  | .blockComment => true
  | .dollarQuote _ => true

def SplitState.finish (s : SplitState) : Except String (List (List Char)) :=
  if s.mode.unterminated then .error "unterminated SQL statement" else .ok s.endStatement.statements

def splitSQLStatements (migrationSQL : List Char) : Except String (List (List Char)) :=
  (splitLoop {} migrationSQL).finish

/-! ## Lexemes -/

/-- Two characters that start a comment. -/
def OpensComment (c d : Char) : Prop := c = '-' ∧ d = '-' ∨ c = '/' ∧ d = '*'

instance (c d : Char) : Decidable (OpensComment c d) := inferInstanceAs (Decidable (_ ∨ _))

def dollarDelimiter (tag : List Char) : List Char := '$' :: (tag ++ ['$'])

/-- The characters of a text between quotes, with the quotes among them doubled. -/
def doubled (q : Char) (body : List Char) : List Char := body.flatMap fun c => if c = q then [q, q] else [c]

/-- The quotes of strings and of identifiers. -/
inductive SqlQuote where
  | single
  | double
  deriving DecidableEq

def SqlQuote.char : SqlQuote → Char
  | .single => '\''
  | .double => '"'

inductive Lexeme where
  | quoted (quote : SqlQuote) (body : List Char)
  | lineComment (body : List Char) (inLine : '\n' ∉ body)
  /-- A comment in a last line that is not ended. -/
  | lastComment (body : List Char) (inLine : '\n' ∉ body)
  | blockComment (body : List Char) (noEnd : ¬ ['*', '/'] <:+: body)
  /-- The first delimiter behind the opening one is the closing one. -/
  | dollarQuoted (tag body : List Char) (isTag : ∀ c ∈ tag, isDollarQuoteTagChar c = true)
      (noDelimiter : ¬ dollarDelimiter tag <:+: body ++ '$' :: tag)
  | semicolon
  | other (text : List Char) (nonempty : text ≠ []) (plain : ∀ c ∈ text, c ∉ ['\'', '"', '$', ';'])
      (noComment : text.IsChain fun c d => ¬ OpensComment c d)

namespace Lexeme

def text : Lexeme → List Char
  | quoted quote body => quote.char :: (doubled quote.char body ++ [quote.char])
  | lineComment body _ => '-' :: '-' :: (body ++ ['\n'])
  | lastComment body _ => '-' :: '-' :: body
  | blockComment body _ => '/' :: '*' :: (body ++ ['*', '/'])
  | dollarQuoted tag body _ _ => dollarDelimiter tag ++ (body ++ dollarDelimiter tag)
  | semicolon => [';']
  | other text _ _ _ => text

def isSemicolon : Lexeme → Bool
  | semicolon => true
  | quoted _ _ => false
  | lineComment _ _ => false
  | lastComment _ _ => false
  | blockComment _ _ => false
  | dollarQuoted _ _ _ _ => false
  | other _ _ _ _ => false

/-- The second lexeme may follow the first: no comment starts where two texts meet, and nothing follows
a last comment. -/
def Joins : Lexeme → Lexeme → Prop
  | lastComment _ _, _ => False
  | other text _ _ _, other next _ _ _ => ∀ c ∈ text.getLast?, ∀ d ∈ next.head?, ¬ OpensComment c d
  | _, _ => True

end Lexeme

/-- The texts between the semicolons of the lexemes, without white space around them and without those
that are blank. -/
def statementsOf (lexemes : List Lexeme) : List (List Char) :=
  ((lexemes.splitOnP Lexeme.isSemicolon).map fun segment => trimChars (segment.flatMap Lexeme.text)).filter (· ≠ [])

/-! ## Lexemes in the loop -/

section Loop

variable {statements : List (List Char)} {statement body tag rest : List Char}

/-- Characters that are written already are passed. -/
lemma splitLoop_skip (s : SplitState) (text rest : List Char) :
    splitLoop { s with skip := text.length } (text ++ rest) = splitLoop { s with skip := 0 } rest := by
  induction text with
  | nil => rfl
  | cons c text ih => exact ih

def SqlQuote.mode : SqlQuote → SplitMode
  | .single => .singleQuote
  | .double => .doubleQuote

lemma read_quoted (quote : SqlQuote) (c : Char) (rest : List Char) :
    SplitState.read ⟨statements, statement, quote.mode, 0⟩ c rest =
      SplitState.readQuoted ⟨statements, statement, quote.mode, 0⟩ quote.char c rest := by
  cases quote <;> rfl

lemma read_quote (quote : SqlQuote) (rest : List Char) :
    SplitState.read ⟨statements, statement, .normal, 0⟩ quote.char rest =
      ⟨statements, statement ++ [quote.char], quote.mode, 0⟩ := by
  cases quote <;> rfl

/-- A doubled quote is passed at once. -/
lemma splitLoop_doubledQuote (quote : SqlQuote) :
    splitLoop ⟨statements, statement, quote.mode, 0⟩ (quote.char :: quote.char :: rest) =
      splitLoop ⟨statements, statement ++ [quote.char, quote.char], quote.mode, 0⟩ rest := by
  rw [splitLoop, read_quoted, SplitState.readQuoted, if_pos rfl, List.head?_cons, if_pos rfl]
  exact splitLoop_skip ⟨statements, statement ++ [quote.char, quote.char], quote.mode, 1⟩ [quote.char] rest

/-- The end of a string; a quote right behind it is the start of the next one or a doubled quote of this. -/
lemma splitLoop_closingQuote (quote : SqlQuote) :
    splitLoop ⟨statements, statement, quote.mode, 0⟩ (quote.char :: rest) =
      splitLoop ⟨statements, statement ++ [quote.char], .normal, 0⟩ rest := by
  by_cases hnext : rest.head? = some quote.char
  · obtain ⟨next, rfl⟩ := List.head?_eq_some_iff.mp hnext
    rw [splitLoop_doubledQuote, splitLoop, read_quote, List.append_assoc]
    rfl
  · rw [splitLoop, read_quoted, SplitState.readQuoted, if_pos rfl, if_neg hnext]
    rfl

lemma splitLoop_quotedBody (quote : SqlQuote) (body : List Char) :
    splitLoop ⟨statements, statement, quote.mode, 0⟩ (doubled quote.char body ++ quote.char :: rest) =
      splitLoop ⟨statements, statement ++ (doubled quote.char body ++ [quote.char]), .normal, 0⟩ rest := by
  induction body generalizing statement with
  | nil => exact splitLoop_closingQuote quote
  | cons c body ih =>
    have hcons : doubled quote.char (c :: body) =
        (if c = quote.char then [quote.char, quote.char] else [c]) ++ doubled quote.char body := List.flatMap_cons
    rw [hcons]
    by_cases hc : c = quote.char
    · rw [if_pos hc, List.append_assoc]
      refine (splitLoop_doubledQuote quote).trans (ih.trans ?_)
      rw [List.append_assoc, List.append_assoc]
    · rw [if_neg hc, List.append_assoc, List.singleton_append, splitLoop, read_quoted, SplitState.readQuoted, if_neg hc]
      refine ih.trans ?_
      rw [List.append_assoc, List.append_assoc]

lemma splitLoop_lineBody (h : '\n' ∉ body) :
    splitLoop ⟨statements, statement, .lineComment, 0⟩ (body ++ rest) =
      splitLoop ⟨statements, statement ++ body, .lineComment, 0⟩ rest := by
  induction body generalizing statement with
  | nil => rw [List.nil_append, List.append_nil]
  | cons c body ih =>
    obtain ⟨hc, hbody⟩ := List.ne_and_not_mem_of_not_mem_cons h
    have hread : SplitState.read ⟨statements, statement, .lineComment, 0⟩ c (body ++ rest) =
        ⟨statements, statement ++ [c], .lineComment, 0⟩ := if_neg hc.symm
    rw [List.cons_append, splitLoop, hread, ih hbody, List.append_assoc, List.singleton_append]

lemma splitLoop_blockBody (h : ¬ ['*', '/'] <:+: body) :
    splitLoop ⟨statements, statement, .blockComment, 0⟩ (body ++ '*' :: '/' :: rest) =
      splitLoop ⟨statements, statement ++ (body ++ ['*', '/']), .normal, 0⟩ rest := by
  induction body generalizing statement with
  | nil => exact splitLoop_skip ⟨statements, statement ++ ['*', '/'], .normal, 1⟩ ['/'] rest
  | cons c body ih =>
    have hend : ¬ (c = '*' ∧ (body ++ '*' :: '/' :: rest).head? = some '/') := by
      rintro ⟨rfl, hhead⟩
      cases body with
      | nil => exact absurd hhead (by simp)
      | cons d body =>
        obtain rfl : d = '/' := by simpa using hhead
        exact h ⟨[], body, rfl⟩
    have hread : SplitState.read ⟨statements, statement, .blockComment, 0⟩ c (body ++ '*' :: '/' :: rest) =
        ⟨statements, statement ++ [c], .blockComment, 0⟩ := if_neg hend
    rw [List.cons_append, splitLoop, hread, ih fun hpart => h (hpart.trans (List.suffix_cons c body).isInfix),
      List.append_assoc, List.singleton_append, List.cons_append]

lemma readDollarQuoteTag_delimiter (htag : ∀ c ∈ tag, isDollarQuoteTagChar c = true) (rest : List Char) :
    readDollarQuoteTag (dollarDelimiter tag ++ rest) = some (dollarDelimiter tag) := by
  have hend : readDollarQuoteTagEnd ((tag ++ ['$']) ++ rest) = some (tag ++ ['$']) := by
    induction tag with
    | nil => rfl
    | cons c tag ih =>
      obtain ⟨hc, htag⟩ := List.forall_mem_cons.mp htag
      have hdollar : c ≠ '$' := by
        rintro rfl
        exact absurd hc (by decide)
      rw [List.cons_append, List.cons_append, readDollarQuoteTagEnd, if_neg hdollar, hc, ih htag]
      rfl
  rw [dollarDelimiter, List.cons_append, readDollarQuoteTag, if_neg (by simp), hend]
  rfl

lemma read_dollar {delimiter : List Char} (h : readDollarQuoteTag ('$' :: rest) = some delimiter) :
    SplitState.read ⟨statements, statement, .normal, 0⟩ '$' rest =
      ⟨statements, statement ++ delimiter, .dollarQuote delimiter, delimiter.length - 1⟩ := by
  have hread : SplitState.read ⟨statements, statement, .normal, 0⟩ '$' rest =
      SplitState.readNormal ⟨statements, statement, .normal, 0⟩ '$' rest := rfl
  have hline : ¬ ('$' = '-' ∧ rest.head? = some '-') := fun hline => absurd hline.1 (by decide)
  have hblock : ¬ ('$' = '/' ∧ rest.head? = some '*') := fun hblock => absurd hblock.1 (by decide)
  rw [hread, SplitState.readNormal, if_neg (by decide), if_neg (by decide), if_neg hline, if_neg hblock,
    if_pos rfl, h]
  rfl

/-- A delimiter is written and passed at once. -/
lemma splitLoop_delimiter (mode : SplitMode) (tag rest : List Char) :
    splitLoop ⟨statements, statement, mode, (dollarDelimiter tag).length - 1⟩ ((tag ++ ['$']) ++ rest) =
      splitLoop ⟨statements, statement, mode, 0⟩ rest := by
  have hlength : (dollarDelimiter tag).length - 1 = (tag ++ ['$']).length := rfl
  rw [hlength]
  exact splitLoop_skip ⟨statements, statement, mode, 0⟩ (tag ++ ['$']) rest

lemma splitLoop_dollarBody (h : ¬ dollarDelimiter tag <:+: body ++ '$' :: tag) :
    splitLoop ⟨statements, statement, .dollarQuote (dollarDelimiter tag), 0⟩
        (body ++ (dollarDelimiter tag ++ rest)) =
      splitLoop ⟨statements, statement ++ (body ++ dollarDelimiter tag), .normal, 0⟩ rest := by
  induction body generalizing statement with
  | nil =>
    have hread : SplitState.read ⟨statements, statement, .dollarQuote (dollarDelimiter tag), 0⟩ '$'
        ((tag ++ ['$']) ++ rest) =
          ⟨statements, statement ++ dollarDelimiter tag, .normal, (dollarDelimiter tag).length - 1⟩ :=
      if_pos (List.isPrefixOf_iff_prefix.mpr (List.prefix_append (dollarDelimiter tag) rest))
    exact (congrArg (splitLoop · _) hread).trans (splitLoop_delimiter .normal tag rest)
  | cons c body ih =>
    have hinit : ¬ (dollarDelimiter tag).isPrefixOf (c :: (body ++ (dollarDelimiter tag ++ rest))) = true := by
      intro hinit
      have hwhole : c :: (body ++ (dollarDelimiter tag ++ rest)) = ((c :: body) ++ '$' :: tag) ++ '$' :: rest := by
        simp [dollarDelimiter]
      rw [hwhole, List.isPrefixOf_iff_prefix] at hinit
      refine h (List.IsPrefix.isInfix ?_)
      refine List.prefix_of_prefix_length_le hinit (List.prefix_append _ _) ?_
      simp [dollarDelimiter]
    have hread : SplitState.read ⟨statements, statement, .dollarQuote (dollarDelimiter tag), 0⟩ c
        (body ++ (dollarDelimiter tag ++ rest)) =
          ⟨statements, statement ++ [c], .dollarQuote (dollarDelimiter tag), 0⟩ := if_neg hinit
    rw [List.cons_append, splitLoop, hread,
      ih fun hpart => h (hpart.trans (List.suffix_cons c (body ++ '$' :: tag)).isInfix), List.append_assoc,
      List.singleton_append, List.cons_append]

/-- A character that starts nothing. -/
lemma read_plain {c : Char} (hc : c ∉ ['\'', '"', '$', ';']) (hopens : ∀ d ∈ rest.head?, ¬ OpensComment c d) :
    SplitState.read ⟨statements, statement, .normal, 0⟩ c rest = ⟨statements, statement ++ [c], .normal, 0⟩ := by
  simp only [List.mem_cons, List.not_mem_nil, or_false, not_or] at hc
  obtain ⟨hsingle, hdouble, hdollar, hsemicolon⟩ := hc
  have hline : ¬ (c = '-' ∧ rest.head? = some '-') := fun h => hopens '-' h.2 (.inl ⟨h.1, rfl⟩)
  have hblock : ¬ (c = '/' ∧ rest.head? = some '*') := fun h => hopens '*' h.2 (.inr ⟨h.1, rfl⟩)
  show SplitState.readNormal _ c rest = _
  rw [SplitState.readNormal, if_neg hsingle, if_neg hdouble, if_neg hline, if_neg hblock, if_neg hdollar,
    if_neg hsemicolon]
  rfl

/-- A comment may start one hyphen earlier than its lexeme does. -/
lemma splitLoop_hyphens :
    splitLoop ⟨statements, statement, .normal, 0⟩ ('-' :: '-' :: '-' :: rest) =
      splitLoop ⟨statements, statement ++ ['-'], .normal, 0⟩ ('-' :: '-' :: rest) := by
  have hleft : splitLoop ⟨statements, statement, .normal, 0⟩ ('-' :: '-' :: '-' :: rest) =
      splitLoop ⟨statements, statement ++ ['-', '-'] ++ ['-'], .lineComment, 0⟩ rest := rfl
  have hright : splitLoop ⟨statements, statement ++ ['-'], .normal, 0⟩ ('-' :: '-' :: rest) =
      splitLoop ⟨statements, statement ++ ['-'] ++ ['-', '-'], .lineComment, 0⟩ rest := rfl
  rw [hleft, hright, List.append_assoc, List.append_assoc]
  rfl

/-- What may stand behind a text: a comment of its own, or nothing that starts one with it. -/
def MeetsText (text rest : List Char) : Prop :=
  ∀ c ∈ text.getLast?, (c = '-' ∧ ∃ next, rest = '-' :: '-' :: next) ∨ ∀ d ∈ rest.head?, ¬ OpensComment c d

lemma splitLoop_other {text : List Char} (hplain : ∀ c ∈ text, c ∉ ['\'', '"', '$', ';'])
    (hchain : text.IsChain fun c d => ¬ OpensComment c d) (hmeets : MeetsText text rest) :
    splitLoop ⟨statements, statement, .normal, 0⟩ (text ++ rest) =
      splitLoop ⟨statements, statement ++ text, .normal, 0⟩ rest := by
  induction text generalizing statement with
  | nil => rw [List.nil_append, List.append_nil]
  | cons c text ih =>
    obtain ⟨hc, htext⟩ := List.forall_mem_cons.mp hplain
    cases text with
    | nil =>
      obtain ⟨rfl, next, rfl⟩ | hopens := hmeets c rfl
      · exact splitLoop_hyphens
      · rw [List.singleton_append, splitLoop, read_plain hc hopens]
    | cons d text =>
      obtain ⟨hopens, hchain⟩ := List.isChain_cons_cons.mp hchain
      have hread := @read_plain statements statement ((d :: text) ++ rest) c hc (by simpa using hopens)
      rw [List.cons_append, splitLoop, hread, ih htext hchain hmeets, List.append_assoc, List.singleton_append]

/-! ## Sequences of lexemes -/

/-- What a lexeme does between statements. -/
def Lexeme.advance (s : SplitState) (l : Lexeme) : SplitState :=
  if l.isSemicolon then s.endStatement else s.write l.text

/-- What may stand behind a lexeme. -/
def Lexeme.Meets (rest : List Char) : Lexeme → Prop
  | quoted _ _ => True
  | lineComment _ _ => True
  | lastComment _ _ => rest = []
  | blockComment _ _ => True
  | dollarQuoted _ _ _ _ => True
  | semicolon => True
  | other text _ _ _ => MeetsText text rest

lemma finish_lineComment (statements : List (List Char)) (statement : List Char) :
    SplitState.finish ⟨statements, statement, .lineComment, 0⟩ =
      SplitState.finish ⟨statements, statement, .normal, 0⟩ := by
  simp only [SplitState.finish, SplitMode.unterminated, SplitState.endStatement]
  split_ifs <;> rfl

/-- One lexeme after the other; a last comment leaves the loop in it, which the end does not mind. -/
lemma finish_splitLoop_lexeme (l : Lexeme) (hmeets : l.Meets rest) :
    (splitLoop ⟨statements, statement, .normal, 0⟩ (l.text ++ rest)).finish =
      (splitLoop (l.advance ⟨statements, statement, .normal, 0⟩) rest).finish := by
  cases l with
  | quoted quote body =>
    have hopen : splitLoop ⟨statements, statement, .normal, 0⟩ ((Lexeme.quoted quote body).text ++ rest) =
        splitLoop ⟨statements, statement ++ [quote.char], quote.mode, 0⟩
          (doubled quote.char body ++ quote.char :: rest) := by
      rw [Lexeme.text, List.cons_append, splitLoop, read_quote, List.append_assoc, List.singleton_append]
    rw [hopen, splitLoop_quotedBody, List.append_assoc]
    rfl
  | lineComment body hbody =>
    have hopen : splitLoop ⟨statements, statement, .normal, 0⟩ ((Lexeme.lineComment body hbody).text ++ rest) =
        splitLoop ⟨statements, statement ++ ['-', '-'], .lineComment, 0⟩ (body ++ '\n' :: rest) := by
      rw [Lexeme.text, List.cons_append, List.cons_append, List.append_assoc]
      rfl
    have hclose : splitLoop ⟨statements, statement ++ ['-', '-'] ++ body, .lineComment, 0⟩ ('\n' :: rest) =
        splitLoop ⟨statements, statement ++ ['-', '-'] ++ body ++ ['\n'], .normal, 0⟩ rest := rfl
    rw [hopen, splitLoop_lineBody hbody, hclose, List.append_assoc, List.append_assoc]
    rfl
  | lastComment body hbody =>
    obtain rfl : rest = [] := hmeets
    have hopen : splitLoop ⟨statements, statement, .normal, 0⟩ ((Lexeme.lastComment body hbody).text ++ []) =
        splitLoop ⟨statements, statement ++ ['-', '-'], .lineComment, 0⟩ (body ++ []) := rfl
    rw [hopen, splitLoop_lineBody hbody, List.append_assoc]
    exact finish_lineComment statements _
  | blockComment body hbody =>
    have hopen : splitLoop ⟨statements, statement, .normal, 0⟩ ((Lexeme.blockComment body hbody).text ++ rest) =
        splitLoop ⟨statements, statement ++ ['/', '*'], .blockComment, 0⟩ (body ++ '*' :: '/' :: rest) := by
      rw [Lexeme.text, List.cons_append, List.cons_append, List.append_assoc]
      rfl
    rw [hopen, splitLoop_blockBody hbody, List.append_assoc]
    rfl
  | dollarQuoted tag body htag hbody =>
    have hopen : splitLoop ⟨statements, statement, .normal, 0⟩
        ((Lexeme.dollarQuoted tag body htag hbody).text ++ rest) =
          splitLoop ⟨statements, statement ++ dollarDelimiter tag, .dollarQuote (dollarDelimiter tag), 0⟩
            (body ++ (dollarDelimiter tag ++ rest)) := by
      have hread := @read_dollar statements statement _ _
        (readDollarQuoteTag_delimiter htag (body ++ (dollarDelimiter tag ++ rest)))
      rw [Lexeme.text, List.append_assoc, List.append_assoc]
      exact (congrArg (splitLoop · _) hread).trans (splitLoop_delimiter _ tag _)
    rw [hopen, splitLoop_dollarBody hbody, List.append_assoc]
    rfl
  | semicolon => rfl
  | other text hne hplain hchain =>
    rw [Lexeme.text, splitLoop_other hplain hchain hmeets]
    rfl

lemma Lexeme.meets_nil (l : Lexeme) : l.Meets [] := by
  cases l with
  | lastComment body hbody => rfl
  | other text hne hplain hchain => exact fun c _ => .inr (by simp)
  | _ => exact trivial

/-- What starts with another character than a hyphen or a star starts no comment with a text. -/
lemma meetsText_of_head {text : List Char} {c : Char} (hhyphen : c ≠ '-') (hstar : c ≠ '*') (rest : List Char) :
    MeetsText text (c :: rest) := by
  refine fun b _ => .inr ?_
  rintro d hd (⟨-, rfl⟩ | ⟨-, rfl⟩)
  · exact hhyphen (Option.some.inj hd)
  · exact hstar (Option.some.inj hd)

lemma meetsText_comment (text rest : List Char) : MeetsText text ('-' :: '-' :: rest) := by
  intro c _
  by_cases hc : c = '-'
  · exact .inl ⟨hc, rest, rfl⟩
  · refine .inr ?_
    rintro d hd (⟨hhyphen, -⟩ | ⟨-, rfl⟩)
    · exact hc hhyphen
    · exact absurd (Option.some.inj hd) (by decide)

lemma Lexeme.Joins.meets {l next : Lexeme} (h : l.Joins next) (rest : List Char) :
    l.Meets (next.text ++ rest) := by
  cases l with
  | lastComment body hbody => exact h.elim
  | other text hne hplain hchain =>
    cases next with
    | quoted quote body => cases quote <;> exact meetsText_of_head (by decide) (by decide) _
    | lineComment body hbody => exact meetsText_comment text _
    | lastComment body hbody => exact meetsText_comment text _
    | blockComment body hbody => exact meetsText_of_head (by decide) (by decide) _
    | dollarQuoted tag body htag hbody => exact meetsText_of_head (by decide) (by decide) _
    | semicolon => exact meetsText_of_head (by decide) (by decide) _
    | other text' hne' hplain' hchain' =>
      intro c hc
      refine .inr ?_
      intro d hd
      refine h c hc d ?_
      rwa [Lexeme.text, List.head?_append_of_ne_nil _ hne'] at hd
  | _ => exact trivial

lemma exists_advance (l : Lexeme) :
    ∃ statements' statement', l.advance ⟨statements, statement, .normal, 0⟩ =
      ⟨statements', statement', .normal, 0⟩ := by
  unfold Lexeme.advance SplitState.endStatement
  split_ifs <;> exact ⟨_, _, rfl⟩

/-- The loop goes from lexeme to lexeme. -/
lemma finish_splitLoop_lexemes {lexemes : List Lexeme} (h : lexemes.IsChain Lexeme.Joins) :
    (splitLoop ⟨statements, statement, .normal, 0⟩ (lexemes.flatMap Lexeme.text)).finish =
      (lexemes.foldl Lexeme.advance ⟨statements, statement, .normal, 0⟩).finish := by
  induction lexemes generalizing statements statement with
  | nil => rfl
  | cons l lexemes ih =>
    have hmeets : l.Meets (lexemes.flatMap Lexeme.text) := by
      cases lexemes with
      | nil => exact l.meets_nil
      | cons next lexemes => exact (List.isChain_cons_cons.mp h).1.meets _
    obtain ⟨statements', statement', hadvance⟩ := @exists_advance statements statement l
    rw [List.flatMap_cons, finish_splitLoop_lexeme l hmeets, List.foldl_cons, hadvance]
    exact ih h.of_cons

/-- The segments between semicolons, the first behind what is written already. -/
def segmentsBehind (statement : List Char) (lexemes : List Lexeme) : List (List Char) :=
  ((lexemes.splitOnP Lexeme.isSemicolon).map (List.flatMap Lexeme.text)).modifyHead (statement ++ ·)

lemma segmentsBehind_cons (l : Lexeme) (lexemes : List Lexeme) :
    segmentsBehind statement (l :: lexemes) =
      if l.isSemicolon then statement :: segmentsBehind [] lexemes
      else segmentsBehind (statement ++ l.text) lexemes := by
  obtain ⟨segment, segments, hsplit⟩ :=
    List.exists_cons_of_ne_nil (List.splitOnP_ne_nil Lexeme.isSemicolon lexemes)
  rw [segmentsBehind, segmentsBehind, segmentsBehind, List.splitOnP_cons_eq_if_modifyHead, hsplit]
  split_ifs
  · simp
  · simp

lemma finish_foldl_advance (lexemes : List Lexeme) :
    (lexemes.foldl Lexeme.advance ⟨statements, statement, .normal, 0⟩).finish =
      .ok (statements ++ ((segmentsBehind statement lexemes).map trimChars).filter (· ≠ [])) := by
  induction lexemes generalizing statements statement with
  | nil =>
    have hsegment : segmentsBehind statement [] = [statement] := by simp [segmentsBehind]
    rw [hsegment, List.foldl_nil, SplitState.finish]
    unfold SplitState.endStatement
    by_cases hblank : trimChars statement = [] <;> simp [SplitMode.unterminated, hblank]
  | cons l lexemes ih =>
    rw [List.foldl_cons, segmentsBehind_cons, Lexeme.advance]
    split_ifs with hsemicolon
    · unfold SplitState.endStatement
      by_cases hblank : trimChars statement = []
      · rw [if_neg (not_not.mpr hblank), ih, List.map_cons, List.filter_cons_of_neg (by simp [hblank])]
      · rw [if_pos hblank, ih, List.map_cons, List.filter_cons_of_pos (by simpa using hblank), List.append_assoc,
          List.singleton_append]
    · exact ih

/-- A migration is cut at the semicolons among its lexemes and nowhere else. -/
theorem splitSQLStatements_lexemes {lexemes : List Lexeme} (h : lexemes.IsChain Lexeme.Joins) :
    splitSQLStatements (lexemes.flatMap Lexeme.text) = .ok (statementsOf lexemes) := by
  have hsegments : segmentsBehind [] lexemes =
      (lexemes.splitOnP Lexeme.isSemicolon).map (List.flatMap Lexeme.text) := by
    obtain ⟨segment, segments, hsplit⟩ :=
      List.exists_cons_of_ne_nil (List.splitOnP_ne_nil Lexeme.isSemicolon lexemes)
    rw [segmentsBehind, hsplit]
    rfl
  rw [splitSQLStatements, finish_splitLoop_lexemes h, finish_foldl_advance, hsegments, List.nil_append,
    List.map_map]
  rfl

end Loop

/-- A semicolon in a dollar-quoted string, one behind it, and a comment that is not ended. -/
theorem splitSQLStatements_lexemes_dollar :
    splitSQLStatements (([.dollarQuoted [] [';'] (by simp) (by decide), .semicolon,
        .lastComment [' ', ';'] (by simp)] : List Lexeme).flatMap Lexeme.text) =
      .ok (statementsOf [.dollarQuoted [] [';'] (by simp) (by decide), .semicolon,
        .lastComment [' ', ';'] (by simp)]) :=
  splitSQLStatements_lexemes (by simp [Lexeme.Joins])

/-- Lexemes that run into each other: the delimiter of a dollar-quoted string is found a character early
when its text ends in a dollar, and two hyphens of different texts start a comment. -/
theorem splitSQLStatements_overlap :
    (¬ dollarDelimiter [] <:+: ['a', '$']) ∧
      splitSQLStatements ((dollarDelimiter [] ++ (['a', '$'] ++ dollarDelimiter [])) ++
        (['b'] ++ (dollarDelimiter [] ++ ([';'] ++ dollarDelimiter [])))) =
          .error "unterminated SQL statement" ∧
      splitSQLStatements (['-'] ++ (['-'] ++ [';'])) = .ok [['-', '-', ';']] :=
  ⟨by decide, rfl, rfl⟩

end Packmon.Migrations

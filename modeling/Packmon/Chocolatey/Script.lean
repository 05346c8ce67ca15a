import Packmon.Library.TextFields
import Packmon.Library.TextCuts

/-!
# Batch scripts

The scan of a batch script for `choco install`, `choco upgrade`, `cinst` and `cup` commands.  Physical
lines are joined to logical ones, a logical line is cut into tokens by the rules of the shell, and the
tokens in command position are looked up.  The number of blocks that are still open goes from one logical
line to the next.

The tokenizer reads a line character by character and looks ahead at a caret, at a percent sign and at a
redirection; where the loop of the source jumps ahead, the state says how many characters are still to be
skipped.  All characters with a meaning are ASCII, so that a text is a list of characters here.
-/

namespace Packmon.Chocolatey

open GoText

/-- A text in lower case. -/
def lower (text : List Char) : List Char := text.map toLowerChar

/-- Two texts that differ in case at most. -/
def equalFold (s t : List Char) : Bool := s.map foldChar = t.map foldChar

/-! ## Tokens -/

/-- A token of a logical line: a word, or a separator if it is not literal.  A word keeps the text it was
written as. -/
structure ScriptToken where
  text : List Char
  literal : Bool := false
  raw : List Char := []
  deriving DecidableEq

def separators : List (List Char) :=
  [[';'], ['|'], ['&'], ['('], [')'], ['\x7b'], ['\x7d'], ['&', '&'], ['|', '|'], ['=']]

def ScriptToken.isSeparator (t : ScriptToken) : Bool := !t.literal && separators.contains t.text

/-- The separator of this text. -/
def ScriptToken.isMark (t : ScriptToken) (text : List Char) : Bool := t.isSeparator && t.text = text

/-- The token is a keyword right behind a closing parenthesis. -/
def isBatchKeywordAfterParen (before : List ScriptToken) (token : ScriptToken) (keyword : List Char) : Bool :=
  !token.isSeparator && equalFold token.text keyword && before.getLast?.any (·.isMark [')'])

/-! ## Conditions -/

def batchIfConditions : List (List Char) :=
  ["exist".toList, "defined".toList, "errorlevel".toList, "cmdextversion".toList]

def batchCompareOps : List (List Char) :=
  ["equ".toList, "neq".toList, "lss".toList, "leq".toList, "gtr".toList, "geq".toList]

/-- Whether two equals signs stand outside of quotes and escapes, and whether text follows the first two. -/
def unquotedEqualsFrom : (inQuote escaped : Bool) → List Char → Bool × Bool
  | _, _, [] => (false, false)
  | inQuote, escaped, c :: rest =>
    if escaped then unquotedEqualsFrom inQuote false rest
    else if c = '"' then unquotedEqualsFrom (!inQuote) false rest
    else if inQuote then unquotedEqualsFrom inQuote false rest
    else if c = '^' then unquotedEqualsFrom inQuote true rest
    else if c = '=' ∧ rest.head? = some '=' then (true, rest.tail ≠ [])
    else unquotedEqualsFrom inQuote false rest

def unquotedEquals (raw : List Char) : Bool × Bool := unquotedEqualsFrom false false raw

section Conditions

variable (tokens : List ScriptToken)

def isWordAt (k : ℕ) : Bool := tokens[k]?.any fun t => !t.isSeparator

def rawAt (k : ℕ) : List Char := tokens[k]?.elim [] ScriptToken.raw

def keywordAt (k : ℕ) : List Char := lower (rawAt tokens k)

/-- The end of a condition whose operand may be missing. -/
def operandAt (k : ℕ) : ℕ × Bool := if isWordAt tokens k then (k + 1, true) else (k, false)

/-- The words `/i` and `not` that may stand before a condition. -/
def skipKeyword (keyword : List Char) (j : ℕ) : ℕ :=
  if isWordAt tokens j && keywordAt tokens j = keyword then j + 1 else j

/-- Where the command of an `if` starts, and whether its condition is complete. -/
def batchIfCommandStart (i : ℕ) : ℕ × Bool :=
  let j := skipKeyword tokens "not".toList (skipKeyword tokens "/i".toList (i + 1))
  if !isWordAt tokens j then (j, false)
  else if batchIfConditions.contains (keywordAt tokens j) then operandAt tokens (j + 1)
  else if (unquotedEquals (rawAt tokens j)).1 then
    if (unquotedEquals (rawAt tokens j)).2 then (j + 1, true) else operandAt tokens (j + 1)
  else if !isWordAt tokens (j + 1) then (j + 1, false)
  else if (unquotedEquals (rawAt tokens (j + 1))).1 || batchCompareOps.contains (keywordAt tokens (j + 1)) then
    if (unquotedEquals (rawAt tokens (j + 1))).2 then (j + 2, true) else operandAt tokens (j + 2)
  else (j + 1, true)

end Conditions

/-! ## Command position -/

def commandPrefixes : List (List Char) := ["call".toList, "sudo".toList]

/-- What is known about the position of the next token. -/
structure CommandTracker where
  batch : Bool
  command : Bool := true
  forHeader : Bool := false
  forSet : Bool := false
  ifStart : Option ℕ := none
  ifComplete : Bool := false
  deriving DecidableEq

def newCommandTracker (batch : Bool) : CommandTracker := { batch }

namespace CommandTracker

variable (c : CommandTracker) (before : List ScriptToken) (token : ScriptToken)

/-- A word that belongs to no condition. -/
def nextWord : CommandTracker × Bool :=
  let word := lower (trimFront ['@'] token.text)
  if !c.command then (c, false)
  else if commandPrefixes.contains word then (c, false)
  else if c.batch && (token.text = ['@'] || isBatchKeywordAfterParen before token "do".toList ||
      isBatchKeywordAfterParen before token "else".toList) then (c, false)
  else if c.batch && word = "for".toList then ({ c with forHeader := true, forSet := false }, false)
  else if c.batch && word = "if".toList then
    ({ c with ifStart := some before.length, ifComplete := false }, false)
  else ({ c with command := false }, true)

/-- The next token, behind those that were read before; whether it is a word in command position. -/
def next : CommandTracker × Bool :=
  if c.forHeader then
    if token.isMark ['&'] || token.isMark ['|'] || isBatchKeywordAfterParen before token "do".toList then
      ({ c with forHeader := false, command := true }, false)
    else if token.isMark ['('] then ({ c with forSet := true }, false)
    else (c, false)
  else if token.isSeparator then ({ c with command := true, ifStart := none, ifComplete := false }, false)
  else match c.ifStart with
    | none => c.nextWord before token
    | some start =>
      let condition := batchIfCommandStart (before ++ [token]) start
      if before.length < condition.1 then ({ c with ifComplete := condition.2 }, false)
      else nextWord { c with ifStart := none, ifComplete := false } before token

/-- A parenthesis that starts a word here opens a block. -/
def opensBlock : Bool :=
  if c.forHeader then !c.forSet else if c.ifStart.isSome then c.ifComplete else c.command

def readsIfCondition : Bool := c.ifStart.isSome && !c.ifComplete

end CommandTracker

/-! ## Redirections and variables -/

def isBlank (c : Char) : Bool := c = ' ' || c = '\t' || c = '\r'

/-- A stream selector before a redirection. -/
def isRedirectPrefix (token : List Char) : Bool :=
  token = ['*'] || token ≠ [] && token.all fun c => '0' ≤ c && c ≤ '9'

/-- The text goes on with the stream that is duplicated. -/
def duplicatesStream (text : List Char) : Bool :=
  text[0]? = some '&' && text[1]?.any fun d => '0' ≤ d && d ≤ '9'

/-- The length of the operator at the front, and whether it duplicates a stream. -/
def redirectionOperatorEnd (text : List Char) : ℕ × Bool :=
  let length := if ['>', '>'].isPrefixOf text then 2 else 1
  if duplicatesStream (text.drop length) then (length + 2, true) else (length, false)

/-- The length of a target; a closing parenthesis ends it where a block is open. -/
def batchTargetEnd (inBlock : Bool) : (inQuote escaped : Bool) → List Char → ℕ
  | _, _, [] => 0
  | inQuote, escaped, c :: rest =>
    if escaped then batchTargetEnd inBlock inQuote false rest + 1
    else if c = '"' then batchTargetEnd inBlock (!inQuote) false rest + 1
    else if inQuote then batchTargetEnd inBlock inQuote false rest + 1
    else if c = '^' then batchTargetEnd inBlock inQuote true rest + 1
    else if isBlank c || ['<', '>', '|', '&'].contains c || c = ')' && inBlock then 0
    else batchTargetEnd inBlock inQuote false rest + 1

/-- The length of the redirection at the front. -/
def batchRedirectionEnd (text : List Char) (inBlock : Bool) : ℕ :=
  let operator := redirectionOperatorEnd text
  if operator.2 then operator.1
  else
    let target := text.drop operator.1
    operator.1 + (target.takeWhile isBlank).length +
      batchTargetEnd inBlock false false (target.dropWhile isBlank)

/-- The characters that no name of a variable holds. -/
def breaksVariable (c : Char) : Bool := [' ', '\t', '\r', '"', '^', '&', '|', '<', '>'].contains c

/-- The length of a percent expression, from the text behind its first sign. -/
def batchVariableEnd (rest : List Char) : ℕ :=
  match rest with
  | [] => 1
  | next :: _ =>
    if next = '%' then 2
    else if next = '~' || next = '*' || ('0' ≤ next && next ≤ '9') then 1
    else if '%' ∉ rest ∨ (rest.takeWhile (· ≠ '%')).any breaksVariable = true then 1
    else (rest.takeWhile (· ≠ '%')).length + 2

/-! ## The tokenizer -/

/-- The state of the loop.  A word that has been started keeps the text it is written as so far. -/
structure BatchState where
  tokens : List ScriptToken := []
  tracker : CommandTracker := newCommandTracker true
  current : List Char := []
  quoted : Bool := false
  word : Option (List Char) := none
  inQuote : Bool := false
  argQuote : Bool := false
  depth : ℕ
  skip : ℕ := 0
  deriving DecidableEq

/-- A parenthesis right behind a word opens a block once the word is split off. -/
def opensAfterWord (word : List Char) (tokens : List ScriptToken) (tracker : CommandTracker) : Bool :=
  let afterParen := tokens.getLast?.any (·.isMark [')'])
  if word = ['@'] then tracker.opensBlock
  else if equalFold word "do".toList then afterParen
  else if equalFold word "else".toList then afterParen && !tracker.forHeader
  else if equalFold word "in".toList then tracker.forHeader && !tracker.forSet
  else false

namespace BatchState

variable (s : BatchState)

def emit (token : ScriptToken) : BatchState :=
  { s with tokens := s.tokens ++ [token], tracker := (s.tracker.next s.tokens token).1 }

def begin : BatchState := { s with word := some (s.word.getD []) }

def write (text : List Char) : BatchState := { s with current := s.current ++ text }

def flush : BatchState :=
  if s.current ≠ [] ∨ s.quoted = true then
    { s.emit ⟨s.current, true, s.word.getD []⟩ with current := [], quoted := false, word := none }
  else { s with quoted := false, word := none }

/-- A separator ends the word and the command. -/
def separate (c : Char) : BatchState := emit { s.flush with argQuote := false } { text := [c] }

/-- The character behind a caret. -/
def escape (next : Char) : BatchState :=
  if next = '"' then { s.begin with argQuote := !s.argQuote, quoted := true, skip := 1 }
  else if isBlank next && !s.argQuote && !s.tracker.readsIfCondition then { s.begin.flush with skip := 1 }
  else { s.begin.write [next] with quoted := true, skip := 1 }

/-- A caret; at the end of the line it escapes nothing. -/
def caret (rest : List Char) : BatchState := rest.head?.elim s s.escape

/-- A percent expression. -/
def expand (rest : List Char) : BatchState :=
  { s.begin.write (('%' :: rest).take (batchVariableEnd rest)) with skip := batchVariableEnd rest - 1 }

/-- A redirection; inside a group of escaped quotes it is removed from the middle of the word. -/
def redirect (text : List Char) : BatchState :=
  let length := batchRedirectionEnd text (0 < s.depth)
  if s.argQuote then { s with skip := length - 1 }
  else if !s.quoted && isRedirectPrefix s.current then { flush { s with current := [] } with skip := length - 1 }
  else { s.flush with skip := length - 1 }

/-- One character that is not skipped. -/
def readChar (c : Char) (rest : List Char) : BatchState :=
  if c = '"' then { s.begin with inQuote := !s.inQuote, argQuote := !s.argQuote, quoted := true }
  else if isBlank c && !s.argQuote then s.flush
  else if s.inQuote || isBlank c then s.begin.write [c]
  else if c = '^' then s.caret rest
  else if c = '%' then s.expand rest
  else if c = '<' || c = '>' then s.redirect (c :: rest)
  else if c = '(' && (if s.word.isSome then !s.quoted && opensAfterWord s.current s.tokens s.tracker
      else s.tracker.opensBlock) then
    separate { s with depth := s.depth + 1 } c
  else if c = ')' && 0 < s.depth then separate { s with depth := s.depth - 1 } c
  else if c = '|' || c = '&' then s.separate c
  else s.begin.write [c]

/-- A word that goes on keeps the character as it is written. -/
def keep (c : Char) : BatchState := { s with word := s.word.map (· ++ [c]) }

/-- One turn of the loop, or a character that an earlier turn has read. -/
def read (c : Char) (rest : List Char) : BatchState :=
  match s.skip with
  | 0 => (s.readChar c rest).keep c
  | skip + 1 => keep { s with skip } c

end BatchState

/-- The loop over a text that stands before another one. -/
def readBatch : BatchState → List Char → List Char → BatchState
  | s, [], _ => s
  | s, c :: text, rest => readBatch (s.read c (text ++ rest)) text rest

/-- The tokens of a logical line and the blocks that are open at its end. -/
def tokenizeBatch (line : List Char) (depth : ℕ) : List ScriptToken × ℕ :=
  let s := (readBatch { depth } line []).flush
  (s.tokens, s.depth)

/-! ## Commands -/

def chocoOptionsWithValue : List (List Char) :=
  ["version".toList, "s".toList, "source".toList, "params".toList, "parameters".toList,
    "pkgparameters".toList, "packageparameters".toList, "package-parameters".toList,
    "package-parameters-sensitive".toList, "p".toList, "ia".toList, "installargs".toList,
    "installarguments".toList, "install-args".toList, "install-arguments".toList,
    "install-arguments-sensitive".toList, "checksum".toList, "checksum64".toList, "checksum-type".toList,
    "checksumtype".toList, "checksum-type64".toList, "checksumtype64".toList, "u".toList, "user".toList,
    "password".toList, "cert".toList, "certpassword".toList, "c".toList, "cache".toList,
    "cache-location".toList, "cachelocation".toList, "proxy".toList, "proxy-user".toList,
    "proxy-password".toList, "proxy-bypass-list".toList, "t".toList, "timeout".toList,
    "execution-timeout".toList, "download-checksum".toList, "download-checksum64".toList,
    "download-checksum-type".toList, "download-checksum-type64".toList, "log-file".toList,
    "pin-reason".toList, "pinreason".toList, "except".toList, "arch".toList, "architecture".toList,
    "output-directory".toList, "od".toList, "outputdirectory".toList]

/-- `^[0-9A-Za-z][0-9A-Za-z._+-]*$` -/
def versionPattern : List Char → Bool
  | [] => false
  | c :: rest => c.isAlphanum && rest.all fun c => c.isAlphanum || ['.', '_', '+', '-'].contains c

/-- The pattern allows ASCII only, so that characters may be counted for bytes. -/
def normalizeVersion (raw : List Char) : List Char :=
  let version := trimChars raw
  if version = [] || 64 < version.length || !versionPattern version then [] else version

/-- `^[A-Za-z0-9][A-Za-z0-9._-]*$` -/
def packageIDPattern : List Char → Bool
  | [] => false
  | c :: rest => c.isAlphanum && rest.all fun c => c.isAlphanum || ['.', '_', '-'].contains c

def normalizePackageID (raw : List Char) : Option (List Char) :=
  let id := trimChars raw
  if id = [] || 100 < id.length || !packageIDPattern id then none
  else if lower id = "all".toList then none
  else some (lower id)

def isOptionToken (token : List Char) : Bool := ['-'].isPrefixOf token || ['/'].isPrefixOf token

/-- The name of an option, and its value if it is written with it. -/
def splitOption (token : List Char) (valueQuotes : List Char) : List Char × Option (List Char) :=
  let name := token.dropWhile fun c => c = '-' || c = '/'
  match name.dropWhile fun c => c ≠ '=' && c ≠ ':' with
  | [] => (lower name, none)
  | _ :: value =>
    (lower (name.takeWhile fun c => c ≠ '=' && c ≠ ':'), some (trimBy (valueQuotes.contains ·) value))

/-- The name of a program without its directory and its suffix. -/
def commandName (token : List Char) : List Char :=
  let name := lower ((trimFront ['@'] token).rtakeWhile fun c => c ≠ '\\' && c ≠ '/')
  trimBack ".exe".toList name

/-- The number of words of a `choco` command before its arguments. -/
def chocoCommandArgStart (tokens : List ScriptToken) : Option ℕ :=
  match tokens with
  | [] => none
  | token :: rest =>
    let name := commandName token.text
    if name = "choco".toList then
      match rest with
      | [] => none
      | verb :: _ =>
        if lower verb.text = "install".toList ∨ lower verb.text = "upgrade".toList then some 2 else none
    else if name = "cinst".toList ∨ name = "cup".toList then some 1
    else none

structure InstallEntry where
  name : List Char
  version : List Char
  deriving DecidableEq

/-- What the arguments of a command have given, and how many there are. -/
structure ChocoArguments where
  ids : List (List Char) := []
  version : List Char := []
  count : ℕ := 0
  deriving DecidableEq

namespace ChocoArguments

variable (a : ChocoArguments)

def setOption (option value : List Char) : ChocoArguments :=
  if option = "version".toList then { a with version := normalizeVersion value } else a

def addID (token : List Char) : ChocoArguments :=
  { a with ids := a.ids ++ (normalizePackageID token).toList }

def step (n : ℕ) : ChocoArguments := { a with count := a.count + n }

end ChocoArguments

/-- The arguments of a command go to the next separator. -/
def chocoArguments (valueQuotes : List Char) : List ScriptToken → ChocoArguments → ChocoArguments
  | [], a => a
  | token :: rest, a =>
    if token.isSeparator then a
    else if isOptionToken token.text then
      match splitOption token.text valueQuotes with
      | (option, some value) => chocoArguments valueQuotes rest ((a.setOption option value).step 1)
      | (option, none) =>
        if chocoOptionsWithValue.contains option then
          match rest with
          | [] => a.step 1
          | next :: rest =>
            if next.isSeparator then a.step 1
            else chocoArguments valueQuotes rest ((a.setOption option next.text).step 2)
        else chocoArguments valueQuotes rest (a.step 1)
    else chocoArguments valueQuotes rest ((a.addID token.text).step 1)

/-- The walk over the tokens; those of a `choco` command have been read with it. -/
def walkTokens (valueQuotes : List Char) :
    CommandTracker → List ScriptToken → ℕ → List ScriptToken → List InstallEntry
  | _, _, _, [] => []
  | tracker, before, skip + 1, token :: rest =>
    walkTokens valueQuotes tracker (before ++ [token]) skip rest
  | tracker, before, 0, token :: rest =>
    let found := tracker.next before token
    match if found.2 then chocoCommandArgStart (token :: rest) else none with
    | none => walkTokens valueQuotes found.1 (before ++ [token]) 0 rest
    | some start =>
      let arguments := chocoArguments valueQuotes ((token :: rest).drop start) {}
      arguments.ids.map (⟨·, arguments.version⟩) ++
        walkTokens valueQuotes found.1 (before ++ [token]) (start + arguments.count - 1) rest

def parseChocoTokens (tokens : List ScriptToken) (batch : Bool) : List InstallEntry :=
  walkTokens (if batch then ['"'] else ['"', '\'']) (newCommandTracker batch) [] 0 tokens

end Packmon.Chocolatey

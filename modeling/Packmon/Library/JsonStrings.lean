import Mathlib.Data.List.Basic
import Mathlib.Tactic.Common

/-!
# JSON arrays of strings over UTF-8 bytes

A codec for one shape of JSON document, an array of strings, as a general-purpose JSON library
reads and writes it.

The writer escapes quotes, backslashes, control characters, the three characters that HTML treats
specially and the two Unicode line separators.  The reader accepts what the JSON grammar accepts
for this shape: white space between tokens, every escape, surrogate pairs (a surrogate without its
partner becomes U+FFFD), `null` for an element (read as the empty string) and `null` for the whole
array.  Bytes that are not UTF-8 are read as U+FFFD.

`unmarshal_marshal` and `utf8Decode_utf8Encode` say that reading undoes writing.
-/

namespace JsonStrings

/-- The character that stands for undecodable input. -/
def replacementChar : Char := Char.ofNat 0xFFFD

/-! ## UTF-8 -/

/-- The UTF-8 bytes of a text. -/
def utf8Encode (text : List Char) : List UInt8 := text.flatMap String.utf8EncodeChar

/-- Decode bytes from the front, one scalar value a step; a byte that starts no well-formed
sequence is read as the replacement character. -/
def utf8DecodeAux : ℕ → List UInt8 → List Char
  | 0, _ => []
  | _ + 1, [] => []
  | fuel + 1, b :: bytes =>
    match (b :: bytes).toByteArray.utf8DecodeChar? 0 with
    | some c => c :: utf8DecodeAux fuel ((b :: bytes).drop c.utf8Size)
    | none => replacementChar :: utf8DecodeAux fuel bytes

/-- Decode bytes; every step consumes at least one of them. -/
def utf8Decode (bytes : List UInt8) : List Char := utf8DecodeAux bytes.length bytes

private lemma utf8DecodeAux_cons (fuel : ℕ) (c : Char) (bytes : List UInt8) :
    utf8DecodeAux (fuel + 1) (String.utf8EncodeChar c ++ bytes) =
      c :: utf8DecodeAux fuel bytes := by
  have hdecode : (String.utf8EncodeChar c ++ bytes).toByteArray.utf8DecodeChar? 0 = some c := by
    rw [List.toByteArray_append]
    exact ByteArray.utf8DecodeChar?_utf8EncodeChar_append
  have hdrop : (String.utf8EncodeChar c ++ bytes).drop c.utf8Size = bytes := by
    rw [← String.length_utf8EncodeChar, List.drop_left]
  obtain ⟨b, tail, htail⟩ := List.exists_cons_of_ne_nil (String.utf8EncodeChar_ne_nil (c := c))
  rw [htail, List.cons_append] at hdecode hdrop ⊢
  rw [utf8DecodeAux, hdecode]
  simp only [hdrop]

private lemma utf8DecodeAux_utf8Encode (text : List Char) (fuel : ℕ) (hfuel : text.length ≤ fuel) :
    utf8DecodeAux fuel (utf8Encode text) = text := by
  induction text generalizing fuel with
  | nil => cases fuel <;> rfl
  | cons c text ih =>
    obtain ⟨fuel, rfl⟩ : ∃ k, fuel = k + 1 := ⟨fuel - 1, by simp at hfuel; omega⟩
    rw [utf8Encode, List.flatMap_cons, utf8DecodeAux_cons]
    exact congrArg (c :: ·) (ih fuel (by simpa using hfuel))

/-- Decoding the UTF-8 bytes of a text gives the text back. -/
@[simp] theorem utf8Decode_utf8Encode (text : List Char) :
    utf8Decode (utf8Encode text) = text := by
  refine utf8DecodeAux_utf8Encode text _ ?_
  induction text with
  | nil => simp
  | cons c text ih =>
    have hpos : 0 < (String.utf8EncodeChar c).length :=
      List.length_pos_of_ne_nil String.utf8EncodeChar_ne_nil
    simp only [utf8Encode, List.flatMap_cons, List.length_cons, List.length_append] at ih ⊢
    omega

/-! ## Writing -/

/-- A hexadecimal digit. -/
def hexDigit (n : ℕ) : Char := "0123456789abcdef".toList.getD n '0'

/-- The escape sequence of four hexadecimal digits. -/
def unicodeEscape (n : ℕ) : List Char :=
  ['\\', 'u', hexDigit (n / 4096 % 16), hexDigit (n / 256 % 16), hexDigit (n / 16 % 16),
    hexDigit (n % 16)]

/-- How one character is written inside a string. -/
def escapeChar (c : Char) : List Char :=
  if c = '"' then ['\\', '"']
  else if c = '\\' then ['\\', '\\']
  else if c = '\x08' then ['\\', 'b']
  else if c = '\x0c' then ['\\', 'f']
  else if c = '\n' then ['\\', 'n']
  else if c = '\r' then ['\\', 'r']
  else if c = '\t' then ['\\', 't']
  else if c.toNat < 0x20 ∨ c = '<' ∨ c = '>' ∨ c = '&' ∨ c.toNat = 0x2028 ∨ c.toNat = 0x2029 then
    unicodeEscape c.toNat
  else [c]

/-- A string between its quotes. -/
def quote (s : String) : List Char := '"' :: (s.toList.flatMap escapeChar ++ ['"'])

/-- The elements after the first, each behind a comma, and the closing bracket. -/
def marshalTail : List String → List Char
  | [] => [']']
  | s :: rest => ',' :: (quote s ++ marshalTail rest)

/-- Write an array of strings. -/
def marshal : List String → List Char
  | [] => ['[', ']']
  | s :: rest => '[' :: (quote s ++ marshalTail rest)

/-! ## Reading -/

/-- White space between tokens. -/
def isSpace (c : Char) : Bool := c = ' ' || c = '\t' || c = '\n' || c = '\r'

/-- Skip white space. -/
def skipSpace (text : List Char) : List Char := text.dropWhile isSpace

/-- The value of a hexadecimal digit of either case. -/
def hexValue (c : Char) : Option ℕ :=
  if '0' ≤ c ∧ c ≤ '9' then some (c.toNat - 48)
  else if 'a' ≤ c ∧ c ≤ 'f' then some (c.toNat - 87)
  else if 'A' ≤ c ∧ c ≤ 'F' then some (c.toNat - 55)
  else none

/-- Four hexadecimal digits. -/
def parseHex : List Char → Option (ℕ × List Char)
  | a :: b :: c :: d :: rest =>
    match hexValue a, hexValue b, hexValue c, hexValue d with
    | some a, some b, some c, some d => some (a * 4096 + b * 256 + c * 16 + d, rest)
    | _, _, _, _ => none
  | _ => none

/-- The character of a Unicode escape, whose digits start the text.  Two escapes that form a
surrogate pair are one character. -/
def parseUnicode (text : List Char) : Option (Char × List Char) :=
  match parseHex text with
  | none => none
  | some (high, rest) =>
    if 0xD800 ≤ high ∧ high < 0xE000 then
      match rest with
      | '\\' :: 'u' :: more =>
        match parseHex more with
        | some (low, rest') =>
          if high < 0xDC00 ∧ 0xDC00 ≤ low ∧ low < 0xE000 then
            some (Char.ofNat (0x10000 + (high - 0xD800) * 0x400 + (low - 0xDC00)), rest')
          else some (replacementChar, rest)
        | none => some (replacementChar, rest)
      | _ => some (replacementChar, rest)
    else some (Char.ofNat high, rest)

/-- The escapes of one letter. -/
def simpleEscape (c : Char) : Option Char :=
  if c = '"' ∨ c = '\\' ∨ c = '/' then some c
  else if c = 'b' then some '\x08'
  else if c = 'f' then some '\x0c'
  else if c = 'n' then some '\n'
  else if c = 'r' then some '\r'
  else if c = 't' then some '\t'
  else none

/-- An escape sequence, behind its backslash. -/
def parseEscape : List Char → Option (Char × List Char)
  | [] => none
  | e :: rest => if e = 'u' then parseUnicode rest else (simpleEscape e).map (·, rest)

/-- The rest of a string, behind its opening quote. -/
def parseBody : ℕ → List Char → Option (List Char × List Char)
  | 0, _ => none
  | _ + 1, [] => none
  | fuel + 1, c :: rest =>
    if c = '"' then some ([], rest)
    else if c = '\\' then
      (parseEscape rest).bind fun (c, rest) =>
        (parseBody fuel rest).map fun (cs, rest) => (c :: cs, rest)
    else if c.toNat < 0x20 then none
    else (parseBody fuel rest).map fun (cs, rest) => (c :: cs, rest)

/-- One element: a string, or `null`, which leaves the empty string. -/
def parseElement : List Char → Option (String × List Char)
  | '"' :: rest => (parseBody rest.length rest).map fun (cs, rest) => (String.ofList cs, rest)
  | 'n' :: 'u' :: 'l' :: 'l' :: rest => some ("", rest)
  | _ => none

/-- The elements up to the closing bracket; there is at least one. -/
def parseElements : ℕ → List Char → Option (List String × List Char)
  | 0, _ => none
  | fuel + 1, text =>
    (parseElement (skipSpace text)).bind fun (s, rest) =>
      match skipSpace rest with
      | ',' :: rest => (parseElements fuel rest).map fun (ss, rest) => (s :: ss, rest)
      | ']' :: rest => some ([s], rest)
      | _ => none

/-- Read an array of strings that is the whole document. -/
def unmarshal (text : List Char) : Option (List String) :=
  let parsed : Option (List String × List Char) :=
    match skipSpace text with
    | 'n' :: 'u' :: 'l' :: 'l' :: rest => some ([], rest)
    | '[' :: rest =>
      match skipSpace rest with
      | ']' :: rest => some ([], rest)
      | _ => parseElements rest.length rest
    | _ => none
  parsed.bind fun (ss, rest) => if skipSpace rest = [] then some ss else none

/-! ## Reading undoes writing -/

private lemma hexValue_hexDigit {n : ℕ} (hn : n < 16) : hexValue (hexDigit n) = some n := by
  revert n
  decide

/-- The four digits of an escape read back as the number they were written for. -/
lemma parseHex_digits {n : ℕ} (hn : n < 65536) (rest : List Char) :
    parseHex (hexDigit (n / 4096 % 16) :: hexDigit (n / 256 % 16) :: hexDigit (n / 16 % 16) ::
      hexDigit (n % 16) :: rest) = some (n, rest) := by
  simp only [parseHex, hexValue_hexDigit (Nat.mod_lt _ (by decide : 0 < 16)), Option.some.injEq,
    Prod.mk.injEq, and_true]
  omega

/-- A character below the surrogates that is written as a Unicode escape reads back as itself. -/
lemma parseEscape_unicodeEscape {c : Char} (hc : c.toNat < 0xD800) (rest : List Char) :
    parseEscape ((unicodeEscape c.toNat).tail ++ rest) = some (c, rest) := by
  have hhex := parseHex_digits (show c.toNat < 65536 by omega) rest
  have hsurrogate : ¬(0xD800 ≤ c.toNat ∧ c.toNat < 0xE000) := by omega
  simp only [unicodeEscape, List.tail_cons, List.cons_append, List.nil_append, parseEscape,
    if_true, parseUnicode, hhex, hsurrogate, if_false, Char.ofNat_toNat]

/-- Reading what the writer made of one character consumes exactly that and gives it back. -/
lemma parseBody_escapeChar (fuel : ℕ) (c : Char) (rest : List Char) :
    parseBody (fuel + 1) (escapeChar c ++ rest) =
      (parseBody fuel rest).map fun (cs, rest) => (c :: cs, rest) := by
  unfold escapeChar
  split_ifs with hquote hbackslash hb hf hn hr ht hunicode
  · subst hquote; rfl
  · subst hbackslash; rfl
  · subst hb; rfl
  · subst hf; rfl
  · subst hn; rfl
  · subst hr; rfl
  · subst ht; rfl
  · have hlow : c.toNat < 0xD800 := by
      rcases hunicode with h | rfl | rfl | rfl | h | h
      · omega
      · decide
      · decide
      · decide
      · omega
      · omega
    have hescape := parseEscape_unicodeEscape hlow rest
    have hcons : unicodeEscape c.toNat ++ rest =
        '\\' :: ((unicodeEscape c.toNat).tail ++ rest) := rfl
    rw [hcons, parseBody, if_neg (by decide), if_pos rfl, hescape]
    rfl
  · rw [not_or] at hunicode
    simp only [List.cons_append, List.nil_append, parseBody, if_neg hquote, if_neg hbackslash,
      if_neg hunicode.1]

lemma escapeChar_ne_nil (c : Char) : escapeChar c ≠ [] := by
  unfold escapeChar unicodeEscape
  split_ifs <;> simp

private lemma length_le_length_flatMap_escapeChar (cs : List Char) :
    cs.length ≤ (cs.flatMap escapeChar).length := by
  induction cs with
  | nil => simp
  | cons c cs ih =>
    have hpos := List.length_pos_of_ne_nil (escapeChar_ne_nil c)
    simp only [List.flatMap_cons, List.length_cons, List.length_append]
    omega

private lemma parseBody_quoted (cs rest : List Char) (fuel : ℕ) (hfuel : cs.length < fuel) :
    parseBody fuel (cs.flatMap escapeChar ++ '"' :: rest) = some (cs, rest) := by
  induction cs generalizing fuel with
  | nil =>
    obtain ⟨fuel, rfl⟩ : ∃ k, fuel = k + 1 := ⟨fuel - 1, by simp at hfuel; omega⟩
    simp [parseBody]
  | cons c cs ih =>
    obtain ⟨fuel, rfl⟩ : ∃ k, fuel = k + 1 := ⟨fuel - 1, by simp at hfuel; omega⟩
    rw [List.flatMap_cons, List.append_assoc, parseBody_escapeChar,
      ih fuel (by simpa using hfuel)]
    rfl

/-- A quoted string reads back as the string. -/
lemma parseElement_quote (s : String) (rest : List Char) :
    parseElement (quote s ++ rest) = some (s, rest) := by
  have hquote : quote s ++ rest = '"' :: (s.toList.flatMap escapeChar ++ '"' :: rest) := by
    simp [quote]
  have hfuel := length_le_length_flatMap_escapeChar s.toList
  rw [hquote, parseElement, parseBody_quoted _ _ _ (by rw [List.length_append, List.length_cons]; omega)]
  simp [String.ofList_toList]

private lemma skipSpace_cons {c : Char} (hc : isSpace c = false) (rest : List Char) :
    skipSpace (c :: rest) = c :: rest := by
  simp [skipSpace, hc]

private lemma skipSpace_quote (s : String) (rest : List Char) :
    skipSpace (quote s ++ rest) = quote s ++ rest :=
  skipSpace_cons (by decide) _

private lemma length_lt_length_marshalTail (ss : List String) :
    ss.length < (marshalTail ss).length := by
  induction ss with
  | nil => simp [marshalTail]
  | cons s ss ih => simp only [marshalTail, List.length_cons, List.length_append]; omega

private lemma parseElements_marshalTail (s : String) (ss : List String) (fuel : ℕ)
    (hfuel : ss.length < fuel) :
    parseElements fuel (quote s ++ marshalTail ss) = some (s :: ss, []) := by
  induction ss generalizing s fuel with
  | nil =>
    obtain ⟨fuel, rfl⟩ : ∃ k, fuel = k + 1 := ⟨fuel - 1, by simp at hfuel; omega⟩
    rw [parseElements, skipSpace_quote, parseElement_quote]
    rfl
  | cons t ss ih =>
    obtain ⟨fuel, rfl⟩ : ∃ k, fuel = k + 1 := ⟨fuel - 1, by simp at hfuel; omega⟩
    have hcomma : skipSpace (marshalTail (t :: ss)) = ',' :: (quote t ++ marshalTail ss) :=
      skipSpace_cons (by decide) _
    rw [parseElements, skipSpace_quote, parseElement_quote, Option.bind_some]
    simp only [hcomma, ih t fuel (by simpa using hfuel), Option.map_some]

/-- Reading a written array gives the strings back. -/
@[simp] theorem unmarshal_marshal (ss : List String) : unmarshal (marshal ss) = some ss := by
  cases ss with
  | nil => decide
  | cons s ss =>
    have hfuel : ss.length < (quote s ++ marshalTail ss).length := by
      have := length_lt_length_marshalTail ss
      simp only [List.length_append]
      omega
    have hfirst : quote s ++ marshalTail ss =
        '"' :: (s.toList.flatMap escapeChar ++ ['"'] ++ marshalTail ss) := by simp [quote]
    have helements := parseElements_marshalTail s ss _ hfuel
    rw [unmarshal, marshal, skipSpace_cons (by decide)]
    simp only [skipSpace_quote, helements]
    rw [hfirst]
    rfl

end JsonStrings

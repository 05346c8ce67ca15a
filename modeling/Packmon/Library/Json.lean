import Mathlib.Data.Int.Notation
import Mathlib.Data.List.TakeWhile
import Packmon.Library.JsonStrings

/-!
# JSON documents

Values, a reader that accepts the JSON grammar, and printers.  A printer chooses the white space
behind commas and colons and how characters are escaped; the reader undoes every printer
(`Printer.parse_render`).  The two printers are that of a general-purpose library (`Printer.compact`)
and that of a database which stores documents in decomposed form (`Printer.spaced`).

Numbers keep their spelling.  Object members keep their order and may repeat a name: what becomes of
that is left to whoever decodes the document.
-/

open JsonStrings (skipSpace isSpace parseBody escapeChar unicodeEscape)

/-! ## Values -/

namespace Json

/-- The characters of a number. -/
def isNumberChar (c : Char) : Bool :=
  c.isDigit || c = '-' || c = '+' || c = '.' || c = 'e' || c = 'E'

/-- An exponent, behind its letter: an optional sign and at least one digit. -/
def isExponent : List Char → Bool
  | '-' :: digits => !digits.isEmpty && digits.all Char.isDigit
  | '+' :: digits => !digits.isEmpty && digits.all Char.isDigit
  | digits => !digits.isEmpty && digits.all Char.isDigit

/-- An exponent, or nothing. -/
def isExponentPart : List Char → Bool
  | [] => true
  | c :: rest => (c = 'e' || c = 'E') && isExponent rest

/-- A fraction with at least one digit, or nothing, and an exponent. -/
def isFractionPart : List Char → Bool
  | '.' :: rest =>
    !(rest.takeWhile Char.isDigit).isEmpty && isExponentPart (rest.dropWhile Char.isDigit)
  | rest => isExponentPart rest

/-- An integer without leading zeros, a fraction and an exponent. -/
def isUnsigned : List Char → Bool
  | '0' :: rest => isFractionPart rest
  | c :: rest => c.isDigit && isFractionPart (rest.dropWhile Char.isDigit)
  | [] => false

/-- The spelling of a number. -/
def isNumber : List Char → Bool
  | '-' :: rest => isUnsigned rest
  | rest => isUnsigned rest

/-- A number as it is spelled. -/
structure Number where
  literal : List Char
  isNumber : isNumber literal = true
  numberChars : literal.all isNumberChar = true
  deriving DecidableEq

end Json

/-- A JSON document. -/
inductive Json where
  | null
  | bool (value : Bool)
  | num (value : Json.Number)
  | str (value : String)
  | arr (items : List Json)
  | obj (members : List (String × Json))

namespace Json

/-! ## Reading -/

/-- A number takes every character a number can have. -/
def parseNumber (text : List Char) : Option (Json × List Char) :=
  let literal := text.takeWhile isNumberChar
  if h : isNumber literal = true ∧ literal.all isNumberChar = true then
    some (num ⟨literal, h.1, h.2⟩, text.dropWhile isNumberChar)
  else none

/-- A word that stands for a value. -/
def parseWord (word : List Char) (value : Json) (text : List Char) : Option (Json × List Char) :=
  if word.isPrefixOf text then some (value, text.drop word.length) else none

/-- A string, behind its opening quote. -/
def parseString (text : List Char) : Option (String × List Char) :=
  (parseBody text.length text).map fun (cs, rest) => (String.ofList cs, rest)

mutual

/-- One value, and what follows it. -/
def parseValue : ℕ → List Char → Option (Json × List Char)
  | 0, _ => none
  | fuel + 1, text =>
    match skipSpace text with
    | '"' :: rest => (parseString rest).map fun (s, rest) => (str s, rest)
    | '[' :: rest =>
      match skipSpace rest with
      | ']' :: rest => some (arr [], rest)
      | _ => (parseItems fuel rest).map fun (items, rest) => (arr items, rest)
    | '\x7b' :: rest =>
      match skipSpace rest with
      | '\x7d' :: rest => some (obj [], rest)
      | _ => (parseMembers fuel rest).map fun (members, rest) => (obj members, rest)
    | 'n' :: rest => parseWord "ull".toList null rest
    | 't' :: rest => parseWord "rue".toList (bool true) rest
    | 'f' :: rest => parseWord "alse".toList (bool false) rest
    | text => parseNumber text

/-- The items up to the closing bracket; there is at least one. -/
def parseItems : ℕ → List Char → Option (List Json × List Char)
  | 0, _ => none
  | fuel + 1, text =>
    (parseValue fuel text).bind fun (item, rest) =>
      match skipSpace rest with
      | ',' :: rest => (parseItems fuel rest).map fun (items, rest) => (item :: items, rest)
      | ']' :: rest => some ([item], rest)
      | _ => none

/-- The members up to the closing brace; there is at least one. -/
def parseMembers : ℕ → List Char → Option (List (String × Json) × List Char)
  | 0, _ => none
  | fuel + 1, text =>
    match skipSpace text with
    | '"' :: rest =>
      (parseString rest).bind fun (name, rest) =>
        match skipSpace rest with
        | ':' :: rest =>
          (parseValue fuel rest).bind fun (value, rest) =>
            match skipSpace rest with
            | ',' :: rest =>
              (parseMembers fuel rest).map fun (members, rest) => ((name, value) :: members, rest)
            | '\x7d' :: rest => some ([(name, value)], rest)
            | _ => none
        | _ => none
    | _ => none

end

/-- Read a document that is the whole text. -/
def parse (text : List Char) : Option Json :=
  (parseValue (2 * text.length) text).bind fun (value, rest) =>
    if skipSpace rest = [] then some value else none

/-! ## Printing -/

/-- How a document is printed: what stands behind commas and colons, and how a character is written
inside a string, so that the reader gives it back. -/
structure Printer where
  gap : List Char
  escape : Char → List Char
  gap_isSpace : ∀ c ∈ gap, isSpace c = true
  escape_ne_nil : ∀ c, escape c ≠ []
  parseBody_escape : ∀ fuel c rest, parseBody (fuel + 1) (escape c ++ rest) =
    (parseBody fuel rest).map fun (cs, rest) => (c :: cs, rest)

namespace Printer

variable (p : Printer)

/-- A string between its quotes. -/
def quote (s : String) : List Char := '"' :: (s.toList.flatMap p.escape ++ ['"'])

mutual

/-- Print a document. -/
def render : Json → List Char
  | null => "null".toList
  | bool true => "true".toList
  | bool false => "false".toList
  | num value => value.literal
  | str value => p.quote value
  | arr [] => ['[', ']']
  | arr (item :: items) => '[' :: (render item ++ renderItems items)
  | obj [] => ['\x7b', '\x7d']
  | obj ((name, value) :: members) =>
    '\x7b' :: (p.quote name ++ ':' :: (p.gap ++ (render value ++ renderMembers members)))

/-- The items after the first and the closing bracket. -/
def renderItems : List Json → List Char
  | [] => [']']
  | item :: items => ',' :: (p.gap ++ (render item ++ renderItems items))

/-- The members after the first and the closing brace. -/
def renderMembers : List (String × Json) → List Char
  | [] => ['\x7d']
  | (name, value) :: members =>
    ',' :: (p.gap ++ (p.quote name ++ ':' :: (p.gap ++ (render value ++ renderMembers members))))

end

/-! ## Reading undoes printing -/

variable {p}

lemma length_le_length_flatMap_escape (cs : List Char) :
    cs.length ≤ (cs.flatMap p.escape).length := by
  induction cs with
  | nil => simp
  | cons c cs ih =>
    have hpos := List.length_pos_of_ne_nil (p.escape_ne_nil c)
    simp only [List.flatMap_cons, List.length_cons, List.length_append]
    omega

lemma parseBody_flatMap_escape (cs rest : List Char) (fuel : ℕ) (hfuel : cs.length < fuel) :
    parseBody fuel (cs.flatMap p.escape ++ '"' :: rest) = some (cs, rest) := by
  induction cs generalizing fuel with
  | nil =>
    obtain ⟨fuel, rfl⟩ : ∃ k, fuel = k + 1 := ⟨fuel - 1, by simp at hfuel; omega⟩
    simp [parseBody]
  | cons c cs ih =>
    obtain ⟨fuel, rfl⟩ : ∃ k, fuel = k + 1 := ⟨fuel - 1, by simp at hfuel; omega⟩
    rw [List.flatMap_cons, List.append_assoc, p.parseBody_escape, ih fuel (by simpa using hfuel)]
    rfl

/-- A printed string reads back as the string. -/
lemma parseString_quote (s : String) (rest : List Char) :
    parseString (s.toList.flatMap p.escape ++ '"' :: rest) = some (s, rest) := by
  have hfuel := length_le_length_flatMap_escape (p := p) s.toList
  unfold parseString
  rw [parseBody_flatMap_escape _ _ _ (by rw [List.length_append, List.length_cons]; omega)]
  simp [String.ofList_toList]

lemma quote_append (s : String) (rest : List Char) :
    p.quote s ++ rest = '"' :: (s.toList.flatMap p.escape ++ '"' :: rest) := by
  simp [quote]

lemma skipSpace_gap (text : List Char) : skipSpace (p.gap ++ text) = skipSpace text :=
  List.dropWhile_append_of_pos p.gap_isSpace

lemma skipSpace_cons {c : Char} (hc : isSpace c = false) (rest : List Char) :
    skipSpace (c :: rest) = c :: rest := by
  simp [skipSpace, hc]

/-- White space before a value does not matter. -/
lemma parseValue_gap (fuel : ℕ) (text : List Char) :
    parseValue fuel (p.gap ++ text) = parseValue fuel text := by
  cases fuel with
  | zero => rfl
  | succ fuel => rw [parseValue, parseValue, skipSpace_gap]

/-- The text does not go on with a character of a number. -/
def Ends (rest : List Char) : Prop := ∀ c ∈ rest.head?, isNumberChar c = false

lemma ends_cons {c : Char} (hc : isNumberChar c = false) (rest : List Char) : Ends (c :: rest) := by
  intro d hd
  obtain rfl : c = d := by simpa using hd
  exact hc

lemma parseNumber_literal (value : Number) {rest : List Char} (hrest : Ends rest) :
    parseNumber (value.literal ++ rest) = some (num value, rest) := by
  have hchars : ∀ c ∈ value.literal, isNumberChar c = true := List.all_eq_true.mp value.numberChars
  have htake : (value.literal ++ rest).takeWhile isNumberChar = value.literal := by
    rw [List.takeWhile_append_of_pos hchars]
    cases rest with
    | nil => simp
    | cons c rest => simp [hrest c rfl]
  have hdrop : (value.literal ++ rest).dropWhile isNumberChar = rest := by
    rw [List.dropWhile_append_of_pos hchars]
    cases rest with
    | nil => rfl
    | cons c rest => simp [hrest c rfl]
  unfold parseNumber
  simp only [htake, hdrop, value.isNumber, value.numberChars, and_self, dite_true]

/-- A number starts with a digit or a minus sign. -/
lemma Number.exists_head (value : Number) :
    ∃ c cs, value.literal = c :: cs ∧ (c.isDigit = true ∨ c = '-') := by
  obtain ⟨literal, hnumber, -⟩ := value
  match literal, hnumber with
  | c :: cs, hnumber =>
    refine ⟨c, cs, rfl, ?_⟩
    unfold Json.isNumber at hnumber
    split at hnumber
    · next heq => exact Or.inr (List.cons.inj heq).1
    · unfold isUnsigned at hnumber
      split at hnumber
      · next heq =>
        rw [(List.cons.inj heq).1]
        exact Or.inl rfl
      · next heq =>
        rw [(List.cons.inj heq).1]
        exact Or.inl (Bool.and_eq_true_iff.mp hnumber).1
      · cases hnumber

/-- Neither a digit nor a minus sign starts another kind of value. -/
lemma parseValue_number (fuel : ℕ) {c : Char} (hc : c.isDigit = true ∨ c = '-')
    (rest : List Char) : parseValue (fuel + 1) (c :: rest) = parseNumber (c :: rest) := by
  have hspace : isSpace c = false := by
    rcases hc with hdigit | rfl
    · by_contra hspace
      rw [Bool.not_eq_false] at hspace
      simp only [isSpace, Bool.or_eq_true, decide_eq_true_eq] at hspace
      rcases hspace with ((rfl | rfl) | rfl) | rfl <;> exact absurd hdigit (by decide)
    · decide
  rw [parseValue, skipSpace_cons hspace]
  split
  case h_7 => rfl
  all_goals
    next heq =>
      rw [(List.cons.inj heq).1] at hc
      exact absurd hc (by decide)

/-- A printed value starts with a character that is no white space and closes nothing. -/
lemma exists_render (v : Json) :
    ∃ c cs, p.render v = c :: cs ∧ isSpace c = false ∧ c ≠ ']' := by
  match v with
  | null => exact ⟨_, _, by rw [render]; rfl, by decide, by decide⟩
  | bool true => exact ⟨_, _, by rw [render]; rfl, by decide, by decide⟩
  | bool false => exact ⟨_, _, by rw [render]; rfl, by decide, by decide⟩
  | num value =>
    obtain ⟨c, cs, hliteral, hc⟩ := Number.exists_head value
    refine ⟨c, cs, by rw [render, hliteral], ?_, ?_⟩
    · have hchar := List.all_eq_true.mp value.numberChars c (by simp [hliteral])
      by_contra hspace
      rw [Bool.not_eq_false] at hspace
      simp only [isSpace, Bool.or_eq_true, decide_eq_true_eq] at hspace
      rcases hspace with ((rfl | rfl) | rfl) | rfl <;> exact absurd hchar (by decide)
    · rintro rfl
      exact absurd hc (by decide)
  | str value => exact ⟨_, _, by rw [render]; rfl, by decide, by decide⟩
  | arr [] => exact ⟨_, _, by rw [render], by decide, by decide⟩
  | arr (item :: items) => exact ⟨_, _, by rw [render], by decide, by decide⟩
  | obj [] => exact ⟨_, _, by rw [render], by decide, by decide⟩
  | obj ((name, value) :: members) => exact ⟨_, _, by rw [render], by decide, by decide⟩

/-- The items of an array, with the closing bracket. -/
def renderAll : List Json → List Char
  | [] => []
  | item :: items => p.render item ++ p.renderItems items

/-- The members of an object, with the closing brace. -/
def renderNamed : List (String × Json) → List Char
  | [] => []
  | (name, value) :: members =>
    p.quote name ++ ':' :: (p.gap ++ (p.render value ++ p.renderMembers members))

lemma ends_renderItems (items : List Json) (rest : List Char) :
    Ends (p.renderItems items ++ rest) := by
  cases items with
  | nil => exact ends_cons (by decide) _
  | cons item items =>
    rw [renderItems]
    exact ends_cons (by decide) _

lemma ends_renderMembers (members : List (String × Json)) (rest : List Char) :
    Ends (p.renderMembers members ++ rest) := by
  rcases members with _ | ⟨⟨name, value⟩, members⟩
  · exact ends_cons (by decide) _
  · rw [renderMembers]
    exact ends_cons (by decide) _

mutual

/-- A printed value reads back as the value, whatever follows. -/
theorem parseValue_render : ∀ (v : Json) (fuel : ℕ) (rest : List Char),
    2 * (p.render v).length ≤ fuel → Ends rest → parseValue fuel (p.render v ++ rest) = some (v, rest)
  | v, 0, rest, hfuel, _ => by
    obtain ⟨c, cs, hrender, -, -⟩ := exists_render (p := p) v
    rw [hrender] at hfuel
    simp at hfuel
  | null, fuel + 1, rest, _, _ => by
    rw [render]
    rfl
  | bool true, fuel + 1, rest, _, _ => by
    rw [render]
    rfl
  | bool false, fuel + 1, rest, _, _ => by
    rw [render]
    rfl
  | num value, fuel + 1, rest, _, hrest => by
    obtain ⟨c, cs, hliteral, hc⟩ := Number.exists_head value
    have hnumber := parseNumber_literal value hrest
    rw [hliteral, List.cons_append] at hnumber
    rw [render, hliteral, List.cons_append, parseValue_number fuel hc, hnumber]
  | str value, fuel + 1, rest, _, _ => by
    rw [render, quote_append, parseValue, skipSpace_cons (by decide)]
    simp only [parseString_quote, Option.map_some]
  | arr [], fuel + 1, rest, _, _ => by
    rw [render]
    rfl
  | arr (item :: items), fuel + 1, rest, hfuel, hrest => by
    rw [render] at hfuel ⊢
    have hitems := parseItems_render (item :: items) (List.cons_ne_nil _ _) fuel rest (by
      rw [renderAll]
      simp only [List.length_cons, List.length_append] at hfuel ⊢
      omega)
    rw [renderAll] at hitems
    obtain ⟨c, cs, hrender, hspace, hne⟩ := exists_render (p := p) item
    rw [List.cons_append, parseValue, skipSpace_cons (by decide)]
    simp only [hitems, Option.map_some]
    rw [hrender, List.cons_append, List.cons_append, skipSpace_cons hspace]
    simp [hne]
  | obj [], fuel + 1, rest, _, _ => by
    rw [render]
    rfl
  | obj ((name, value) :: members), fuel + 1, rest, hfuel, hrest => by
    rw [render] at hfuel ⊢
    have hmembers := parseMembers_render ((name, value) :: members) (List.cons_ne_nil _ _) fuel rest
      (by
        rw [renderNamed]
        simp only [List.length_cons, List.length_append] at hfuel ⊢
        omega)
    rw [renderNamed] at hmembers
    rw [List.cons_append, parseValue, skipSpace_cons (by decide)]
    simp only [hmembers, Option.map_some]
    rw [List.append_assoc, quote_append, skipSpace_cons (by decide)]
    rfl

/-- Printed items read back, up to the closing bracket. -/
theorem parseItems_render : ∀ (items : List Json), items ≠ [] → ∀ (fuel : ℕ) (rest : List Char),
    2 * (p.renderAll items).length ≤ fuel →
    parseItems fuel (p.renderAll items ++ rest) = some (items, rest)
  | [], hne, _, _, _ => absurd rfl hne
  | item :: items, _, fuel, rest, hfuel => by
    rw [renderAll] at hfuel ⊢
    obtain ⟨fuel, rfl⟩ : ∃ k, fuel = k + 1 := by
      obtain ⟨c, cs, hrender, -, -⟩ := exists_render (p := p) item
      rw [hrender] at hfuel
      exact ⟨fuel - 1, by simp at hfuel; omega⟩
    have hlength : 0 < (p.renderItems items).length := by
      cases items <;> simp [renderItems]
    simp only [List.length_append] at hfuel
    have hitem := parseValue_render item fuel (p.renderItems items ++ rest) (by omega)
      (ends_renderItems items rest)
    rw [List.append_assoc, parseItems, hitem, Option.bind_some]
    cases items with
    | nil => rfl
    | cons next items =>
      have hnext := parseItems_render (next :: items) (List.cons_ne_nil _ _) fuel rest (by
        rw [renderAll]
        simp only [renderItems, List.length_cons, List.length_append] at hfuel ⊢
        omega)
      rw [renderAll] at hnext
      have hcomma (text : List Char) : skipSpace (',' :: text) = ',' :: text :=
        skipSpace_cons (by decide) _
      simp only [renderItems, List.cons_append, hcomma, List.append_assoc] at hnext ⊢
      cases fuel with
      | zero => cases hnext
      | succ fuel =>
        rw [parseItems, parseValue_gap]
        rw [parseItems] at hnext
        rw [hnext]
        rfl

/-- Printed members read back, up to the closing brace. -/
theorem parseMembers_render : ∀ (members : List (String × Json)), members ≠ [] →
    ∀ (fuel : ℕ) (rest : List Char), 2 * (p.renderNamed members).length ≤ fuel →
    parseMembers fuel (p.renderNamed members ++ rest) = some (members, rest)
  | [], hne, _, _, _ => absurd rfl hne
  | (name, value) :: members, _, fuel, rest, hfuel => by
    rw [renderNamed] at hfuel ⊢
    obtain ⟨fuel, rfl⟩ : ∃ k, fuel = k + 1 := ⟨fuel - 1, by simp [quote] at hfuel; omega⟩
    simp only [List.length_append, List.length_cons] at hfuel
    have hvalue := parseValue_render value fuel (p.renderMembers members ++ rest) (by omega)
      (ends_renderMembers members rest)
    have hcolon (text : List Char) : skipSpace (':' :: text) = ':' :: text :=
      skipSpace_cons (by decide) _
    rw [List.append_assoc, quote_append, parseMembers, skipSpace_cons (by decide)]
    simp only [parseString_quote, Option.bind_some, List.cons_append, hcolon, List.append_assoc,
      parseValue_gap, hvalue]
    rcases members with _ | ⟨⟨next, nextValue⟩, members⟩
    · rfl
    · have hnext := parseMembers_render ((next, nextValue) :: members) (List.cons_ne_nil _ _) fuel rest
        (by
          rw [renderNamed]
          simp only [renderMembers, List.length_cons, List.length_append] at hfuel ⊢
          omega)
      rw [renderNamed] at hnext
      rw [renderMembers, List.cons_append, skipSpace_cons (by decide)]
      simp only [List.append_assoc, List.cons_append] at hnext ⊢
      cases fuel with
      | zero => cases hnext
      | succ fuel =>
        rw [parseMembers, skipSpace_gap]
        rw [parseMembers] at hnext
        rw [hnext]
        rfl

end

/-- Reading a printed document gives it back. -/
@[simp] theorem parse_render (v : Json) : parse (p.render v) = some v := by
  have h := parseValue_render (p := p) v (2 * (p.render v).length) [] (Nat.le_refl _) (by
    intro c hc
    cases hc)
  rw [List.append_nil] at h
  unfold parse
  rw [h]
  rfl

lemma exists_renderItems (items : List Json) : ∃ body, p.renderItems items = body ++ [']'] := by
  induction items with
  | nil => exact ⟨[], rfl⟩
  | cons item items ih =>
    obtain ⟨body, hbody⟩ := ih
    exact ⟨',' :: (p.gap ++ (p.render item ++ body)), by simp [renderItems, hbody]⟩

/-- An array is printed between brackets. -/
lemma exists_render_arr (items : List Json) :
    ∃ body, p.render (arr items) = '[' :: (body ++ [']']) := by
  cases items with
  | nil => exact ⟨[], rfl⟩
  | cons item items =>
    obtain ⟨body, hbody⟩ := exists_renderItems (p := p) items
    exact ⟨p.render item ++ body, by simp [render, hbody]⟩

/-! ## Two printers -/

/-- No white space, and what HTML treats specially is escaped. -/
def compact : Printer where
  gap := []
  escape := escapeChar
  gap_isSpace := by simp
  escape_ne_nil := JsonStrings.escapeChar_ne_nil
  parseBody_escape := JsonStrings.parseBody_escapeChar

/-- The characters only `compact` escapes. -/
def isHtmlChar (c : Char) : Bool :=
  c = '<' || c = '>' || c = '&' || c.toNat == 0x2028 || c.toNat == 0x2029

/-- Escape what JSON requires only. -/
def escapeRequired (c : Char) : List Char := if isHtmlChar c then [c] else escapeChar c

lemma parseBody_escapeRequired (fuel : ℕ) (c : Char) (rest : List Char) :
    parseBody (fuel + 1) (escapeRequired c ++ rest) =
      (parseBody fuel rest).map fun (cs, rest) => (c :: cs, rest) := by
  unfold escapeRequired
  split_ifs with hhtml
  · have hquote : c ≠ '"' := by
      rintro rfl
      exact absurd hhtml (by decide)
    have hbackslash : c ≠ '\\' := by
      rintro rfl
      exact absurd hhtml (by decide)
    have hcontrol : ¬c.toNat < 0x20 := by
      simp only [isHtmlChar, Bool.or_eq_true, decide_eq_true_eq, beq_iff_eq] at hhtml
      rcases hhtml with (((rfl | rfl) | rfl) | h) | h
      · decide
      · decide
      · decide
      · omega
      · omega
    simp only [List.cons_append, List.nil_append, parseBody, if_neg hquote, if_neg hbackslash,
      if_neg hcontrol]
  · exact JsonStrings.parseBody_escapeChar fuel c rest

/-- A blank behind commas and colons. -/
def spaced : Printer where
  gap := [' ']
  escape := escapeRequired
  gap_isSpace := List.forall_mem_singleton.mpr rfl
  escape_ne_nil c := by
    unfold escapeRequired
    split_ifs
    · exact List.cons_ne_nil _ _
    · exact JsonStrings.escapeChar_ne_nil c
  parseBody_escape := parseBody_escapeRequired

lemma render_injective (p : Printer) : Function.Injective p.render := by
  intro v w h
  have hparse := congrArg parse h
  rwa [parse_render, parse_render, Option.some.injEq] at hparse

end Printer

/-! ## Whole numbers -/

lemma isUnsigned_of_digits {c : Char} {digits : List Char} (hc : c.isDigit = true) (hzero : c ≠ '0')
    (hdigits : ∀ d ∈ digits, d.isDigit = true) : isUnsigned (c :: digits) = true := by
  have hrest : digits.dropWhile Char.isDigit = [] := List.dropWhile_eq_nil_iff.2 hdigits
  unfold isUnsigned
  split
  · exact absurd (List.cons.inj ‹_›).1 hzero
  · rename_i heq
    obtain ⟨rfl, rfl⟩ := List.cons.inj heq
    simp [hc, hrest, isFractionPart, isExponentPart]
  · exact absurd ‹_› (List.cons_ne_nil _ _)

/-- A positive number is spelled without leading zeros. -/
lemma exists_toDigits {n : ℕ} (hn : 0 < n) :
    ∃ c digits, Nat.toDigits 10 n = c :: digits ∧ c ≠ '0' ∧ c.isDigit = true := by
  induction n using Nat.strongRecOn with
  | ind n ih =>
    by_cases hlt : n < 10
    · have hchar : ∀ k < 10, 0 < k → Nat.digitChar k ≠ '0' ∧ (Nat.digitChar k).isDigit = true := by
        decide
      exact ⟨n.digitChar, [], Nat.toDigits_of_lt_base hlt, hchar n hlt hn⟩
    · -- The first digit is that of the number without its last one.
      obtain ⟨c, digits, heq, hzero, hdigit⟩ := ih (n / 10) (by omega) (by omega)
      have happend := Nat.toDigits_append_toDigits (b := 10) (n := n / 10) (d := n % 10) (by decide)
        (by omega) (by omega)
      rw [heq, Nat.div_add_mod] at happend
      exact ⟨c, _, happend.symm, hzero, hdigit⟩

lemma isUnsigned_toDigits (n : ℕ) : isUnsigned (Nat.toDigits 10 n) = true := by
  rcases Nat.eq_zero_or_pos n with rfl | hn
  · decide
  · obtain ⟨c, digits, heq, hzero, hdigit⟩ := exists_toDigits hn
    rw [heq]
    refine isUnsigned_of_digits hdigit hzero fun d hd => ?_
    exact Nat.isDigit_of_mem_toDigits (b := 10) (n := n) (by decide) (by decide)
      (heq ▸ List.mem_cons_of_mem c hd)

lemma head_toDigits_ne (n : ℕ) (digits : List Char) : Nat.toDigits 10 n ≠ '-' :: digits := by
  intro heq
  have hdigit := Nat.isDigit_of_mem_toDigits (b := 10) (n := n) (by decide) (by decide)
    (heq ▸ List.mem_cons_self)
  exact absurd hdigit (by decide)

lemma all_isNumberChar_toDigits (n : ℕ) : (Nat.toDigits 10 n).all isNumberChar = true := by
  refine List.all_eq_true.2 fun c hc => ?_
  simp [isNumberChar, Nat.isDigit_of_mem_toDigits (by decide) (by decide) hc]

/-- A whole number in decimal digits. -/
def Number.ofInt : ℤ → Number
  | .ofNat n => ⟨Nat.toDigits 10 n, by
      unfold Json.isNumber
      split
      · exact absurd ‹_› (head_toDigits_ne n _)
      · exact isUnsigned_toDigits n, all_isNumberChar_toDigits n⟩
  | .negSucc n => ⟨'-' :: Nat.toDigits 10 (n + 1), isUnsigned_toDigits (n + 1), by
      rw [List.all_cons, all_isNumberChar_toDigits (n + 1)]
      decide⟩

lemma Number.ofInt_injective : Function.Injective Number.ofInt := by
  rintro (a | a) (b | b) h
  · have hdigits : Nat.toDigits 10 a = Nat.toDigits 10 b := congrArg Number.literal h
    rw [← @Nat.ofDigitChars_ten_toDigits a, hdigits, Nat.ofDigitChars_ten_toDigits]
  · exact absurd (congrArg Number.literal h) (head_toDigits_ne a _)
  · exact absurd (congrArg Number.literal h).symm (head_toDigits_ne b _)
  · have hdigits : Nat.toDigits 10 (a + 1) = Nat.toDigits 10 (b + 1) :=
      (List.cons.inj (congrArg Number.literal h)).2
    have hsucc : a + 1 = b + 1 := by
      rw [← @Nat.ofDigitChars_ten_toDigits (a + 1), hdigits, Nat.ofDigitChars_ten_toDigits]
    exact congrArg _ (Nat.succ.inj hsucc)

/-- Documents are compared by what is printed. -/
instance : DecidableEq Json := fun v w =>
  decidable_of_iff (Printer.spaced.render v = Printer.spaced.render w)
    Printer.spaced.render_injective.eq_iff

end Json

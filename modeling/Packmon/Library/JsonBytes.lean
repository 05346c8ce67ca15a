import Packmon.Library.JsonStrings
import Mathlib

/-!
# JSON documents as bytes

How a JSON encoder that escapes HTML writes strings and objects, over bytes: a string is any sequence of
bytes, read rune by rune, and a byte that starts no rune is written as the escape of U+FFFD.
-/

namespace JsonBytes

open JsonStrings

/-! ### Runes -/

lemma length_utf8Encode (text : List Char) : (utf8Encode text).length = (text.map Char.utf8Size).sum := by
  induction text with
  | nil => rfl
  | cons c text ih =>
    rw [utf8Encode, List.flatMap_cons, List.length_append, String.length_utf8EncodeChar, List.map_cons,
      List.sum_cons, ← ih]
    rfl

/-- The rune at the front of some bytes; none where they start with no well-formed sequence. -/
def decodeRune (bytes : List UInt8) : Option Char := bytes.toByteArray.utf8DecodeChar? 0

/-- The runes of some bytes, read from the front; a byte that starts none is read by itself. -/
def runesAux : ℕ → List UInt8 → List (Option Char)
  | 0, _ => []
  | _ + 1, [] => []
  | fuel + 1, b :: bytes =>
    match decodeRune (b :: bytes) with
    | some c => some c :: runesAux fuel ((b :: bytes).drop c.utf8Size)
    | none => none :: runesAux fuel bytes

def runes (bytes : List UInt8) : List (Option Char) := runesAux bytes.length bytes

/-- A byte of ASCII is a rune. -/
lemma decodeRune_ascii {b : UInt8} (hb : b.toNat < 0x80) (bytes : List UInt8) :
    ∃ c : Char, decodeRune (b :: bytes) = some c ∧ c.toNat = b.toNat ∧ c.utf8Size = 1 := by
  have hvalid : b.toNat.isValidChar := Or.inl (by omega)
  have hnat : (Char.ofNat b.toNat).toNat = b.toNat := by
    unfold Char.ofNat
    rw [dif_pos hvalid]
    rfl
  have hsize : (Char.ofNat b.toNat).utf8Size = 1 := by
    rw [Char.utf8Size_eq_one_iff, UInt32.le_iff_toNat_le]
    change (Char.ofNat b.toNat).toNat ≤ 127
    omega
  refine ⟨Char.ofNat b.toNat, ?_, hnat, hsize⟩
  have hbytes : b :: bytes = String.utf8EncodeChar (Char.ofNat b.toNat) ++ bytes := by
    rw [String.utf8EncodeChar_eq_singleton hsize, List.singleton_append]
    congr 1
    rw [← UInt8.toNat_inj, UInt32.toNat_toUInt8]
    change b.toNat = (Char.ofNat b.toNat).toNat % 2 ^ 8
    rw [hnat]
    omega
  rw [decodeRune, hbytes, List.toByteArray_append]
  exact ByteArray.utf8DecodeChar?_utf8EncodeChar_append

/-- A rune is at the front of the bytes it is read from. -/
lemma eq_append_of_decodeRune {bytes : List UInt8} {c : Char} (h : decodeRune bytes = some c) :
    ∃ rest, bytes = String.utf8EncodeChar c ++ rest := by
  have heq := congrArg (fun b => b.data.toList) (ByteArray.eq_of_utf8DecodeChar?_eq_some h)
  simp only [List.toList_data_toByteArray, ByteArray.data_append, Array.toList_append] at heq
  exact ⟨_, heq⟩

/-- A rune that is read from a byte beyond ASCII is no character of ASCII. -/
lemma le_toNat_of_decodeRune {b : UInt8} {bytes : List UInt8} {c : Char} (hb : 0x80 ≤ b.toNat)
    (h : decodeRune (b :: bytes) = some c) : 0x80 ≤ c.toNat := by
  by_contra hc
  have hsize : c.utf8Size = 1 := by
    rw [Char.utf8Size_eq_one_iff, UInt32.le_iff_toNat_le]
    change c.toNat ≤ 127
    omega
  obtain ⟨rest, hrest⟩ := eq_append_of_decodeRune h
  rw [String.utf8EncodeChar_eq_singleton hsize, List.singleton_append, List.cons.injEq] at hrest
  have hnat : b.toNat = c.toNat % 2 ^ 8 := by
    rw [hrest.1, UInt32.toNat_toUInt8]
    rfl
  omega

/-- The runes of a text are its characters. -/
lemma runes_utf8Encode (text : List Char) : runes (utf8Encode text) = text.map some := by
  have haux (text : List Char) (fuel : ℕ) (hfuel : text.length ≤ fuel) :
      runesAux fuel (utf8Encode text) = text.map some := by
    induction text generalizing fuel with
    | nil => cases fuel <;> rfl
    | cons c text ih =>
      obtain ⟨fuel, rfl⟩ : ∃ k, fuel = k + 1 := ⟨fuel - 1, by simp at hfuel; omega⟩
      have hdecode : decodeRune (String.utf8EncodeChar c ++ utf8Encode text) = some c := by
        rw [decodeRune, List.toByteArray_append]
        exact ByteArray.utf8DecodeChar?_utf8EncodeChar_append
      have hdrop : (String.utf8EncodeChar c ++ utf8Encode text).drop c.utf8Size = utf8Encode text := by
        rw [← String.length_utf8EncodeChar, List.drop_left]
      rw [utf8Encode, List.flatMap_cons]
      change runesAux (fuel + 1) (String.utf8EncodeChar c ++ utf8Encode text) = _
      obtain ⟨b, tail, htail⟩ := List.exists_cons_of_ne_nil (@String.utf8EncodeChar_ne_nil c)
      rw [htail, List.cons_append] at hdecode hdrop ⊢
      rw [runesAux, hdecode]
      simp only [hdrop, List.map_cons, List.cons.injEq, true_and]
      exact ih fuel (by simpa using hfuel)
  refine haux text _ ?_
  rw [length_utf8Encode]
  induction text with
  | nil => exact Nat.le_refl 0
  | cons c text ih =>
    have hpos := c.utf8Size_pos
    rw [List.length_cons, List.map_cons, List.sum_cons]
    omega

/-! ### Writing -/

/-- How a rune is written inside a string. -/
def escapeRune : Option Char → List UInt8
  | some c => utf8Encode (escapeChar c)
  | none => utf8Encode (unicodeEscape 0xFFFD)

/-- Bytes as a JSON string. -/
def quoteBytes (bytes : List UInt8) : List UInt8 :=
  utf8Encode ['"'] ++ (runes bytes).flatMap escapeRune ++ utf8Encode ['"']

/-- A field of an object: its name, a colon, and its value. -/
def member (field : String × List UInt8) : List UInt8 :=
  utf8Encode (quote field.1) ++ utf8Encode [':'] ++ field.2

/-- The fields of an object, with commas between them. -/
def members : List (String × List UInt8) → List UInt8
  | [] => []
  | [field] => member field
  | field :: rest => member field ++ utf8Encode [','] ++ members rest

def object (fields : List (String × List UInt8)) : List UInt8 :=
  utf8Encode ['\x7b'] ++ members fields ++ utf8Encode ['\x7d']

/-! ### Lengths -/

lemma utf8Size_hexDigit (n : ℕ) : (hexDigit n).utf8Size = 1 := by
  have hall : "0123456789abcdef".toList.all (fun c => c.utf8Size = 1) = true := by decide
  unfold hexDigit
  rw [List.getD_eq_getElem?_getD]
  cases hget : "0123456789abcdef".toList[n]? with
  | none => decide
  | some c => simpa using List.all_eq_true.mp hall c (List.mem_of_getElem? hget)

lemma length_unicodeEscape (n : ℕ) : (utf8Encode (unicodeEscape n)).length = 6 := by
  have hslash : '\\'.utf8Size = 1 := by decide
  have hu : 'u'.utf8Size = 1 := by decide
  simp [length_utf8Encode, unicodeEscape, utf8Size_hexDigit, hslash, hu]

lemma length_quoteBytes (bytes : List UInt8) :
    (quoteBytes bytes).length = 2 + ((runes bytes).map fun rune => (escapeRune rune).length).sum := by
  have hquote : (utf8Encode ['"']).length = 1 := by decide
  rw [quoteBytes, List.length_append, List.length_append, hquote, List.length_flatMap]
  omega

/-- The bytes of an object, with a comma behind it. -/
lemma length_object {fields : List (String × List UInt8)} (hfields : fields ≠ []) :
    (object fields).length + 1 =
      2 + (fields.map fun field => (utf8Encode (quote field.1)).length + 2 + field.2.length).sum := by
  have hone : (utf8Encode ['\x7b']).length = 1 ∧ (utf8Encode ['\x7d']).length = 1 ∧
      (utf8Encode [':']).length = 1 ∧ (utf8Encode [',']).length = 1 := by decide
  have hmembers : (members fields).length + 1 =
      (fields.map fun field => (utf8Encode (quote field.1)).length + 2 + field.2.length).sum := by
    induction fields with
    | nil => exact absurd rfl hfields
    | cons field rest ih =>
      cases rest with
      | nil =>
        simp only [members, member, List.length_append, hone, List.map_cons, List.map_nil, List.sum_cons,
          List.sum_nil]
        omega
      | cons next rest =>
        have hrest := ih (List.cons_ne_nil _ _)
        simp only [members, member, List.length_append, hone, List.map_cons, List.sum_cons] at hrest ⊢
        omega
  rw [object, List.length_append, List.length_append, hone.1, hone.2.1, ← hmembers]
  omega

/-- The same, the names apart from the values. -/
lemma length_object_eq {fields : List (String × List UInt8)} (hfields : fields ≠ []) :
    (object fields).length + 1 =
      2 + ((fields.map Prod.fst).map fun name => (utf8Encode (quote name)).length + 2).sum +
        ((fields.map Prod.snd).map List.length).sum := by
  rw [length_object hfields, List.map_map, List.map_map, Nat.add_assoc, ← List.sum_map_add]
  rfl

end JsonBytes

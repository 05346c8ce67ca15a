import Mathlib.Data.List.Basic
import Mathlib.Tactic.Common

/-!
# Unpadded URL-safe base64

The encoding that RFC 4648 calls base64url, without padding: three bytes become four characters, and
a final group of one or two bytes becomes two or three.  `decode` is the lenient decoder of the
usual libraries: carriage returns and line feeds are skipped anywhere, and the unused low bits of a
short final group are ignored.

The results the rest of the development uses are `decode_encode` (decoding undoes encoding) and
`mem_alphabet_of_mem_encode` (an encoded text has no character outside the alphabet).
-/

namespace Base64

/-- The sixty-four digits of the URL-safe alphabet, in order. -/
def alphabet : List Char :=
  "ABCDEFGHIJKLMNOPQRSTUVWXYZabcdefghijklmnopqrstuvwxyz0123456789-_".toList

/-- The digit that stands for a six-bit value. -/
def encodeSextet (n : ℕ) : Char := alphabet.getD n 'A'

/-- The six-bit value a digit stands for; `none` outside the alphabet. -/
def decodeSextet (c : Char) : Option ℕ :=
  if c ∈ alphabet then some (alphabet.idxOf c) else none

/-- Encode bytes, three at a time. -/
def encode : List UInt8 → List Char
  | [] => []
  | [a] => [encodeSextet (a.toNat / 4), encodeSextet (a.toNat % 4 * 16)]
  | [a, b] =>
    [encodeSextet (a.toNat / 4), encodeSextet (a.toNat % 4 * 16 + b.toNat / 16),
      encodeSextet (b.toNat % 16 * 4)]
  | a :: b :: c :: rest =>
    encodeSextet (a.toNat / 4) :: encodeSextet (a.toNat % 4 * 16 + b.toNat / 16) ::
      encodeSextet (b.toNat % 16 * 4 + c.toNat / 64) :: encodeSextet (c.toNat % 64) :: encode rest

/-- Reassemble bytes from six-bit values, four at a time.  A final group of one value is an error,
and the low bits of a shorter final group are dropped. -/
def decodeSextets : List ℕ → Option (List UInt8)
  | [] => some []
  | [_] => none
  | [a, b] => some [UInt8.ofNat (a * 4 + b / 16)]
  | [a, b, c] => some [UInt8.ofNat (a * 4 + b / 16), UInt8.ofNat (b % 16 * 16 + c / 4)]
  | a :: b :: c :: d :: rest =>
    (decodeSextets rest).map fun bytes =>
      UInt8.ofNat (a * 4 + b / 16) :: UInt8.ofNat (b % 16 * 16 + c / 4) ::
        UInt8.ofNat (c % 4 * 64 + d) :: bytes

/-- Decode a text, skipping line breaks. -/
def decode (text : List Char) : Option (List UInt8) :=
  ((text.filter fun c => c ≠ '\r' ∧ c ≠ '\n').mapM decodeSextet).bind decodeSextets

/-! ## Decoding undoes encoding -/

/-- The six-bit values the encoder writes down for a list of bytes. -/
private def sextets : List UInt8 → List ℕ
  | [] => []
  | [a] => [a.toNat / 4, a.toNat % 4 * 16]
  | [a, b] => [a.toNat / 4, a.toNat % 4 * 16 + b.toNat / 16, b.toNat % 16 * 4]
  | a :: b :: c :: rest =>
    a.toNat / 4 :: (a.toNat % 4 * 16 + b.toNat / 16) :: (b.toNat % 16 * 4 + c.toNat / 64) ::
      c.toNat % 64 :: sextets rest

private lemma encode_eq_map (bytes : List UInt8) :
    encode bytes = (sextets bytes).map encodeSextet := by
  fun_induction encode bytes <;> simp_all [sextets]

private lemma sextets_lt (bytes : List UInt8) : ∀ n ∈ sextets bytes, n < 64 := by
  have hbyte (a : UInt8) : a.toNat < 256 := a.toNat_lt
  fun_induction sextets bytes with
  | case1 => simp
  | case2 a => have := hbyte a; simp; omega
  | case3 a b => have := hbyte a; have := hbyte b; simp; omega
  | case4 a b c rest ih =>
    have := hbyte a; have := hbyte b; have := hbyte c
    simp only [List.mem_cons, forall_eq_or_imp]
    exact ⟨by omega, by omega, by omega, by omega, ih⟩

/-- Every digit of the alphabet reads back as the value it stands for. -/
lemma decodeSextet_encodeSextet {n : ℕ} (hn : n < 64) : decodeSextet (encodeSextet n) = some n := by
  revert n
  decide +kernel

lemma encodeSextet_mem_alphabet {n : ℕ} (hn : n < 64) : encodeSextet n ∈ alphabet := by
  revert n
  decide

private lemma decodeSextets_sextets (bytes : List UInt8) :
    decodeSextets (sextets bytes) = some bytes := by
  have hbyte (a : UInt8) : a.toNat < 256 := a.toNat_lt
  have hof (a : UInt8) (n : ℕ) (h : n = a.toNat) : UInt8.ofNat n = a := by simp [h]
  fun_induction sextets bytes with
  | case1 => rfl
  | case2 a =>
    have := hbyte a
    simp only [decodeSextets, Option.some.injEq, List.cons.injEq, and_true]
    exact hof _ _ (by omega)
  | case3 a b =>
    have := hbyte a; have := hbyte b
    simp only [decodeSextets, Option.some.injEq, List.cons.injEq, and_true]
    exact ⟨hof _ _ (by omega), hof _ _ (by omega)⟩
  | case4 a b c rest ih =>
    have := hbyte a; have := hbyte b; have := hbyte c
    simp only [decodeSextets, ih, Option.map_some, Option.some.injEq, List.cons.injEq, and_true]
    exact ⟨hof _ _ (by omega), hof _ _ (by omega), hof _ _ (by omega)⟩

/-- An encoded text consists of digits of the alphabet. -/
theorem mem_alphabet_of_mem_encode {bytes : List UInt8} {c : Char} (hc : c ∈ encode bytes) :
    c ∈ alphabet := by
  rw [encode_eq_map, List.mem_map] at hc
  obtain ⟨n, hn, rfl⟩ := hc
  exact encodeSextet_mem_alphabet (sextets_lt bytes n hn)

private lemma mapM_decodeSextet_encode (ns : List ℕ) (hns : ∀ n ∈ ns, n < 64) :
    (ns.map encodeSextet).mapM decodeSextet = some ns := by
  induction ns with
  | nil => rfl
  | cons n ns ih =>
    simp [decodeSextet_encodeSextet (hns n (by simp)), ih fun m hm => hns m (by simp [hm])]

/-- Decoding an encoded text gives the bytes back. -/
@[simp] theorem decode_encode (bytes : List UInt8) : decode (encode bytes) = some bytes := by
  have hfilter : (encode bytes).filter (fun c => c ≠ '\r' ∧ c ≠ '\n') = encode bytes := by
    refine List.filter_eq_self.mpr fun c hc => ?_
    have hmem := mem_alphabet_of_mem_encode hc
    have hbreaks : '\r' ∉ alphabet ∧ '\n' ∉ alphabet := by decide
    simp only [decide_eq_true_eq]
    exact ⟨fun h => hbreaks.1 (h ▸ hmem), fun h => hbreaks.2 (h ▸ hmem)⟩
  rw [decode, hfilter, encode_eq_map, mapM_decodeSextet_encode _ (sextets_lt bytes)]
  exact decodeSextets_sextets bytes

end Base64

import Mathlib.Tactic.Ring
import Packmon.Version.Compare

/-!
# Precedence of semantic versions

The versions of Semantic Versioning 2.0.0 as data, written out with or without a leading `v`, and their
precedence.  `compareSemver` takes a written version apart again (`compareSemver_chars`): it reads every
number as a machine integer, drops the metadata of the build, and leaves the identifiers as they are.  So it
decides the precedence wherever the numbers fit (`compare_eq_precedence`).
-/

namespace Packmon.Version

open GoText Comparators

/-! ## Runs of digits -/

/-- A run of decimal digits. -/
structure Digits where
  chars : List Char
  ne_nil : chars ≠ []
  isDigit : ∀ c ∈ chars, c.isDigit = true

namespace Digits

/-- The number a run of digits stands for, of whatever length. -/
def value (d : Digits) : ℕ := Nat.ofDigitChars 10 d.chars 0

/-- There are no leading zeros. -/
def IsPlain (d : Digits) : Prop := d.chars = ['0'] ∨ d.chars.head? ≠ some '0'

instance (d : Digits) : Decidable d.IsPlain := inferInstanceAs (Decidable (_ ∨ _))

/-- The digits of a number. -/
def ofNat (n : ℕ) : Digits where
  chars := Nat.toDigits 10 n
  ne_nil := Nat.toDigits_ne_nil
  isDigit _ hc := Nat.isDigit_of_mem_toDigits (by decide) (by decide) hc

@[simp] lemma value_ofNat (n : ℕ) : (ofNat n).value = n := Nat.ofDigitChars_ten_toDigits

end Digits

/-- A number in 64-bit arithmetic. -/
def wrap (n : ℕ) : ℤ := (n : ℤ).bmod (2 ^ 64)

lemma wrap_of_lt {n : ℕ} (h : n < 2 ^ 63) : wrap n = n := by
  refine Int.bmod_eq_of_le ?_ ?_
  · have hnonneg := Int.natCast_nonneg n
    simp only [Nat.reducePow, Nat.cast_ofNat]
    omega
  · simp only [Nat.reducePow, Nat.cast_ofNat]
    omega

lemma compare_cast (m n : ℕ) : Ord.compare (m : ℤ) (n : ℤ) = Ord.compare m n := by
  rcases lt_trichotomy m n with h | rfl | h
  · rw [compare_lt_iff_lt.2 h, compare_lt_iff_lt.2 (Int.ofNat_lt.2 h)]
  · rw [compare_eq_iff_eq.2 rfl, compare_eq_iff_eq.2 rfl]
  · rw [compare_gt_iff_gt.2 h, compare_gt_iff_gt.2 (Int.ofNat_lt.2 h)]

/-- Numbers that fit are compared by their values. -/
lemma compare_wrap {m n : ℕ} (hm : m < 2 ^ 63) (hn : n < 2 ^ 63) :
    Ord.compare (wrap m) (wrap n) = Ord.compare m n := by
  rw [wrap_of_lt hm, wrap_of_lt hn, compare_cast]

@[simp] lemma wrap_zero : wrap 0 = 0 := wrap_of_lt (by norm_num)

private lemma bmod_digit (n d m : ℕ) : ((n : ℤ).bmod m * 10 + d).bmod m = ((10 * n + d : ℕ) : ℤ).bmod m := by
  have hcast : ((10 * n + d : ℕ) : ℤ) = (n : ℤ) * 10 + d := by
    push_cast
    ring
  calc ((n : ℤ).bmod m * 10 + d).bmod m
      = (((n : ℤ).bmod m * 10).bmod m + d).bmod m := Int.bmod_add_bmod.symm
    _ = (((n : ℤ) * 10).bmod m + d).bmod m := by rw [Int.bmod_mul_bmod]
    _ = ((n : ℤ) * 10 + d).bmod m := Int.bmod_add_bmod
    _ = ((10 * n + d : ℕ) : ℤ).bmod m := by rw [hcast]

/-- One more digit of a number that may have wrapped around. -/
lemma addDigit_wrap (n : ℕ) (c : Char) : addDigit (wrap n) c = wrap (10 * n + (c.toNat - '0'.toNat)) :=
  bmod_digit n (c.toNat - 48) (2 ^ 64)

lemma foldl_addDigit (cs : List Char) (n : ℕ) : cs.foldl addDigit (wrap n) = wrap (Nat.ofDigitChars 10 cs n) := by
  induction cs generalizing n with
  | nil => rw [List.foldl_nil, Nat.ofDigitChars_nil]
  | cons c cs ih => rw [List.foldl_cons, addDigit_wrap, ih, Nat.ofDigitChars_cons]

/-- The digits of a text, wherever they stand, are read as one number. -/
lemma parseInt_eq (cs : List Char) : parseInt cs = wrap (Nat.ofDigitChars 10 (cs.filter Char.isDigit) 0) := by
  rw [parseInt, ← foldl_addDigit, wrap_zero]

namespace Digits

variable (d : Digits)

lemma map_toLowerChar : d.chars.map toLowerChar = d.chars := by
  rw [List.map_congr_left fun c hc => toLowerChar_of_isDigit (d.isDigit c hc), List.map_id']

lemma foldl_addDigit_zero : d.chars.foldl addDigit 0 = wrap d.value :=
  (congrArg (List.foldl addDigit · d.chars) wrap_zero.symm).trans (foldl_addDigit d.chars 0)

/-- A run is read up to its end. -/
lemma parseLeadingInt_append {rest : List Char} (h : ∀ c ∈ rest.head?, c.isDigit = false) :
    parseLeadingInt (d.chars ++ rest) = wrap d.value := by
  have hrest : rest.takeWhile Char.isDigit = [] := by
    cases rest with
    | nil => rfl
    | cons c rest => simp [h c rfl]
  rw [parseLeadingInt, List.takeWhile_append_of_pos d.isDigit, hrest, List.append_nil, foldl_addDigit_zero]

lemma parseLeadingInt_chars : parseLeadingInt d.chars = wrap d.value := by
  have h := @parseLeadingInt_append d [] (by simp)
  rwa [List.append_nil] at h

lemma parseInt_chars : parseInt d.chars = wrap d.value := by
  rw [parseInt, List.filter_eq_self.2 d.isDigit, foldl_addDigit_zero]

lemma isNumeric_chars : isNumeric d.chars = some (wrap d.value) := by
  rw [isNumeric, if_pos ⟨d.ne_nil, List.all_eq_true.2 d.isDigit⟩, foldl_addDigit_zero]

end Digits

/-! ## Versions -/

/-- The characters of identifiers. -/
def isIdentifierChar (c : Char) : Bool := c.isAlphanum || c = '-'

/-- An identifier of a prerelease. -/
inductive Identifier where
  | numeric (d : Digits)
  | alphanumeric (text : List Char) (allowed : ∀ c ∈ text, isIdentifierChar c = true)
    (nonDigit : ∃ c ∈ text, c.isDigit = false)

namespace Identifier

def chars : Identifier → List Char
  | numeric d => d.chars
  | alphanumeric text _ _ => text

/-- The numbers are written without leading zeros. -/
def IsPlain : Identifier → Prop
  | numeric d => d.IsPlain
  | alphanumeric _ _ _ => True

/-- The number fits in 63 bits. -/
def Fits : Identifier → Prop
  | numeric d => d.value < 2 ^ 63
  | alphanumeric _ _ _ => True

/-- Numbers by their values and before texts, texts by their characters. -/
def precedence : Identifier → Identifier → Ordering
  | numeric m, numeric n => Ord.compare m.value n.value
  | numeric _, alphanumeric _ _ _ => .lt
  | alphanumeric _ _ _, numeric _ => .gt
  | alphanumeric s _ _, alphanumeric t _ _ => compareText s t

lemma isIdentifierChar_of_mem {i : Identifier} {c : Char} (hc : c ∈ i.chars) : isIdentifierChar c = true := by
  cases i with
  | numeric d => simp [isIdentifierChar, Char.isAlphanum, d.isDigit c hc]
  | alphanumeric text allowed _ => exact allowed c hc

lemma chars_ne_nil (i : Identifier) : i.chars ≠ [] := by
  cases i with
  | numeric d => exact d.ne_nil
  | alphanumeric text _ nonDigit =>
    obtain ⟨c, hc, -⟩ := nonDigit
    exact List.ne_nil_of_mem hc

/-- What the comparator reads of two identifiers. -/
lemma ranked_chars {i j : Identifier} (hi : i.Fits) (hj : j.Fits) :
    ranked isNumeric Ord.compare compareText i.chars j.chars = i.precedence j := by
  have htext : ∀ {text : List Char}, (∃ c ∈ text, c.isDigit = false) → isNumeric text = none := by
    rintro text ⟨c, hc, hdigit⟩
    refine if_neg fun h => ?_
    simpa [hdigit] using List.all_eq_true.1 h.2 c hc
  cases i with
  | numeric m =>
    cases j with
    | numeric n => simp [ranked, chars, Digits.isNumeric_chars, precedence, compare_wrap hi hj]
    | alphanumeric t _ ht => simp [ranked, chars, Digits.isNumeric_chars, precedence, htext ht]
  | alphanumeric s _ hs =>
    cases j with
    | numeric n => simp [ranked, chars, Digits.isNumeric_chars, precedence, htext hs]
    | alphanumeric t _ ht => simp [ranked, chars, precedence, htext hs, htext ht]

end Identifier

/-- A version without a prerelease comes after those with one; fewer identifiers come before more. -/
def prereleaseOrder (cmp : Identifier → Identifier → Ordering) : List Identifier → List Identifier → Ordering
  | [], [] => .eq
  | [], _ :: _ => .gt
  | _ :: _, [] => .lt
  | i :: is, j :: js => List.compareLex cmp (i :: is) (j :: js)

lemma prereleaseOrder_congr {cmp cmp' : Identifier → Identifier → Ordering} {is js : List Identifier}
    (h : ∀ i ∈ is, ∀ j ∈ js, cmp i j = cmp' i j) : prereleaseOrder cmp is js = prereleaseOrder cmp' is js := by
  cases is with
  | nil => cases js <;> rfl
  | cons i is =>
    cases js with
    | nil => rfl
    | cons j js => exact compareLex_congr h

/-- A release of one or more numbers, a prerelease and the metadata of a build. -/
structure Dotted where
  release : List Digits
  release_ne_nil : release ≠ []
  prerelease : List Identifier
  build : List (List Char)
  build_allowed : ∀ part ∈ build, part ≠ [] ∧ ∀ c ∈ part, isIdentifierChar c = true

/-- A version of Semantic Versioning 2.0.0. -/
structure Semver where
  major : Digits
  minor : Digits
  patch : Digits
  prerelease : List Identifier
  build : List (List Char)
  isPlain : major.IsPlain ∧ minor.IsPlain ∧ patch.IsPlain ∧ ∀ i ∈ prerelease, i.IsPlain
  build_allowed : ∀ part ∈ build, part ≠ [] ∧ ∀ c ∈ part, isIdentifierChar c = true

/-- Parts with dots between them. -/
def dotted (parts : List (List Char)) : List Char := ['.'].intercalate parts

namespace Dotted

def releaseChars (v : Dotted) : List Char := dotted (v.release.map Digits.chars)

def prereleaseChars (v : Dotted) : List Char := dotted (v.prerelease.map Identifier.chars)

/-- The version as it is written, with a leading `v` or without. -/
def chars (v : Dotted) (leading : Bool) : List Char :=
  (if leading then ['v'] else []) ++ v.releaseChars ++
    (if v.prerelease = [] then [] else '-' :: v.prereleaseChars) ++
    if v.build = [] then [] else '+' :: dotted v.build

end Dotted

namespace Semver

def toDotted (v : Semver) : Dotted where
  release := [v.major, v.minor, v.patch]
  release_ne_nil := by simp
  prerelease := v.prerelease
  build := v.build
  build_allowed := v.build_allowed

def text (v : Semver) (leading : Bool) : String := String.ofList (v.toDotted.chars leading)

/-- The numbers fit in 63 bits. -/
def Fits (v : Semver) : Prop :=
  v.major.value < 2 ^ 63 ∧ v.minor.value < 2 ^ 63 ∧ v.patch.value < 2 ^ 63 ∧ ∀ i ∈ v.prerelease, i.Fits

/-- The precedence of Semantic Versioning 2.0.0. -/
def precedence (a b : Semver) : Ordering :=
  (Ord.compare a.major.value b.major.value).then <|
    (Ord.compare a.minor.value b.minor.value).then <|
      (Ord.compare a.patch.value b.patch.value).then
        (prereleaseOrder Identifier.precedence a.prerelease b.prerelease)

end Semver

/-! ## Taking a version apart -/

lemma isIdentifierChar_iff_toNat {c : Char} : isIdentifierChar c = true ↔
    ((65 ≤ c.toNat ∧ c.toNat ≤ 90 ∨ 97 ≤ c.toNat ∧ c.toNat ≤ 122) ∨ 48 ≤ c.toNat ∧ c.toNat ≤ 57) ∨
      c = '-' := by
  change (c.isAlphanum || decide (c = '-')) = true ↔ _
  rw [Bool.or_eq_true, decide_eq_true_eq, isAlphanum_iff_toNat]

lemma isIdentifierChar_of_isLower {c : Char} (h : c.isLower = true) : isIdentifierChar c = true :=
  isIdentifierChar_iff_toNat.2 (.inl (.inl (.inr (isLower_iff_toNat.1 h))))

lemma isSpace_of_isIdentifierChar {c : Char} (h : isIdentifierChar c = true) : isSpace c = false := by
  rcases isIdentifierChar_iff_toNat.1 h with h | rfl
  · exact isSpace_of_isAlphanum (isAlphanum_iff_toNat.2 h)
  · rfl

lemma isSpace_of_isDigit {c : Char} (h : c.isDigit = true) : isSpace c = false :=
  isSpace_of_isIdentifierChar (by simp [isIdentifierChar, Char.isAlphanum, h])

@[simp] lemma dotted_singleton (part : List Char) : dotted [part] = part := by
  simp [dotted]

lemma dotted_cons_cons (part next : List Char) (parts : List (List Char)) :
    dotted (part :: next :: parts) = part ++ '.' :: dotted (next :: parts) := by
  simp [dotted, List.intercalate]

lemma dotted_append {front later : List (List Char)} (hfront : front ≠ []) (hlater : later ≠ []) :
    dotted (front ++ later) = dotted front ++ '.' :: dotted later := by
  obtain ⟨next, later, rfl⟩ := List.exists_cons_of_ne_nil hlater
  induction front with
  | nil => exact absurd rfl hfront
  | cons part front ih =>
    cases front with
    | nil => simp [dotted_cons_cons]
    | cons part' front =>
      have hrest := ih (by simp)
      rw [List.cons_append] at hrest
      rw [List.cons_append, List.cons_append, dotted_cons_cons, hrest, dotted_cons_cons, List.append_assoc,
        List.cons_append]

/-- Every character of dotted parts is a dot or one of a part. -/
lemma mem_dotted {parts : List (List Char)} {c : Char} (h : c ∈ dotted parts) : c = '.' ∨ ∃ part ∈ parts, c ∈ part := by
  induction parts with
  | nil => simp [dotted] at h
  | cons part parts ih =>
    cases parts with
    | nil => exact .inr ⟨part, List.mem_cons_self, by simpa using h⟩
    | cons next parts =>
      rw [dotted_cons_cons, List.mem_append, List.mem_cons] at h
      rcases h with h | h | h
      · exact .inr ⟨part, List.mem_cons_self, h⟩
      · exact .inl h
      · exact (ih h).imp_right fun hpart => by
          obtain ⟨other, hother, hc⟩ := hpart
          exact ⟨other, List.mem_cons_of_mem part hother, hc⟩

lemma mem_dotted_digits {ds : List Digits} {c : Char} (h : c ∈ dotted (ds.map Digits.chars)) :
    c = '.' ∨ c.isDigit = true := by
  obtain h | ⟨part, hpart, hc⟩ := mem_dotted h
  · exact .inl h
  · obtain ⟨d, -, rfl⟩ := List.mem_map.1 hpart
    exact .inr (d.isDigit c hc)

/-- A release starts with a digit. -/
lemma exists_dotted_digits {ds : List Digits} (h : ds ≠ []) :
    ∃ c rest, dotted (ds.map Digits.chars) = c :: rest ∧ c.isDigit = true := by
  obtain ⟨d, ds, rfl⟩ := List.exists_cons_of_ne_nil h
  obtain ⟨c, cs, hc⟩ := List.exists_cons_of_ne_nil d.ne_nil
  have hdigit : c.isDigit = true := d.isDigit c (by simp [hc])
  cases ds with
  | nil => exact ⟨c, cs, by simp [hc], hdigit⟩
  | cons next ds =>
    exact ⟨c, cs ++ '.' :: dotted ((next :: ds).map Digits.chars), by simp [hc, dotted_cons_cons], hdigit⟩

namespace Dotted

variable (v : Dotted)

lemma mem_releaseChars {c : Char} (h : c ∈ v.releaseChars) : c = '.' ∨ c.isDigit = true :=
  mem_dotted_digits h

lemma mem_prereleaseChars {c : Char} (h : c ∈ v.prereleaseChars) : c = '.' ∨ isIdentifierChar c = true := by
  obtain h | ⟨part, hpart, hc⟩ := mem_dotted h
  · exact .inl h
  · obtain ⟨i, -, rfl⟩ := List.mem_map.1 hpart
    exact .inr (Identifier.isIdentifierChar_of_mem hc)

lemma mem_build {c : Char} (h : c ∈ dotted v.build) : c = '.' ∨ isIdentifierChar c = true := by
  obtain h | ⟨part, hpart, hc⟩ := mem_dotted h
  · exact .inl h
  · exact .inr ((v.build_allowed part hpart).2 c hc)

lemma exists_releaseChars : ∃ c rest, v.releaseChars = c :: rest ∧ c.isDigit = true :=
  exists_dotted_digits v.release_ne_nil

lemma isSpace_of_mem_chars {leading : Bool} {c : Char} (h : c ∈ v.chars leading) : isSpace c = false := by
  have hdigit : c.isDigit = true → isIdentifierChar c = true := fun hc => by simp [isIdentifierChar, Char.isAlphanum, hc]
  have hallowed : c ∈ ['v', '.', '-', '+'] ∨ isIdentifierChar c = true := by
    simp only [chars, List.mem_append] at h
    rcases h with ((h | h) | h) | h
    · cases leading <;> simp_all
    · rcases v.mem_releaseChars h with rfl | hc
      · simp
      · exact .inr (hdigit hc)
    · split_ifs at h
      · cases h
      · rcases List.mem_cons.1 h with rfl | h
        · simp
        · rcases v.mem_prereleaseChars h with rfl | hc
          · simp
          · exact .inr hc
    · split_ifs at h
      · cases h
      · rcases List.mem_cons.1 h with rfl | h
        · simp
        · rcases v.mem_build h with rfl | hc
          · simp
          · exact .inr hc
  rcases hallowed with h | h
  · simp only [List.mem_cons, List.not_mem_nil, or_false] at h
    rcases h with rfl | rfl | rfl | rfl <;> rfl
  · exact isSpace_of_isIdentifierChar h

/-- The release and the prerelease as they are written. -/
def core : List Char := v.releaseChars ++ if v.prerelease = [] then [] else '-' :: v.prereleaseChars

lemma plus_not_mem_core : '+' ∉ v.core := by
  intro h
  rcases List.mem_append.1 h with h | h
  · rcases v.mem_releaseChars h with h | h
    · cases h
    · cases h
  · split_ifs at h
    · cases h
    · rcases List.mem_cons.1 h with h | h
      · cases h
      · rcases v.mem_prereleaseChars h with h | h
        · cases h
        · cases h

lemma stripBuildMeta_core : stripBuildMeta (v.core ++ if v.build = [] then [] else '+' :: dotted v.build) = v.core := by
  unfold stripBuildMeta
  split_ifs
  · rw [List.append_nil, index_singleton_of_not_mem v.plus_not_mem_core]
  · rw [index_singleton_append v.plus_not_mem_core]
    exact List.take_left

lemma chars_eq (leading : Bool) : v.chars leading = (if leading then ['v'] else []) ++
    (v.core ++ if v.build = [] then [] else '+' :: dotted v.build) := by
  simp only [chars, core, List.append_assoc]

/-- A leading `v` and the metadata of the build are dropped. -/
lemma normalizeSemverInput_chars (leading : Bool) : normalizeSemverInput (v.chars leading) = v.core := by
  obtain ⟨c, rest, hrelease, hdigit⟩ := v.exists_releaseChars
  obtain ⟨tail, htail⟩ : ∃ tail, (v.core ++ if v.build = [] then [] else '+' :: dotted v.build) = c :: tail := by
    rw [core, hrelease]
    exact ⟨_, rfl⟩
  have hstrip := v.stripBuildMeta_core
  rw [normalizeSemverInput, trimChars_eq_self fun c hc => v.isSpace_of_mem_chars hc, chars_eq]
  rw [htail] at hstrip ⊢
  cases leading with
  | true => simpa [hdigit] using hstrip
  | false =>
    have hv : ¬ (c = 'v' ∨ c = 'V') := by
      rintro (rfl | rfl) <;> cases hdigit
    cases tail with
    | nil => exact hstrip
    | cons d tail => simpa [hv] using hstrip

lemma hyphen_not_mem_releaseChars : '-' ∉ v.releaseChars := by
  intro h
  rcases v.mem_releaseChars h with h | h <;> cases h

lemma splitPrerelease_core : splitPrerelease v.core = (v.releaseChars, v.prereleaseChars) := by
  obtain ⟨c, rest, hrelease, -⟩ := v.exists_releaseChars
  unfold splitPrerelease core
  split_ifs with hnone
  · rw [List.append_nil, index_singleton_of_not_mem v.hyphen_not_mem_releaseChars]
    simp [prereleaseChars, hnone, dotted]
  · rw [index_singleton_append v.hyphen_not_mem_releaseChars]
    have hpos : 0 < v.releaseChars.length := by simp [hrelease]
    simp [hpos, List.drop_append]

end Dotted

lemma splitOn_dotted {parts : List (List Char)} (hne : parts ≠ []) (h : ∀ part ∈ parts, '.' ∉ part) :
    (dotted parts).splitOn '.' = parts :=
  List.splitOn_intercalate '.' h hne

lemma dotted_ne_nil {parts : List (List Char)} (hne : parts ≠ []) (h : ∀ part ∈ parts, part ≠ []) :
    dotted parts ≠ [] := by
  obtain ⟨part, parts, rfl⟩ := List.exists_cons_of_ne_nil hne
  have hpart := h part List.mem_cons_self
  cases parts with
  | nil => simpa using hpart
  | cons next parts => simp [dotted_cons_cons]

lemma Digits.dot_not_mem (d : Digits) : '.' ∉ d.chars := fun h => by cases d.isDigit '.' h

lemma Identifier.dot_not_mem (i : Identifier) : '.' ∉ i.chars := fun h => by
  cases Identifier.isIdentifierChar_of_mem h

lemma splitOn_dotted_digits {ds : List Digits} (h : ds ≠ []) :
    (dotted (ds.map Digits.chars)).splitOn '.' = ds.map Digits.chars := by
  refine splitOn_dotted (by simpa using h) fun part hpart => ?_
  obtain ⟨d, -, rfl⟩ := List.mem_map.1 hpart
  exact d.dot_not_mem

/-- The numbers of two releases are compared as machine integers. -/
lemma compareRelease_dotted {as bs : List Digits} (ha : as ≠ []) (hb : bs ≠ []) :
    compareRelease (dotted (as.map Digits.chars)) (dotted (bs.map Digits.chars)) =
      padded Ord.compare 0 (as.map fun d => wrap d.value) (bs.map fun d => wrap d.value) := by
  have hkey (ds : List Digits) : (ds.map Digits.chars).map parseLeadingInt = ds.map fun d => wrap d.value := by
    rw [List.map_map]
    exact List.map_congr_left fun d _ => d.parseLeadingInt_chars
  rw [compareRelease, splitOn_dotted_digits ha, splitOn_dotted_digits hb, padded_map parseLeadingInt [],
    hkey, hkey]
  rfl

namespace Dotted

variable (a b : Dotted)

/-- The identifiers of two prereleases are compared one by one. -/
lemma comparePrereleaseStrings_prereleaseChars :
    comparePrereleaseStrings a.prereleaseChars b.prereleaseChars =
      prereleaseOrder (fun i j => ranked isNumeric Ord.compare compareText i.chars j.chars)
        a.prerelease b.prerelease := by
  have hnil (v : Dotted) (h : v.prerelease = []) : v.prereleaseChars = [] := by
    simp [prereleaseChars, h, dotted]
  have hparts (v : Dotted) (h : v.prerelease ≠ []) : v.prereleaseChars ≠ [] ∧
      v.prereleaseChars.splitOn '.' = v.prerelease.map Identifier.chars := by
    have hne : v.prerelease.map Identifier.chars ≠ [] := by simpa using h
    constructor
    · refine dotted_ne_nil hne fun part hpart => ?_
      obtain ⟨i, -, rfl⟩ := List.mem_map.1 hpart
      exact i.chars_ne_nil
    · refine splitOn_dotted hne fun part hpart => ?_
      obtain ⟨i, -, rfl⟩ := List.mem_map.1 hpart
      exact i.dot_not_mem
  cases ha : a.prerelease with
  | nil =>
    cases hb : b.prerelease with
    | nil => simp [comparePrereleaseStrings, hnil a ha, hnil b hb, prereleaseOrder]
    | cons j js => simp [comparePrereleaseStrings, hnil a ha, (hparts b (by simp [hb])).1, prereleaseOrder]
  | cons i is =>
    obtain ⟨hane, hasplit⟩ := hparts a (by simp [ha])
    cases hb : b.prerelease with
    | nil => simp [comparePrereleaseStrings, hnil b hb, hane, prereleaseOrder]
    | cons j js =>
      obtain ⟨hbne, hbsplit⟩ := hparts b (by simp [hb])
      simp only [comparePrereleaseStrings, hane, hbne, false_and, if_false]
      rw [comparePrereleaseIdentifiers, hasplit, hbsplit, compareLex_map, ha, hb, prereleaseOrder]

/-- What the comparator reads of two versions. -/
lemma compareSemver_chars (x y : Bool) : compareSemver (a.chars x) (b.chars y) =
    (padded Ord.compare 0 (a.release.map fun d => wrap d.value) (b.release.map fun d => wrap d.value)).then
      (comparePrereleaseStrings a.prereleaseChars b.prereleaseChars) := by
  rw [compareSemver, normalizeSemverInput_chars, normalizeSemverInput_chars, splitPrerelease_core,
    splitPrerelease_core, ← compareRelease_dotted a.release_ne_nil b.release_ne_nil]
  rfl

end Dotted

/-! ## Precedence -/

/-- Releases of three numbers are compared one by one. -/
lemma padded_three (x y z x' y' z' : ℤ) : padded Ord.compare 0 [x, y, z] [x', y', z'] =
    (Ord.compare x x').then ((Ord.compare y y').then (Ord.compare z z')) := by
  simp [padded, zeros]

/-- Valid semantic versions are compared by their precedence, whatever their identifiers and the metadata of
their builds, and with a leading `v` or without, wherever the numbers fit. -/
theorem compare_eq_precedence (a b : Semver) (x y : Bool) (ecosystem : String) (ha : a.Fits) (hb : b.Fits) :
    compare (a.text x) (b.text y) "SEMVER" ecosystem = a.precedence b := by
  have hgit : toUpper "SEMVER" ≠ "GIT" := by decide
  have hecosystem : toUpper "SEMVER" ≠ "ECOSYSTEM" := by decide
  have hprerelease : prereleaseOrder (fun i j => ranked isNumeric Ord.compare compareText i.chars j.chars)
      a.prerelease b.prerelease = prereleaseOrder Identifier.precedence a.prerelease b.prerelease :=
    prereleaseOrder_congr fun i hi j hj => Identifier.ranked_chars (ha.2.2.2 i hi) (hb.2.2.2 j hj)
  have hrelease : padded Ord.compare 0 (a.toDotted.release.map fun d => wrap d.value)
      (b.toDotted.release.map fun d => wrap d.value) = (Ord.compare a.major.value b.major.value).then
        ((Ord.compare a.minor.value b.minor.value).then (Ord.compare a.patch.value b.patch.value)) := by
    rw [← compare_wrap ha.1 hb.1, ← compare_wrap ha.2.1 hb.2.1, ← compare_wrap ha.2.2.1 hb.2.2.1]
    exact padded_three _ _ _ _ _ _
  rw [compare, if_neg hgit, if_neg hecosystem, Semver.text, Semver.text, String.toList_ofList, String.toList_ofList,
    Dotted.compareSemver_chars, Dotted.comparePrereleaseStrings_prereleaseChars, hrelease]
  change Ordering.then _ (prereleaseOrder _ a.prerelease b.prerelease) = _
  rw [hprerelease, Semver.precedence, Ordering.then_assoc, Ordering.then_assoc]

/-- A release candidate of version 1.0.0. -/
def releaseCandidate (n : ℕ) (hn : (Digits.ofNat n).IsPlain) : Semver where
  major := .ofNat 1
  minor := .ofNat 0
  patch := .ofNat 0
  prerelease := [.alphanumeric ['r', 'c'] (by simp [isIdentifierChar]) ⟨'r', by simp⟩, .numeric (.ofNat n)]
  build := [['0', '1']]
  isPlain := ⟨by decide, by decide, by decide, by simp [Identifier.IsPlain, hn]⟩
  build_allowed := by simp [isIdentifierChar]

lemma releaseCandidate_fits {n : ℕ} (hn : (Digits.ofNat n).IsPlain) (h : n < 2 ^ 63) :
    (releaseCandidate n hn).Fits := by
  simp only [Semver.Fits, releaseCandidate, Digits.value_ofNat, List.forall_mem_cons, Identifier.Fits]
  exact ⟨by decide, by decide, by decide, trivial, h, by simp⟩

/-- The second release candidate comes before the eleventh. -/
theorem compare_releaseCandidate : compare "v1.0.0-rc.2+01" "1.0.0-rc.11+01" "SEMVER" "npm" = .lt := by
  have htext : (releaseCandidate 2 (by decide)).text true = "v1.0.0-rc.2+01" := by decide
  have htext' : (releaseCandidate 11 (by decide)).text false = "1.0.0-rc.11+01" := by decide
  rw [← htext, ← htext', compare_eq_precedence _ _ true false "npm" (releaseCandidate_fits _ (by decide))
    (releaseCandidate_fits _ (by decide))]
  decide

end Packmon.Version

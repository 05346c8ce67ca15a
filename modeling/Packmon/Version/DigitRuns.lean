import Packmon.Version.Maven
import Packmon.Version.Pep440

/-!
# Runs of digits

What the comparators make of two versions that differ in one run of digits only.  A run of a release, or
one that is an identifier or a number of its own, is compared in 64-bit arithmetic; a run inside an
identifier of semantic versions and NuGet is compared as text; and a run that PEP 440's comparator does not
read by itself is dropped or read together with the run before it (`digitRun_iff`).
-/

namespace Packmon.Version

open GoText Comparators
open Std (TransCmp ReflCmp)

/-- Two numbers are in the same order in 64-bit arithmetic. -/
def WrapsInOrder (m n : ℕ) : Prop := Ord.compare (wrap m) (wrap n) = Ord.compare m n

/-! ## Semantic versions and NuGet -/

section Dotted

variable (a b : Dotted) (d e : Digits)

/-- The versions differ in one number of their releases. -/
def DifferInRelease : Prop :=
  a.prerelease = b.prerelease ∧
    ∃ before after, a.release = before ++ d :: after ∧ b.release = before ++ e :: after

/-- The versions differ in one identifier of their prereleases. -/
def DifferInIdentifier (i j : Identifier) : Prop :=
  a.release = b.release ∧
    ∃ before after, a.prerelease = before ++ i :: after ∧ b.prerelease = before ++ j :: after

/-- The versions differ in one identifier, and the identifiers in a run with other characters around it. -/
structure DifferInText (left right : List Char) : Prop where
  ne_nil : left ++ right ≠ []
  left_isDigit : ∀ c ∈ left.getLast?, c.isDigit = false
  right_isDigit : ∀ c ∈ right.head?, c.isDigit = false
  identifiers : ∃ i j, DifferInIdentifier a b i j ∧
    i.chars = left ++ (d.chars ++ right) ∧ j.chars = left ++ (e.chars ++ right)

variable {a b d e}

lemma compareSemver_of_differInRelease (h : DifferInRelease a b d e) (x y : Bool) :
    compareSemver (a.chars x) (b.chars y) = Ord.compare (wrap d.value) (wrap e.value) := by
  obtain ⟨hprerelease, before, after, ha, hb⟩ := h
  have hsame : a.prereleaseChars = b.prereleaseChars := by
    rw [Dotted.prereleaseChars, Dotted.prereleaseChars, hprerelease]
  have hself : comparePrereleaseStrings b.prereleaseChars b.prereleaseChars = .eq :=
    ReflCmp.compare_self
  rw [Dotted.compareSemver_chars, hsame, hself, Ordering.then_eq, ha, hb, List.map_append,
    List.map_append, List.map_cons, List.map_cons, padded_append_cons]

lemma compareSemver_of_differInIdentifier {i j : Identifier} (h : DifferInIdentifier a b i j)
    (x y : Bool) : compareSemver (a.chars x) (b.chars y) =
      ranked isNumeric Ord.compare compareText i.chars j.chars := by
  obtain ⟨hrelease, before, after, ha, hb⟩ := h
  have htrans : TransCmp fun i j : Identifier =>
      ranked isNumeric Ord.compare compareText i.chars j.chars :=
    transCmp_on (ranked isNumeric Ord.compare compareText) Identifier.chars
  have horder (is js : List Identifier) (his : is ≠ []) (hjs : js ≠ []) :
      prereleaseOrder (fun i j => ranked isNumeric Ord.compare compareText i.chars j.chars) is js =
        List.compareLex (fun i j => ranked isNumeric Ord.compare compareText i.chars j.chars) is js := by
    obtain ⟨i, is, rfl⟩ := List.exists_cons_of_ne_nil his
    obtain ⟨j, js, rfl⟩ := List.exists_cons_of_ne_nil hjs
    rfl
  rw [Dotted.compareSemver_chars, hrelease, padded_self, Dotted.comparePrereleaseStrings_prereleaseChars,
    ha, hb, horder _ _ (by simp) (by simp), compareLex_append_cons]
  rfl

lemma compareSemver_of_differInText {left right : List Char} (h : DifferInText a b d e left right)
    (x y : Bool) : compareSemver (a.chars x) (b.chars y) =
      compareText (left ++ (d.chars ++ right)) (left ++ (e.chars ++ right)) := by
  have hother : ∃ c ∈ left ++ right, c.isDigit = false := by
    rcases List.eq_nil_or_concat left with rfl | ⟨init, c, rfl⟩
    · obtain ⟨c, rest, hright⟩ := List.exists_cons_of_ne_nil h.ne_nil
      rw [List.nil_append] at hright
      exact ⟨c, by simp [hright], h.right_isDigit c (by simp [hright])⟩
    · exact ⟨c, by simp, h.left_isDigit c (by simp)⟩
  obtain ⟨c, hc, hdigit⟩ := hother
  obtain ⟨i, j, hdiffer, hi, hj⟩ := h.identifiers
  have hnone (run : Digits) : isNumeric (left ++ (run.chars ++ right)) = none := by
    refine if_neg fun hnumeric => ?_
    have hmem : c ∈ left ++ (run.chars ++ right) := by
      rcases List.mem_append.1 hc with h | h <;> simp [h]
    simpa [hdigit] using List.all_eq_true.1 hnumeric.2 c hmem
  rw [compareSemver_of_differInIdentifier hdiffer, hi, hj, ranked, hnone, hnone]

end Dotted

/-! ### Lower case -/

/-- The characters of identifiers stay such in lower case. -/
lemma isIdentifierChar_toLowerChar {c : Char} (h : isIdentifierChar c = true) :
    isIdentifierChar (toLowerChar c) = true := by
  rcases toLowerChar_cases c with hc | ⟨hfirst, hlast, -⟩
  · rwa [hc]
  · exact isIdentifierChar_of_isLower (isLower_iff_toNat.2 ⟨hfirst, hlast⟩)

lemma isDigit_toLowerChar (c : Char) : (toLowerChar c).isDigit = c.isDigit := by
  refine @toLowerChar_congr Char.isDigit (fun d hd => ?_) c
  simp only [Char.isDigit, Bool.and_eq_false_iff, decide_eq_false_iff_not, UInt32.le_iff_toNat_le, ge_iff_le]
  right
  change ¬d.toNat ≤ 57
  omega

/-- An identifier in lower case. -/
def Identifier.lower : Identifier → Identifier
  | .numeric d => .numeric d
  | .alphanumeric text allowed nonDigit =>
    .alphanumeric (text.map toLowerChar)
      (by
        intro c hc
        obtain ⟨c', hc', rfl⟩ := List.mem_map.1 hc
        exact isIdentifierChar_toLowerChar (allowed c' hc'))
      (by
        obtain ⟨c, hc, hdigit⟩ := nonDigit
        exact ⟨toLowerChar c, List.mem_map_of_mem hc, by rw [isDigit_toLowerChar, hdigit]⟩)

lemma Identifier.chars_lower (i : Identifier) : i.lower.chars = i.chars.map toLowerChar := by
  cases i with
  | numeric d => exact d.map_toLowerChar.symm
  | alphanumeric text _ _ => rfl

/-- The version with its prerelease in lower case and without the metadata of the build. -/
def Dotted.lower (v : Dotted) : Dotted where
  release := v.release
  release_ne_nil := v.release_ne_nil
  prerelease := v.prerelease.map Identifier.lower
  build := []
  build_allowed := by simp

lemma Dotted.prereleaseChars_lower (v : Dotted) :
    v.lower.prereleaseChars = v.prereleaseChars.map toLowerChar := by
  have hdotted (parts : List (List Char)) :
      dotted (parts.map (List.map toLowerChar)) = (dotted parts).map toLowerChar := by
    induction parts with
    | nil => rfl
    | cons part parts ih =>
      cases parts with
      | nil => simp
      | cons next parts =>
        rw [List.map_cons, List.map_cons, dotted_cons_cons, dotted_cons_cons, ← List.map_cons, ih,
          List.map_append, List.map_cons]
        rfl
  rw [prereleaseChars, prereleaseChars, ← hdotted, lower, List.map_map, List.map_map]
  exact congrArg dotted (List.map_congr_left fun i _ => i.chars_lower)

lemma normalizeNuGetVersionInput_chars (v : Dotted) (x : Bool) :
    normalizeNuGetVersionInput (v.chars x) = v.lower.chars false := by
  have hne (h : v.prerelease ≠ []) : v.prereleaseChars ≠ [] := by
    refine dotted_ne_nil (by simpa using h) fun part hpart => ?_
    obtain ⟨i, -, rfl⟩ := List.mem_map.1 hpart
    exact i.chars_ne_nil
  rw [normalizeNuGetVersionInput, v.normalizeSemverInput_chars, v.splitPrerelease_core, Dotted.chars,
    v.prereleaseChars_lower]
  by_cases hnone : v.prerelease = []
  · have hnil : v.prereleaseChars = [] := by simp [Dotted.prereleaseChars, hnone, dotted]
    simp [hnil, Dotted.lower, hnone, Dotted.releaseChars]
  · simp [hne hnone, Dotted.lower, hnone, Dotted.releaseChars]

lemma compareNuGet_chars (a b : Dotted) (x y : Bool) :
    compareNuGet (a.chars x) (b.chars y) = compareSemver (a.lower.chars false) (b.lower.chars false) := by
  rw [compareNuGet, normalizeNuGetVersionInput_chars, normalizeNuGetVersionInput_chars]

section Lower

variable {a b : Dotted} {d e : Digits}

lemma DifferInRelease.lower (h : DifferInRelease a b d e) : DifferInRelease a.lower b.lower d e :=
  ⟨congrArg (List.map Identifier.lower) h.1, h.2⟩

lemma DifferInIdentifier.lower {i j : Identifier} (h : DifferInIdentifier a b i j) :
    DifferInIdentifier a.lower b.lower i.lower j.lower := by
  obtain ⟨hrelease, before, after, ha, hb⟩ := h
  refine ⟨hrelease, before.map Identifier.lower, after.map Identifier.lower, ?_, ?_⟩
  · rw [Dotted.lower, ha, List.map_append, List.map_cons]
  · rw [Dotted.lower, hb, List.map_append, List.map_cons]

lemma DifferInText.lower {left right : List Char} (h : DifferInText a b d e left right) :
    DifferInText a.lower b.lower d e (left.map toLowerChar) (right.map toLowerChar) := by
  obtain ⟨i, j, hdiffer, hi, hj⟩ := h.identifiers
  have hchars (k : Identifier) (run : Digits) (hk : k.chars = left ++ (run.chars ++ right)) :
      k.lower.chars = left.map toLowerChar ++ (run.chars ++ right.map toLowerChar) := by
    rw [k.chars_lower, hk, List.map_append, List.map_append, run.map_toLowerChar]
  refine ⟨?_, ?_, ?_, i.lower, j.lower, hdiffer.lower, hchars i d hi, hchars j e hj⟩
  · simpa using h.ne_nil
  · intro c hc
    rw [List.getLast?_map] at hc
    obtain ⟨c', hc', rfl⟩ := Option.map_eq_some_iff.1 hc
    rw [isDigit_toLowerChar, h.left_isDigit c' hc']
  · intro c hc
    rw [List.head?_map] at hc
    obtain ⟨c', hc', rfl⟩ := Option.map_eq_some_iff.1 hc
    rw [isDigit_toLowerChar, h.right_isDigit c' hc']

end Lower

/-! ## PEP 440 -/

section Pep440

variable (d e : Digits)

/-- The versions differ in one number of their releases. -/
def Pep440.DifferInRelease (a b : Pep440) : Prop :=
  a.epoch = b.epoch ∧ a.pre = b.pre ∧ a.post = b.post ∧ a.dev = b.dev ∧
    ∃ before after, a.release = before ++ d :: after ∧ b.release = before ++ e :: after

/-- The version with another number of its pre-release. -/
def Pep440.withPre (v : Pep440) (name : PreName) : Pep440 := { v with pre := some (name, d) }

/-- The version with another number of its development release. -/
def Pep440.withDev (v : Pep440) : Pep440 := { v with dev := some d }

variable {d e}

private lemma compare_int_self (z : ℤ) : Ord.compare z z = .eq := ReflCmp.compare_self

lemma comparePEP440_of_differInRelease {a b : Pep440} (h : a.DifferInRelease d e b) :
    comparePEP440 a.chars b.chars = Ord.compare (wrap d.value) (wrap e.value) := by
  obtain ⟨hepoch, hpre, hpost, hdev, before, after, ha, hb⟩ := h
  have hphase : a.readPhase = b.readPhase := by
    rw [Pep440.readPhase, Pep440.readPhase, hpre, hpost, hdev]
  have hdigits : a.readDigits = b.readDigits := by
    rw [Pep440.readDigits, Pep440.readDigits, hpre, hpost, hdev]
  rw [comparePEP440_chars, Pep440.readOrder, hepoch, hphase, hdigits, ha, hb, List.map_append,
    List.map_append, List.map_cons, List.map_cons, padded_append_cons, compare_int_self, compare_int_self,
    compare_int_self, Ordering.then_eq, Ordering.then_eq, Ordering.eq_then]

/-- Versions that differ only behind their releases, and are in the same phase, are compared by its number. -/
lemma comparePEP440_of_readPhase_eq {a b : Pep440} (hepoch : a.epoch = b.epoch)
    (hrelease : a.release = b.release) (hphase : a.readPhase = b.readPhase) :
    comparePEP440 a.chars b.chars =
      Ord.compare (wrap (Nat.ofDigitChars 10 a.readDigits 0)) (wrap (Nat.ofDigitChars 10 b.readDigits 0)) := by
  rw [comparePEP440_chars, Pep440.readOrder, hepoch, hphase, hrelease, padded_self, compare_int_self,
    compare_int_self, Ordering.eq_then, Ordering.eq_then, Ordering.eq_then]

/-- The number of a pre-release is read where nothing follows it. -/
lemma comparePEP440_withPre (v : Pep440) (name : PreName) :
    comparePEP440 (v.withPre d name).chars (v.withPre e name).chars =
      if v.post = none ∧ v.dev = none then Ord.compare (wrap d.value) (wrap e.value) else .eq := by
  have hdigits (run : Digits) : (v.withPre run name).readDigits =
      if v.post = none ∧ v.dev = none then run.chars else v.readDigits := by
    rw [Pep440.readDigits, Pep440.readDigits, Pep440.withPre]
    cases v.post <;> cases v.dev <;> simp
  rw [@comparePEP440_of_readPhase_eq (v.withPre d name) (v.withPre e name) rfl rfl rfl, hdigits, hdigits]
  split_ifs with hnone
  · rfl
  · exact compare_int_self _

/-- The number of a development release is read behind that of the post-release. -/
lemma comparePEP440_withDev (v : Pep440) :
    comparePEP440 (v.withDev d).chars (v.withDev e).chars =
      Ord.compare (wrap (Nat.ofDigitChars 10 ((v.post.map Digits.chars).getD [] ++ d.chars) 0))
        (wrap (Nat.ofDigitChars 10 ((v.post.map Digits.chars).getD [] ++ e.chars) 0)) := by
  have hdigits (run : Digits) : (v.withDev run).readDigits =
      (v.post.map Digits.chars).getD [] ++ run.chars := by
    rw [Pep440.readDigits, Pep440.withDev]
    cases v.post <;> simp
  rw [@comparePEP440_of_readPhase_eq (v.withDev d) (v.withDev e) rfl rfl rfl, hdigits, hdigits]

end Pep440

/-! ## Maven -/

section Maven

variable (d e : Digits)

/-- The versions differ in one number of their releases. -/
def MavenVersion.DifferInRelease (a b : MavenVersion) : Prop :=
  a.qualifier = b.qualifier ∧
    ∃ before after, a.release = before ++ d :: after ∧ b.release = before ++ e :: after

/-- The versions differ in the number of their qualifiers. -/
def MavenVersion.DifferInNumber (a b : MavenVersion) : Prop :=
  a.release = b.release ∧ ∃ q : MavenQualifier,
    a.qualifier = some { q with number := some d } ∧ b.qualifier = some { q with number := some e }

variable {d e}

lemma compareMaven_of_differ {a b : MavenVersion} (h : a.DifferInRelease d e b ∨ a.DifferInNumber d e b) :
    compareMaven a.chars b.chars = Ord.compare (wrap d.value) (wrap e.value) := by
  rw [compareMaven_chars, MavenKey.compare]
  rcases h with ⟨hqualifier, before, after, ha, hb⟩ | ⟨hrelease, q, ha, hb⟩
  · have hlist {v : MavenVersion} {run : Digits} (hv : v.release = before ++ run :: after) :
        v.readKey.release = before.map (fun d => wrap d.value) ++ wrap run.value ::
          after.map fun d => wrap d.value := by
      rw [v.readKey_release, hv, List.map_append, List.map_cons]
    rw [hlist ha, hlist hb, padded_append_cons, a.readKey_rank, a.readKey_number, b.readKey_rank,
      b.readKey_number, hqualifier, compare_int_self, compare_int_self, Ordering.eq_then, Ordering.then_eq]
  · have hreleases : a.readKey.release = b.readKey.release := by
      rw [a.readKey_release, b.readKey_release, hrelease]
    have hrank {v : MavenVersion} {run : Digits} (hv : v.qualifier = some { q with number := some run }) :
        v.readKey.rank = q.name.readRank q.hyphen := by
      rw [v.readKey_rank, hv]
      rfl
    have hnumber {v : MavenVersion} {run : Digits}
        (hv : v.qualifier = some { q with number := some run }) : v.readKey.number = wrap run.value := by
      have hvalue : MavenQualifier.value { q with number := some run } = run.value := rfl
      rw [v.readKey_number, hv, Option.map_some, Option.getD_some, hvalue]
    rw [hreleases, padded_self, hrank ha, hrank hb, hnumber ha, hnumber hb, compare_int_self,
      Ordering.eq_then, Ordering.eq_then]

end Maven

/-! ## All comparators -/

/-- Versions that differ in one run of digits are compared by its value exactly where 64-bit arithmetic keeps
the order of the runs; except that a run inside an identifier is compared as text, that PEP 440's comparator
drops the number of a pre-release with anything behind it, and that it reads the number of a development
release together with that of the post-release. -/
theorem digitRun_iff (d e : Digits) :
    (∀ (a b : Dotted) (x y : Bool),
      DifferInRelease a b d e ∨ DifferInIdentifier a b (.numeric d) (.numeric e) →
      (compareSemver (a.chars x) (b.chars y) = Ord.compare d.value e.value ↔
        WrapsInOrder d.value e.value) ∧
      (compareNuGet (a.chars x) (b.chars y) = Ord.compare d.value e.value ↔
        WrapsInOrder d.value e.value)) ∧
    (∀ (a b : Dotted) (x y : Bool) (left right : List Char), DifferInText a b d e left right →
      (compareSemver (a.chars x) (b.chars y) = Ord.compare d.value e.value ↔
        compareText (left ++ (d.chars ++ right)) (left ++ (e.chars ++ right)) =
          Ord.compare d.value e.value) ∧
      (compareNuGet (a.chars x) (b.chars y) = Ord.compare d.value e.value ↔
        compareText (left.map toLowerChar ++ (d.chars ++ right.map toLowerChar))
          (left.map toLowerChar ++ (e.chars ++ right.map toLowerChar)) = Ord.compare d.value e.value)) ∧
    (∀ a b : Pep440, a.DifferInRelease d e b →
      (comparePEP440 a.chars b.chars = Ord.compare d.value e.value ↔ WrapsInOrder d.value e.value)) ∧
    (∀ (v : Pep440) (name : PreName),
      comparePEP440 (v.withPre d name).chars (v.withPre e name).chars = Ord.compare d.value e.value ↔
        if v.post = none ∧ v.dev = none then WrapsInOrder d.value e.value else d.value = e.value) ∧
    (∀ v : Pep440,
      comparePEP440 (v.withDev d).chars (v.withDev e).chars = Ord.compare d.value e.value ↔
        Ord.compare (wrap (Nat.ofDigitChars 10 ((v.post.map Digits.chars).getD [] ++ d.chars) 0))
          (wrap (Nat.ofDigitChars 10 ((v.post.map Digits.chars).getD [] ++ e.chars) 0)) =
            Ord.compare d.value e.value) ∧
    ∀ a b : MavenVersion, a.DifferInRelease d e b ∨ a.DifferInNumber d e b →
      (compareMaven a.chars b.chars = Ord.compare d.value e.value ↔ WrapsInOrder d.value e.value) := by
  have hdotted {a b : Dotted} (h : DifferInRelease a b d e ∨ DifferInIdentifier a b (.numeric d) (.numeric e))
      (x y : Bool) : compareSemver (a.chars x) (b.chars y) = Ord.compare (wrap d.value) (wrap e.value) := by
    rcases h with h | h
    · exact compareSemver_of_differInRelease h x y
    · rw [compareSemver_of_differInIdentifier h, ranked, Identifier.chars, Identifier.chars,
        d.isNumeric_chars, e.isNumeric_chars]
  refine ⟨fun a b x y h => ⟨?_, ?_⟩, fun a b x y left right h => ⟨?_, ?_⟩, fun a b h => ?_, fun v name => ?_,
    fun v => ?_, fun a b h => ?_⟩
  · rw [hdotted h, WrapsInOrder]
  · rw [compareNuGet_chars, hdotted (h.imp DifferInRelease.lower DifferInIdentifier.lower), WrapsInOrder]
  · rw [compareSemver_of_differInText h]
  · rw [compareNuGet_chars, compareSemver_of_differInText h.lower]
  · rw [comparePEP440_of_differInRelease h, WrapsInOrder]
  · rw [comparePEP440_withPre]
    split_ifs
    · rw [WrapsInOrder]
    · rw [eq_comm, compare_eq_iff_eq]
  · rw [comparePEP440_withDev]
  · rw [compareMaven_of_differ h, WrapsInOrder]

/-- Version 1.0 with a patch number. -/
def patched (d : Digits) : Dotted where
  release := [.ofNat 1, .ofNat 0, d]
  release_ne_nil := by simp
  prerelease := []
  build := []
  build_allowed := by simp

lemma differInRelease_patched (d e : Digits) : DifferInRelease (patched d) (patched e) d e :=
  ⟨rfl, [.ofNat 1, .ofNat 0], [], rfl, rfl⟩

/-- The ninth patch comes before the tenth. -/
theorem digitRun_ninth_tenth : compareSemver "1.0.9".toList "1.0.10".toList = .lt := by
  have hdiffer := differInRelease_patched (.ofNat 9) (.ofNat 10)
  have horder : WrapsInOrder (Digits.ofNat 9).value (Digits.ofNat 10).value := by
    rw [Digits.value_ofNat, Digits.value_ofNat]
    exact compare_wrap (by decide) (by decide)
  have hcompare := ((digitRun_iff (.ofNat 9) (.ofNat 10)).1 _ _ false false (.inl hdiffer)).1.2 horder
  have hnine : (patched (.ofNat 9)).chars false = "1.0.9".toList := by decide
  have hten : (patched (.ofNat 10)).chars false = "1.0.10".toList := by decide
  rw [hnine, hten] at hcompare
  rw [hcompare]
  decide

/-- The run of digits of the 64th power of 2. -/
def longRun : Digits := ⟨"18446744073709551616".toList, by decide, List.all_eq_true.1 (by decide)⟩

/-- A run past 64 bits is read as 0. -/
theorem digitRun_overflow :
    compareSemver "1.0.18446744073709551616".toList "1.0.1".toList = .lt ∧
      "1.0.18446744073709551616".toList = (patched longRun).chars false ∧
      "1.0.1".toList = (patched (.ofNat 1)).chars false ∧
      DifferInRelease (patched longRun) (patched (.ofNat 1)) longRun (.ofNat 1) ∧
      Ord.compare longRun.value (Digits.ofNat 1).value = .gt := by
  refine ⟨?_, ?_, ?_, differInRelease_patched _ _, ?_⟩
  all_goals decide +kernel

end Packmon.Version

import Packmon.Version.Semver

/-!
# The order of Maven versions

Versions of a numeric release and a documented qualifier, and the order they are meant to have: by the
release, by the rank of the qualifier and by its number (`MavenVersion.order`).  `compareMaven` reads a
written version as another key (`compareMaven_chars`): a number behind a hyphen makes every qualifier an
unknown one, `final` is unknown too, and unknown qualifiers rank with snapshots.
-/

namespace Packmon.Version

open GoText Comparators

/-! ## Versions -/

/-- The documented qualifiers. -/
inductive QualifierName where
  | alpha
  | beta
  | milestone
  | rc
  | cr
  | snapshot
  | ga
  | final
  | sp
  deriving DecidableEq

namespace QualifierName

def text : QualifierName → List Char
  | alpha => "alpha".toList
  | beta => "beta".toList
  | milestone => "milestone".toList
  | rc => "rc".toList
  | cr => "cr".toList
  | snapshot => "snapshot".toList
  | ga => "ga".toList
  | final => "final".toList
  | sp => "sp".toList

/-- The documented order; a version without a qualifier has the rank 0. -/
def rank : QualifierName → ℤ
  | alpha => -5
  | beta => -4
  | milestone => -3
  | rc => -2
  | cr => -2
  | snapshot => -1
  | ga => 0
  | final => 0
  | sp => 1

end QualifierName

/-- A qualifier in lower or upper case, with a number attached or behind a hyphen. -/
structure MavenQualifier where
  name : QualifierName
  word : List Char
  word_eq : word.map toLowerChar = name.text
  number : Option Digits
  hyphen : Bool

structure MavenVersion where
  release : List Digits
  release_ne_nil : release ≠ []
  qualifier : Option MavenQualifier

/-- The number behind a qualifier as it is written. -/
def MavenQualifier.numberChars (q : MavenQualifier) : List Char :=
  match q.number with
  | some d => (if q.hyphen then ['-'] else []) ++ d.chars
  | none => []

namespace MavenVersion

def releaseChars (v : MavenVersion) : List Char := dotted (v.release.map Digits.chars)

/-- The version as it is written. -/
def chars (v : MavenVersion) : List Char :=
  match v.qualifier with
  | some q => v.releaseChars ++ '-' :: (q.word ++ q.numberChars)
  | none => v.releaseChars

end MavenVersion

/-- What two versions are compared by. -/
structure MavenKey where
  release : List ℤ
  rank : ℤ
  number : ℤ

/-- By the release, of which trailing zeros do not count, by the rank and by the number. -/
def MavenKey.compare (a b : MavenKey) : Ordering :=
  (padded Ord.compare 0 a.release b.release).then <|
    (Ord.compare a.rank b.rank).then (Ord.compare a.number b.number)

namespace MavenQualifier

/-- The number of a qualifier; none counts as 0. -/
def value (q : MavenQualifier) : ℕ := (q.number.map Digits.value).getD 0

/-- There is a hyphen between the word and the number. -/
def hyphened (q : MavenQualifier) : Bool := q.number.isSome && q.hyphen

end MavenQualifier

/-- The rank that is read: a word with a hyphen behind it is an unknown one, as is `final`, and has the rank
of a snapshot. -/
def QualifierName.readRank (name : QualifierName) (hyphened : Bool) : ℤ :=
  if name = .final ∨ hyphened = true then -1 else name.rank

namespace MavenVersion

/-- The key a version is meant to have. -/
def key (v : MavenVersion) : MavenKey where
  release := v.release.map fun d => (d.value : ℤ)
  rank := (v.qualifier.map fun q => q.name.rank).getD 0
  number := (v.qualifier.map fun q => (q.value : ℤ)).getD 0

/-- The key that is read: in 64-bit arithmetic, and with unknown qualifiers. -/
def readKey (v : MavenVersion) : MavenKey where
  release := v.release.map fun d => wrap d.value
  rank := (v.qualifier.map fun q => q.name.readRank q.hyphened).getD 0
  number := (v.qualifier.map fun q => wrap q.value).getD 0

variable (v : MavenVersion)

lemma readKey_release : v.readKey.release = v.release.map fun d => wrap d.value := rfl

lemma readKey_rank : v.readKey.rank = (v.qualifier.map fun q => q.name.readRank q.hyphened).getD 0 := rfl

lemma readKey_number : v.readKey.number = (v.qualifier.map fun q => wrap q.value).getD 0 := rfl

end MavenVersion

/-! ## Taking a version apart -/

namespace QualifierName

variable (name : QualifierName) (hyphened : Bool)

/-- A name and the hyphen behind it. -/
def textChars : List Char := name.text ++ if hyphened then ['-'] else []

lemma isSpace_of_mem_text {name : QualifierName} {c : Char} (h : c ∈ name.text) : isSpace c = false := by
  have hall : (name.text.all fun c => !isSpace c) = true := by
    cases name <;> decide
  simpa using List.all_eq_true.1 hall c h

lemma textChars_ne_nil : name.textChars hyphened ≠ [] := by
  cases name <;> cases hyphened <;> decide

lemma getLast_textChars : ∀ c ∈ (name.textChars hyphened).getLast?, c.isDigit = false := by
  intro c hc
  have hall : ((name.textChars hyphened).getLast?.all fun c => !c.isDigit) = true := by
    cases name <;> cases hyphened <;> decide
  rw [Option.mem_def.1 hc] at hall
  simpa using hall

lemma lookup_textChars :
    (mavenQualifierOrder.lookup
      (((name.textChars hyphened).map toLowerChar).dropWhile (· ∈ ['-', '.']))).getD (-1) =
      name.readRank hyphened := by
  cases name <;> cases hyphened <;> decide

end QualifierName

lemma MavenQualifier.isSpace_of_mem_numberChars {q : MavenQualifier} {c : Char}
    (h : c ∈ q.numberChars) : isSpace c = false := by
  rw [numberChars] at h
  cases hnumber : q.number with
  | none => simp [hnumber] at h
  | some d =>
    simp only [hnumber, List.mem_append] at h
    rcases h with h | h
    · split_ifs at h
      · obtain rfl := List.mem_singleton.1 h
        rfl
      · cases h
    · exact isSpace_of_isDigit (d.isDigit c h)

/-- What is read of a qualifier in lower case. -/
lemma MavenQualifier.parseMavenQualifier_chars (q : MavenQualifier) :
    parseMavenQualifier ((q.word ++ q.numberChars).map toLowerChar) =
      (q.name.readRank q.hyphened, wrap q.value) := by
  have hsplit : (q.word ++ q.numberChars).map toLowerChar =
      q.name.textChars q.hyphened ++ (q.number.map Digits.chars).getD [] := by
    rw [List.map_append, q.word_eq, QualifierName.textChars, numberChars, hyphened]
    cases q.number with
    | none => simp
    | some d => cases q.hyphen <;> simp [d.map_toLowerChar]; decide
  have hdigits : ∀ c ∈ (q.number.map Digits.chars).getD [], c.isDigit = true := by
    cases q.number with
    | none => simp
    | some d => simpa using d.isDigit
  have hnumber : parseInt ((q.number.map Digits.chars).getD []) = wrap q.value := by
    rw [value]
    cases q.number with
    | none => exact wrap_zero.symm
    | some d => exact d.parseInt_chars
  obtain ⟨hdrop, htake⟩ := rdropWhile_append hdigits (q.name.getLast_textChars q.hyphened)
  rw [hsplit, parseMavenQualifier, if_neg (by simp [q.name.textChars_ne_nil]), hdrop, htake, hnumber]
  exact congrArg (·, wrap q.value) (q.name.lookup_textChars q.hyphened)

namespace MavenVersion

variable (v : MavenVersion)

lemma hyphen_not_mem_releaseChars : '-' ∉ v.releaseChars := by
  intro h
  rcases mem_dotted_digits h with h | h <;> cases h

/-- There is no white space in a version. -/
lemma trimChars_chars : trimChars v.chars = v.chars := by
  refine trimChars_eq_self fun c hc => ?_
  have hrelease (h : c ∈ v.releaseChars) : isSpace c = false := by
    rcases mem_dotted_digits h with rfl | h
    · rfl
    · exact isSpace_of_isDigit h
  rw [chars] at hc
  cases hqualifier : v.qualifier with
  | none => exact hrelease (by simpa [hqualifier] using hc)
  | some q =>
    simp only [hqualifier, List.mem_append, List.mem_cons] at hc
    rcases hc with h | rfl | h | h
    · exact hrelease h
    · rfl
    · have hword : toLowerChar c ∈ q.name.text := by
        rw [← q.word_eq]
        exact List.mem_map_of_mem h
      rw [← isSpace_toLowerChar]
      exact QualifierName.isSpace_of_mem_text hword
    · exact MavenQualifier.isSpace_of_mem_numberChars h

lemma splitMavenQualifier_chars : splitMavenQualifier v.chars =
    (v.releaseChars, (v.qualifier.map fun q => (q.word ++ q.numberChars).map toLowerChar).getD []) := by
  obtain ⟨c, rest, hrelease, -⟩ := exists_dotted_digits v.release_ne_nil
  have hpos : 0 < v.releaseChars.length := by
    rw [releaseChars, hrelease]
    simp
  rw [splitMavenQualifier, chars]
  cases v.qualifier with
  | none => simp [index_singleton_of_not_mem v.hyphen_not_mem_releaseChars]
  | some q => simp [index_singleton_append v.hyphen_not_mem_releaseChars, hpos, List.drop_append]

end MavenVersion

/-- The rank and the number that are read of a version. -/
lemma MavenVersion.parseMavenQualifier_eq (v : MavenVersion) :
    parseMavenQualifier ((v.qualifier.map fun q => (q.word ++ q.numberChars).map toLowerChar).getD []) =
      ((v.qualifier.map fun q => q.name.readRank q.hyphened).getD 0,
        (v.qualifier.map fun q => wrap q.value).getD 0) := by
  cases v.qualifier with
  | none => rw [Option.map_none, Option.map_none, Option.map_none]; rfl
  | some q =>
    rw [Option.map_some, Option.map_some, Option.map_some, Option.getD_some, Option.getD_some,
      Option.getD_some, q.parseMavenQualifier_chars]

/-- The comparator compares the keys that are read. -/
lemma compareMaven_chars (a b : MavenVersion) :
    compareMaven a.chars b.chars = a.readKey.compare b.readKey := by
  rw [compareMaven, a.trimChars_chars, b.trimChars_chars, a.splitMavenQualifier_chars,
    b.splitMavenQualifier_chars]
  simp only [compareMavenQualifiers, MavenVersion.parseMavenQualifier_eq]
  rw [MavenVersion.releaseChars, MavenVersion.releaseChars,
    compareRelease_dotted a.release_ne_nil b.release_ne_nil, MavenKey.compare, MavenVersion.readKey,
    MavenVersion.readKey]

/-- The numbers fit in 63 bits, and the qualifier is known or ranks with the unknown ones. -/
structure MavenVersion.IsPlain (v : MavenVersion) : Prop where
  release_fits : ∀ d ∈ v.release, d.value < 2 ^ 63
  number_fits : ∀ q ∈ v.qualifier, q.value < 2 ^ 63
  isKnown : ∀ q ∈ v.qualifier, q.name ≠ .final ∧ q.hyphened = false ∨ q.name = .snapshot

lemma MavenVersion.IsPlain.readKey_eq {v : MavenVersion} (h : v.IsPlain) : v.readKey = v.key := by
  have hrelease : (v.release.map fun d => wrap d.value) = v.release.map fun d => (d.value : ℤ) :=
    List.map_congr_left fun d hd => wrap_of_lt (h.release_fits d hd)
  have hqualifier : ∀ q ∈ v.qualifier,
      q.name.readRank q.hyphened = q.name.rank ∧ wrap q.value = (q.value : ℤ) := by
    intro q hq
    refine ⟨?_, wrap_of_lt (h.number_fits q hq)⟩
    rcases h.isKnown q hq with ⟨hfinal, hhyphen⟩ | hsnapshot
    · simp [QualifierName.readRank, hfinal, hhyphen]
    · simp [QualifierName.readRank, hsnapshot, QualifierName.rank]
  rw [MavenVersion.readKey, MavenVersion.key, hrelease]
  cases hv : v.qualifier with
  | none => simp only [Option.map_none, Option.getD_none]
  | some q =>
    obtain ⟨hrank, hnumber⟩ := hqualifier q hv
    simp only [Option.map_some, Option.getD_some, hrank, hnumber]

/-- Plain versions are compared in the documented order. -/
theorem compareMaven_eq_order {a b : MavenVersion} (ha : a.IsPlain) (hb : b.IsPlain) :
    compareMaven a.chars b.chars = a.key.compare b.key := by
  rw [compareMaven_chars, ha.readKey_eq, hb.readKey_eq]

/-- The first alpha or beta of version 1.0, with a hyphen before its number. -/
def firstOf (name : QualifierName) (h : name.text.map toLowerChar = name.text) : MavenVersion where
  release := [.ofNat 1, .ofNat 0]
  release_ne_nil := by simp
  qualifier := some ⟨name, name.text, h, some (.ofNat 1), true⟩

/-- The second alpha of version 1. -/
def secondAlpha : MavenVersion :=
  ⟨[.ofNat 1], by simp, some ⟨.alpha, "alpha".toList, by decide, some (.ofNat 2), false⟩⟩

theorem compareMaven_eq_order_secondAlpha :
    compareMaven secondAlpha.chars (firstOf .snapshot (by decide)).chars = .lt :=
  compareMaven_eq_order ⟨by decide, by decide, by decide⟩ ⟨by decide, by decide, by decide⟩

end Packmon.Version

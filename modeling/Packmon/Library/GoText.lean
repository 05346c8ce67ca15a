import Mathlib.Algebra.Order.Ring.Int
import Mathlib.Data.List.DropRight
import Mathlib.Data.List.Infix
import Mathlib.Tactic.Common

/-!
# Text functions of the Go standard library

`strings.TrimSpace`, `strconv.Itoa`, `strconv.Atoi`, `strconv.ParseBool` and the query values of
`net/url`, over Lean's strings.  Numbers are 64-bit: `atoi` refuses what does not fit.
-/

namespace GoText

/-! ## Results with an error -/

section Except

variable {α β : Type} {x : Except String α}

lemma bind_eq_ok {f : α → Except String β} {b : β} :
    (x >>= f) = .ok b ↔ ∃ a, x = .ok a ∧ f a = .ok b := by
  cases x with
  | error message => simp [bind, Except.bind]
  | ok a => simp [bind, Except.bind]

lemma map_eq_ok {f : α → β} {b : β} : x.map f = .ok b ↔ ∃ a, x = .ok a ∧ f a = b := by
  cases x with
  | error message => simp [Except.map]
  | ok a => simp [Except.map]

/-- The result of a list corresponds to it item by item. -/
lemma forall₂_of_mapM {f : α → Except String β} {xs : List α} {ys : List β}
    (h : xs.mapM f = .ok ys) : List.Forall₂ (fun a b => f a = .ok b) xs ys := by
  induction xs generalizing ys with
  | nil =>
    cases h
    exact .nil
  | cons head xs ih =>
    rw [List.mapM_cons] at h
    simp only [bind_eq_ok, pure, Except.pure, Except.ok.injEq] at h
    obtain ⟨b, hb, bs, hbs, rfl⟩ := h
    exact .cons hb (ih hbs)

/-- A list is mapped when each of its items is. -/
lemma exists_mapM_eq_ok {f : α → Except String β} {xs : List α} :
    (∃ ys, xs.mapM f = .ok ys) ↔ ∀ a ∈ xs, ∃ b, f a = .ok b := by
  induction xs with
  | nil => simp [pure, Except.pure]
  | cons head xs ih =>
    simp only [List.mapM_cons, bind_eq_ok, pure, Except.pure, Except.ok.injEq, List.forall_mem_cons,
      ← ih]
    constructor
    · rintro ⟨ys, b, hb, bs, hbs, -⟩
      exact ⟨⟨b, hb⟩, bs, hbs⟩
    · rintro ⟨⟨b, hb⟩, bs, hbs⟩
      exact ⟨b :: bs, b, hb, bs, hbs, rfl⟩

end Except

/-! ## White space -/

/-- The characters with the Unicode property White_Space. -/
def isSpace (c : Char) : Bool :=
  (9 ≤ c.toNat && c.toNat ≤ 13) || c.toNat == 0x20 || c.toNat == 0x85 || c.toNat == 0xA0 ||
    c.toNat == 0x1680 || (0x2000 ≤ c.toNat && c.toNat ≤ 0x200A) || c.toNat == 0x2028 ||
    c.toNat == 0x2029 || c.toNat == 0x202F || c.toNat == 0x205F || c.toNat == 0x3000

/-- Cut white space off both ends. -/
def trimSpace (s : String) : String :=
  String.ofList ((s.toList.dropWhile isSpace).rdropWhile isSpace)

/-- A text is taken apart at the first separator. -/
lemma append_separator_inj {c : Char} {xs ys us vs : List Char} (hx : c ∉ xs) (hy : c ∉ ys)
    (h : xs ++ c :: us = ys ++ c :: vs) : xs = ys ∧ us = vs := by
  induction xs generalizing ys with
  | nil =>
    cases ys with
    | nil => exact ⟨rfl, (List.cons.inj h).2⟩
    | cons y ys => exact absurd (List.cons.inj h).1 fun heq => hy (heq ▸ List.mem_cons_self)
  | cons x xs ih =>
    cases ys with
    | nil => exact absurd (List.cons.inj h).1 fun heq => hx (heq ▸ List.mem_cons_self)
    | cons y ys =>
      obtain ⟨rfl, htail⟩ := List.cons.inj h
      obtain ⟨rfl, hrest⟩ := ih (fun hmem => hx (List.mem_cons_of_mem _ hmem))
        (fun hmem => hy (List.mem_cons_of_mem _ hmem)) htail
      exact ⟨rfl, hrest⟩

/-- Cut off the characters at both ends that satisfy a predicate. -/
def trimBy (p : Char → Bool) (cs : List Char) : List Char := (cs.dropWhile p).rdropWhile p

lemma trimBy_trimBy {p : Char → Bool} (cs : List Char) : trimBy p (trimBy p cs) = trimBy p cs := by
  have hleft : (trimBy p cs).dropWhile p = trimBy p cs := by
    rw [List.dropWhile_eq_self_iff]
    intro hpos hspace
    obtain ⟨tail, htail⟩ := List.rdropWhile_prefix p (l := cs.dropWhile p)
    change trimBy p cs ++ tail = _ at htail
    have hne : cs.dropWhile p ≠ [] := by
      rw [← htail]
      simp [List.ne_nil_of_length_pos hpos]
    have hhead : (cs.dropWhile p).head hne = (trimBy p cs)[0] := by
      simp only [← htail, List.head_append_of_ne_nil (List.ne_nil_of_length_pos hpos)]
      exact List.head_eq_getElem_zero _
    exact absurd (hhead ▸ hspace) (by simpa using List.head_dropWhile_not p hne)
  rw [trimBy, hleft]
  exact List.rdropWhile_idempotent p _

lemma trimBy_eq_nil_iff {p : Char → Bool} {cs : List Char} :
    trimBy p cs = [] ↔ ∀ c ∈ cs, p c = true := by
  rw [trimBy, List.rdropWhile_eq_nil_iff]
  constructor
  · intro h
    rw [← List.dropWhile_eq_nil_iff]
    by_contra hne
    exact absurd (h _ (List.head_mem hne)) (by simpa using List.head_dropWhile_not p hne)
  · intro h c hc
    exact h c (List.dropWhile_subset p hc)

/-- A list is its own trim when the predicate holds at neither end. -/
lemma trimBy_eq_self_iff {p : Char → Bool} {cs : List Char} :
    trimBy p cs = cs ↔ (∀ c ∈ cs.head?, p c = false) ∧ ∀ c ∈ cs.getLast?, p c = false := by
  have hleft : cs.dropWhile p = cs ↔ ∀ c ∈ cs.head?, p c = false := by
    cases cs with
    | nil => simp
    | cons c cs => simp [List.dropWhile_eq_self_iff]
  have hright : cs.rdropWhile p = cs ↔ ∀ c ∈ cs.getLast?, p c = false := by
    rw [List.rdropWhile_eq_self_iff]
    rcases List.eq_nil_or_concat cs with rfl | ⟨init, last, rfl⟩
    · simp
    · simp
  rw [← hleft, ← hright]
  constructor
  · intro h
    have hsuffix := List.dropWhile_suffix p (l := cs)
    have hinit := List.rdropWhile_prefix p (l := cs.dropWhile p)
    have hlength : cs.length ≤ (cs.dropWhile p).length := by
      rw [trimBy] at h
      have hle := hinit.length_le
      rwa [h] at hle
    have hdrop := hsuffix.eq_of_length_le hlength
    refine ⟨hdrop, ?_⟩
    rwa [trimBy, hdrop] at h
  · rintro ⟨hdrop, hrdrop⟩
    rw [trimBy, hdrop, hrdrop]

lemma dropWhile_map {p : Char → Bool} {f : Char → Char} (hf : ∀ c, p (f c) = p c) (cs : List Char) :
    (cs.map f).dropWhile p = (cs.dropWhile p).map f := by
  have hcomp : p ∘ f = p := funext hf
  rw [List.dropWhile_map, hcomp]

/-- Trimming commutes with a change of characters that the predicate does not see. -/
lemma dropWhile_congr {p q : Char → Bool} {cs : List Char} (h : ∀ c ∈ cs, p c = q c) :
    cs.dropWhile p = cs.dropWhile q := by
  induction cs with
  | nil => rfl
  | cons c cs ih =>
    obtain ⟨hc, hcs⟩ := List.forall_mem_cons.mp h
    rw [List.dropWhile_cons, List.dropWhile_cons, hc, ih hcs]

/-- What is cut off depends on the characters of the text only. -/
lemma trimBy_congr {p q : Char → Bool} {cs : List Char} (h : ∀ c ∈ cs, p c = q c) :
    trimBy p cs = trimBy q cs := by
  have hright : ∀ c ∈ (cs.dropWhile q).reverse, p c = q c := by
    intro c hc
    exact h c ((List.dropWhile_suffix _).subset (List.mem_reverse.mp hc))
  rw [trimBy, trimBy, dropWhile_congr h, List.rdropWhile, dropWhile_congr hright, ← List.rdropWhile]

lemma trimBy_map {p : Char → Bool} {f : Char → Char} (hf : ∀ c, p (f c) = p c) (cs : List Char) :
    trimBy p (cs.map f) = (trimBy p cs).map f := by
  rw [trimBy, trimBy, List.rdropWhile, List.rdropWhile, dropWhile_map hf, ← List.map_reverse,
    dropWhile_map hf, ← List.map_reverse]

/-- The same on the characters of a text. -/
def trimChars (cs : List Char) : List Char := (cs.dropWhile isSpace).rdropWhile isSpace

/-- A text without white space is its own trim. -/
lemma trimChars_eq_self {cs : List Char} (h : ∀ c ∈ cs, isSpace c = false) : trimChars cs = cs :=
  trimBy_eq_self_iff.2 ⟨fun c hc => h c (List.mem_of_mem_head? hc), fun c hc => h c (List.mem_of_getLast? hc)⟩

lemma toList_trimSpace (s : String) : (trimSpace s).toList = trimChars s.toList :=
  String.toList_ofList

/-- A text without white space is its own trim. -/
lemma trimSpace_eq_self {s : String} (hs : ∀ c ∈ s.toList, isSpace c = false) :
    trimSpace s = s := by
  have hleft : s.toList.dropWhile isSpace = s.toList := by
    cases h : s.toList with
    | nil => rfl
    | cons c cs => simp [hs c (by simp [h])]
  have hright : s.toList.rdropWhile isSpace = s.toList := by
    rw [List.rdropWhile_eq_self_iff]
    exact fun hne => by simp [hs _ (List.getLast_mem hne)]
  rw [trimSpace, hleft, hright, String.ofList_toList]

@[simp] lemma trimSpace_empty : trimSpace "" = "" := trimSpace_eq_self (by simp)

@[simp] lemma trimChars_trimChars (cs : List Char) : trimChars (trimChars cs) = trimChars cs :=
  trimBy_trimBy cs

/-- Trimming twice is trimming once. -/
@[simp] lemma trimSpace_trimSpace (s : String) : trimSpace (trimSpace s) = trimSpace s := by
  rw [← String.toList_inj, toList_trimSpace, toList_trimSpace, trimChars_trimChars]

/-- A text between two characters that are no white space is its own trim. -/
lemma trimSpace_ofList {c d : Char} (hc : isSpace c = false) (hd : isSpace d = false)
    (body : List Char) :
    trimSpace (String.ofList (c :: (body ++ [d]))) = String.ofList (c :: (body ++ [d])) := by
  rw [trimSpace, String.toList_ofList, List.dropWhile_cons_of_neg (by simp [hc]), ← List.cons_append,
    List.rdropWhile_concat_neg _ _ _ (by simp [hd])]

/-- Trimming keeps every character that is not white space. -/
lemma mem_trimSpace {s : String} {c : Char} (hc : isSpace c = false) (h : c ∈ s.toList) :
    c ∈ (trimSpace s).toList := by
  have hdrop (l : List Char) (hl : c ∈ l) : c ∈ l.dropWhile isSpace := by
    rw [← List.takeWhile_append_dropWhile (p := isSpace) (l := l), List.mem_append] at hl
    refine hl.resolve_left fun htake => ?_
    exact absurd (List.mem_takeWhile_imp htake) (by simp [hc])
  rw [trimSpace, String.toList_ofList, List.rdropWhile, List.mem_reverse]
  exact hdrop _ (List.mem_reverse.mpr (hdrop _ h))

/-- The lower case of a character, exact for every character whose lower case is ASCII: besides the
capital letters these are the dotted capital I and the Kelvin sign. -/
def toLowerChar (c : Char) : Char :=
  if c.toNat = 0x130 then 'i' else if c.toNat = 0x212A then 'k' else c.toLower

lemma toLower_cases (c : Char) :
    c.toLower = c ∨ (65 ≤ c.toNat ∧ c.toNat ≤ 90 ∧ c.toLower.toNat = c.toNat + 32) := by
  unfold Char.toLower
  split
  · next h =>
    right
    have h1 : 65 ≤ c.val.toNat := UInt32.le_iff_toNat_le.mp h.1
    have h2 : c.val.toNat ≤ 90 := UInt32.le_iff_toNat_le.mp h.2
    refine ⟨h1, h2, ?_⟩
    change (c.val + ('a'.val - 'A'.val)).toNat = c.val.toNat + 32
    rw [UInt32.toNat_add]
    have h3 : ('a'.val - 'A'.val).toNat = 32 := by decide
    rw [h3]
    omega
  · exact Or.inl rfl

/-- Lower case changes nothing but letters. -/
lemma toLowerChar_cases (c : Char) :
    toLowerChar c = c ∨
      (97 ≤ (toLowerChar c).toNat ∧ (toLowerChar c).toNat ≤ 122 ∧
        (65 ≤ c.toNat ∧ c.toNat ≤ 90 ∨ c.toNat = 0x130 ∨ c.toNat = 0x212A)) := by
  unfold toLowerChar
  split_ifs with hdotted hkelvin
  · exact Or.inr ⟨by decide, by decide, Or.inr (Or.inl hdotted)⟩
  · exact Or.inr ⟨by decide, by decide, Or.inr (Or.inr hkelvin)⟩
  · rcases toLower_cases c with h | ⟨h65, h90, h⟩
    · exact Or.inl h
    · exact Or.inr ⟨by omega, by omega, Or.inl ⟨h65, h90⟩⟩

/-- What holds of no letter holds of a character in lower case as it holds of the character. -/
lemma toLowerChar_congr {p : Char → Bool}
    (hp : ∀ d : Char, (65 ≤ d.toNat ∧ d.toNat ≤ 90 ∨ 97 ≤ d.toNat ∧ d.toNat ≤ 122 ∨ d.toNat = 0x130 ∨
      d.toNat = 0x212A) → p d = false) (c : Char) : p (toLowerChar c) = p c := by
  rcases toLowerChar_cases c with h | ⟨h97, h122, hc⟩
  · rw [h]
  · rw [hp c (by omega), hp _ (Or.inr (Or.inl ⟨h97, h122⟩))]

lemma isSpace_toLowerChar (c : Char) : isSpace (toLowerChar c) = isSpace c := by
  refine toLowerChar_congr (fun d hd => ?_) c
  simp only [isSpace, Bool.or_eq_false_iff, Bool.and_eq_false_iff, decide_eq_false_iff_not,
    beq_eq_false_iff_ne]
  omega

lemma toLowerChar_toLowerChar (c : Char) : toLowerChar (toLowerChar c) = toLowerChar c := by
  rcases toLowerChar_cases c with h | ⟨h97, h122, -⟩
  · rw [h, h]
  · generalize toLowerChar c = d at h97 h122
    unfold toLowerChar
    rw [if_neg (by omega), if_neg (by omega)]
    rcases toLower_cases d with h | ⟨-, h90, -⟩
    · exact h
    · omega

/-- Characters before the capital letters stay as they are. -/
lemma toLowerChar_of_lt {c : Char} (h : c.toNat < 65) : toLowerChar c = c := by
  rcases toLowerChar_cases c with hc | ⟨-, -, hc⟩
  · exact hc
  · omega

lemma toLowerChar_of_isDigit {c : Char} (h : c.isDigit = true) : toLowerChar c = c := by
  simp only [Char.isDigit, Bool.and_eq_true, decide_eq_true_eq, UInt32.le_iff_toNat_le] at h
  exact toLowerChar_of_lt (lt_of_le_of_lt h.2 (by decide))

lemma isLower_iff_toNat {c : Char} : c.isLower = true ↔ 97 ≤ c.toNat ∧ c.toNat ≤ 122 := by
  change (decide (c.val ≥ 'a'.val) && decide (c.val ≤ 'z'.val)) = true ↔ _
  rw [Bool.and_eq_true, decide_eq_true_eq, decide_eq_true_eq]
  rfl

lemma isAlphanum_iff_toNat {c : Char} : c.isAlphanum = true ↔
    (65 ≤ c.toNat ∧ c.toNat ≤ 90 ∨ 97 ≤ c.toNat ∧ c.toNat ≤ 122) ∨ 48 ≤ c.toNat ∧ c.toNat ≤ 57 := by
  change ((decide (c.val ≥ 'A'.val ∧ c.val ≤ 'Z'.val) || c.isLower) || c.isDigit) = true ↔ _
  rw [Bool.or_eq_true, Bool.or_eq_true, decide_eq_true_eq, isLower_iff_toNat, Char.isDigit_iff_toNat]
  rfl

lemma isSpace_of_isAlphanum {c : Char} (h : c.isAlphanum = true) : isSpace c = false := by
  rw [isAlphanum_iff_toNat] at h
  simp only [isSpace, Bool.or_eq_false_iff, Bool.and_eq_false_imp, beq_eq_false_iff_ne, decide_eq_true_eq,
    decide_eq_false_iff_not]
  omega

lemma toLowerChar_of_isLower {c : Char} (h : c.isLower = true) : toLowerChar c = c := by
  obtain ⟨hfirst, hlast⟩ := isLower_iff_toNat.1 h
  rcases toLowerChar_cases c with hc | ⟨-, -, hc⟩
  · exact hc
  · omega

/-- A text in lower case. -/
def toLower (s : String) : String := String.ofList (s.toList.map toLowerChar)

/-- The upper case of a character, exact for every character whose upper case is ASCII: besides the
small letters these are the dotless i and the long s. -/
def toUpperChar (c : Char) : Char :=
  if c.toNat = 0x131 then 'I' else if c.toNat = 0x17F then 'S' else c.toUpper

/-- A text in upper case. -/
def toUpper (s : String) : String := String.ofList (s.toList.map toUpperChar)

/-- One representative of the characters that only differ in case, exact for every character that
folds to a letter of ASCII: besides the capital letters these are the long s and the Kelvin sign. -/
def foldChar (c : Char) : Char :=
  if c.toNat = 0x17F then 's' else if c.toNat = 0x212A then 'k' else c.toLower

/-- Two texts that only differ in case. -/
def equalFold (s t : String) : Bool := s.toList.map foldChar = t.toList.map foldChar

/-- One text occurs in the other. -/
def contains (s sub : String) : Bool := decide (sub.toList <:+: s.toList)

/-- The position of the first occurrence of a text in another. -/
def index (sub : List Char) : List Char → Option ℕ
  | [] => if sub = [] then some 0 else none
  | c :: cs => if sub.isPrefixOf (c :: cs) then some 0 else (index sub cs).map (· + 1)

/-- A text is cut at the first place of a character. -/
lemma index_singleton_append {c : Char} {xs : List Char} (h : c ∉ xs) (ys : List Char) :
    index [c] (xs ++ c :: ys) = some xs.length := by
  induction xs with
  | nil => simp [index]
  | cons x xs ih =>
    have hx : c ≠ x := fun heq => h (heq ▸ List.mem_cons_self)
    rw [List.cons_append, index, ih fun hmem => h (List.mem_cons_of_mem x hmem)]
    simp [hx]

lemma index_singleton_of_not_mem {c : Char} {xs : List Char} (h : c ∉ xs) : index [c] xs = none := by
  induction xs with
  | nil => rfl
  | cons x xs ih =>
    have hx : c ≠ x := fun heq => h (heq ▸ List.mem_cons_self)
    rw [index, ih fun hmem => h (List.mem_cons_of_mem x hmem)]
    simp [hx]

/-- A text with a character that the other one does not have does not occur in it. -/
lemma index_eq_none_of_not_mem {sub cs : List Char} {c : Char} (hsub : c ∈ sub) (hcs : c ∉ cs) :
    index sub cs = none := by
  induction cs with
  | nil => rw [index, if_neg (List.ne_nil_of_mem hsub)]
  | cons d cs ih =>
    have hnot : sub.isPrefixOf (d :: cs) = false := by
      by_contra h
      rw [Bool.not_eq_false, List.isPrefixOf_iff_prefix] at h
      exact hcs (h.subset hsub)
    rw [index, ih fun h => hcs (List.mem_cons_of_mem d h), hnot]
    rfl

/-- Characters that a text cannot start with are passed over. -/
lemma index_append {c : Char} {xs : List Char} (h : c ∉ xs) (sub ys : List Char) :
    index (c :: sub) (xs ++ ys) = (index (c :: sub) ys).map (· + xs.length) := by
  induction xs with
  | nil => simp
  | cons x xs ih =>
    have hx : c ≠ x := fun heq => h (heq ▸ List.mem_cons_self)
    rw [List.cons_append, index, ih fun hmem => h (List.mem_cons_of_mem x hmem)]
    simp [hx, Function.comp_def, Nat.add_assoc]

/-- The position of the last occurrence of a text in another. -/
def lastIndex (sub : List Char) : List Char → Option ℕ
  | [] => if sub = [] then some 0 else none
  | c :: cs =>
    match lastIndex sub cs with
    | some i => some (i + 1)
    | none => if sub.isPrefixOf (c :: cs) then some 0 else none

/-- A text that occurs ends within the other. -/
lemma lastIndex_add_length_le {sub cs : List Char} {i : ℕ} (h : lastIndex sub cs = some i) :
    i + sub.length ≤ cs.length := by
  induction cs generalizing i with
  | nil =>
    by_cases hsub : sub = []
    · simp [lastIndex, hsub] at h
      simp [hsub, ← h]
    · simp [lastIndex, hsub] at h
  | cons c cs ih =>
    rw [lastIndex] at h
    split at h
    · next j hj =>
      have hle := ih hj
      obtain rfl := Option.some.inj h
      rw [List.length_cons]
      omega
    · split at h
      · next hinit =>
        obtain rfl := Option.some.inj h
        simpa using (List.isPrefixOf_iff_prefix.mp hinit).length_le
      · cases h

/-- Characters that a text cannot start with are passed over. -/
lemma lastIndex_append {c : Char} {xs : List Char} (h : c ∉ xs) (sub ys : List Char) :
    lastIndex (c :: sub) (xs ++ ys) = (lastIndex (c :: sub) ys).map (· + xs.length) := by
  induction xs with
  | nil => simp
  | cons x xs ih =>
    have hx : c ≠ x := fun heq => h (heq ▸ List.mem_cons_self)
    rw [List.cons_append, lastIndex, ih fun hmem => h (List.mem_cons_of_mem x hmem)]
    cases lastIndex (c :: sub) ys with
    | none => simp [hx]
    | some i => simp [Nat.add_assoc]

/-- The longest end of a text whose characters satisfy a predicate. -/
lemma rdropWhile_append {p : Char → Bool} {xs ys : List Char} (hys : ∀ c ∈ ys, p c = true)
    (hxs : ∀ c ∈ xs.getLast?, p c = false) :
    (xs ++ ys).rdropWhile p = xs ∧ (xs ++ ys).rtakeWhile p = ys := by
  have hrev : ∀ c ∈ ys.reverse, p c = true := fun c hc => hys c (List.mem_reverse.mp hc)
  have hhead : ∀ c ∈ xs.reverse.head?, p c = false := by simpa using hxs
  have hdrop : xs.reverse.dropWhile p = xs.reverse ∧ xs.reverse.takeWhile p = [] := by
    cases hcons : xs.reverse with
    | nil => exact ⟨rfl, rfl⟩
    | cons c cs =>
      have hc := hhead c (by simp [hcons])
      exact ⟨List.dropWhile_cons_of_neg (by simp [hc]), List.takeWhile_cons_of_neg (by simp [hc])⟩
  rw [List.rdropWhile, List.rtakeWhile, List.reverse_append, List.dropWhile_append_of_pos hrev,
    List.takeWhile_append_of_pos hrev, hdrop.1, hdrop.2]
  simp

/-! ## Numbers and flags -/

/-- A number in decimal. -/
def itoa (n : ℕ) : String := n.repr

/-- The number a nonempty string of decimal digits stands for. -/
def parseDigits (digits : List Char) : Option ℕ :=
  if digits ≠ [] ∧ digits.all Char.isDigit then some (Nat.ofDigitChars 10 digits 0) else none

/-- A decimal number with an optional sign, in the range of a 64-bit integer. -/
def atoi (s : String) : Option ℤ :=
  match s.toList with
  | '-' :: digits =>
    (parseDigits digits).bind fun n => if n ≤ 2 ^ 63 then some (-(n : ℤ)) else none
  | '+' :: digits => (parseDigits digits).bind fun n => if n < 2 ^ 63 then some (n : ℤ) else none
  | digits => (parseDigits digits).bind fun n => if n < 2 ^ 63 then some (n : ℤ) else none

/-- An unsigned 64-bit decimal number. -/
def parseUint (s : String) : Option ℕ :=
  (parseDigits s.toList).bind fun n => if n < 2 ^ 64 then some n else none

/-- The spellings of a flag. -/
def parseBool (s : String) : Option Bool :=
  if s ∈ ["1", "t", "T", "TRUE", "true", "True"] then some true
  else if s ∈ ["0", "f", "F", "FALSE", "false", "False"] then some false
  else none

lemma isDigit_of_mem_itoa {n : ℕ} {c : Char} (hc : c ∈ (itoa n).toList) : c.isDigit := by
  rw [itoa, Nat.toList_repr] at hc
  exact Nat.isDigit_of_mem_toDigits (by decide) (by decide) hc

lemma itoa_ne_empty (n : ℕ) : itoa n ≠ "" := by
  intro h
  have hnil : (itoa n).toList = [] := by rw [h]; rfl
  rw [itoa, Nat.toList_repr] at hnil
  exact Nat.toDigits_ne_nil hnil

lemma itoa_injective : Function.Injective itoa := by
  intro m n h
  have hdigits : Nat.toDigits 10 m = Nat.toDigits 10 n := by
    rw [← Nat.toList_repr, ← Nat.toList_repr]
    exact congrArg String.toList h
  rw [← @Nat.ofDigitChars_ten_toDigits m, hdigits, Nat.ofDigitChars_ten_toDigits]

private lemma isSpace_of_isDigit {c : Char} (hc : c.isDigit) : isSpace c = false := by
  have hrange : 48 ≤ c.toNat ∧ c.toNat ≤ 57 := by
    simp only [Char.isDigit, ge_iff_le, Bool.and_eq_true, decide_eq_true_eq,
      UInt32.le_iff_toNat_le] at hc
    exact hc
  simp only [isSpace, Bool.or_eq_false_iff, Bool.and_eq_false_imp, beq_eq_false_iff_ne,
    decide_eq_true_eq, decide_eq_false_iff_not]
  omega

@[simp] lemma trimSpace_itoa (n : ℕ) : trimSpace (itoa n) = itoa n :=
  trimSpace_eq_self fun _ hc => isSpace_of_isDigit (isDigit_of_mem_itoa hc)

/-- A written number reads back as itself when it fits in 64 bits. -/
@[simp] lemma atoi_itoa (n : ℕ) : atoi (itoa n) = if n < 2 ^ 63 then some (n : ℤ) else none := by
  have hdigits : ∀ c ∈ Nat.toDigits 10 n, c.isDigit := fun c hc =>
    Nat.isDigit_of_mem_toDigits (by decide) (by decide) hc
  have hparse : parseDigits (Nat.toDigits 10 n) = some n := by
    rw [parseDigits, if_pos ⟨Nat.toDigits_ne_nil, List.all_eq_true.mpr hdigits⟩,
      Nat.ofDigitChars_ten_toDigits]
  rw [atoi, itoa, Nat.toList_repr]
  -- a digit is neither of the signs, so the unsigned branch is taken
  split
  · next digits heq => exact absurd (hdigits '-' (by simp [heq])) (by decide)
  · next digits heq => exact absurd (hdigits '+' (by simp [heq])) (by decide)
  · rw [hparse, Option.bind_some]

/-! ## Query values -/

/-- The values of a query, one for each name (the first, where a query repeats a name). -/
abbrev Values := List (String × String)

namespace Values

/-- The value of a name; the empty string when it has none. -/
def get (query : Values) (name : String) : String := (query.lookup name).getD ""

/-- Give a name a value, replacing the one it had. -/
def set (query : Values) (name value : String) : Values :=
  (name, value) :: query.filter fun entry => entry.1 ≠ name

/-- Give a name a value only when the condition holds. -/
def setIf (query : Values) (condition : Bool) (name value : String) : Values :=
  if condition then query.set name value else query

@[simp] lemma get_nil (name : String) : get [] name = "" := rfl

@[simp] lemma get_set_self (query : Values) (name value : String) :
    (query.set name value).get name = value := by
  simp [get, set]

@[simp] lemma get_set_of_ne (query : Values) {name other : String} (value : String)
    (h : other ≠ name) : (query.set name value).get other = query.get other := by
  have hfilter : (query.filter fun entry => entry.1 ≠ name).lookup other = query.lookup other := by
    induction query with
    | nil => rfl
    | cons entry query ih =>
      obtain ⟨key, val⟩ := entry
      rw [List.filter_cons]
      by_cases hkey : key = name
      · rw [if_neg (by simpa using hkey), List.lookup_cons, beq_eq_false_iff_ne.mpr (hkey ▸ h)]
        exact ih
      · rw [if_pos (by simpa using hkey), List.lookup_cons, List.lookup_cons, ih]
  simp only [get, set, List.lookup_cons, hfilter, beq_eq_false_iff_ne.mpr h]

@[simp] lemma get_setIf (query : Values) (condition : Bool) (name value other : String) :
    (query.setIf condition name value).get other =
      if other = name ∧ condition then value else query.get other := by
  cases condition
  · simp [setIf]
  · by_cases h : other = name
    · simp [setIf, h]
    · simp [setIf, h]

end Values

end GoText

import Packmon.Library.GoText
import Mathlib.Data.List.Infix

/-!
# Cutting texts

A text is cut at the first or the last place of a character (`cut`, `cutLast`), and a text that
occurs in a longer one occurs in a part of it when the rest cannot take part in it.
-/

namespace GoText

/-! ## The first and the last place of a character -/

/-- What stands before and behind the first place of the character. -/
def cut (c : Char) : List Char → Option (List Char × List Char)
  | [] => none
  | d :: ds => if d = c then some ([], ds) else (cut c ds).map (Prod.map (d :: ·) id)

/-- What stands before and behind the last place of the character. -/
def cutLast (c : Char) : List Char → Option (List Char × List Char)
  | [] => none
  | d :: ds =>
    match cutLast c ds with
    | some (before, behind) => some (d :: before, behind)
    | none => if d = c then some ([], ds) else none

variable {c : Char} {s before behind : List Char}

lemma cut_append_cons (h : c ∉ before) (behind : List Char) :
    cut c (before ++ c :: behind) = some (before, behind) := by
  induction before with
  | nil => simp [cut]
  | cons d ds ih =>
    have hd : d ≠ c := fun heq => h (heq ▸ List.mem_cons_self)
    rw [List.cons_append, cut, if_neg hd, ih fun hmem => h (List.mem_cons_of_mem d hmem)]
    rfl

lemma cut_eq_none_iff : cut c s = none ↔ c ∉ s := by
  induction s with
  | nil => simp [cut]
  | cons d ds ih =>
    by_cases hd : d = c
    · simp [cut, hd]
    · rw [cut, if_neg hd, Option.map_eq_none_iff, ih, List.mem_cons, not_or]
      exact ⟨fun hmem => ⟨Ne.symm hd, hmem⟩, fun hmem => hmem.2⟩

lemma cut_eq_some_iff : cut c s = some (before, behind) ↔ s = before ++ c :: behind ∧ c ∉ before := by
  constructor
  · intro h
    have hmem : c ∈ s := by
      by_contra hnot
      rw [cut_eq_none_iff.mpr hnot] at h
      cases h
    obtain ⟨xs, ys, rfl, hxs⟩ := List.eq_append_cons_of_mem hmem
    rw [cut_append_cons hxs] at h
    cases h
    exact ⟨rfl, hxs⟩
  · rintro ⟨rfl, h⟩
    exact cut_append_cons h behind

lemma cutLast_eq_none_iff : cutLast c s = none ↔ c ∉ s := by
  induction s with
  | nil => simp [cutLast]
  | cons d ds ih =>
    rw [cutLast, List.mem_cons, not_or, ← ih]
    cases cutLast c ds with
    | some parts => simp
    | none =>
      by_cases hd : d = c
      · simp [hd]
      · simp [hd, Ne.symm hd]

lemma cutLast_append_cons (before : List Char) (h : c ∉ behind) :
    cutLast c (before ++ c :: behind) = some (before, behind) := by
  induction before with
  | nil =>
    rw [List.nil_append, cutLast, cutLast_eq_none_iff.mpr h]
    simp
  | cons d ds ih => rw [List.cons_append, cutLast, ih]

/-- A text with the character is taken apart at its last place. -/
lemma exists_last_of_mem (h : c ∈ s) : ∃ before behind, s = before ++ c :: behind ∧ c ∉ behind := by
  obtain ⟨xs, ys, hrev, hxs⟩ := List.eq_append_cons_of_mem (List.mem_reverse.mpr h)
  refine ⟨ys.reverse, xs.reverse, ?_, by simpa using hxs⟩
  rw [← List.reverse_reverse s, hrev]
  simp

lemma cutLast_eq_some_iff :
    cutLast c s = some (before, behind) ↔ s = before ++ c :: behind ∧ c ∉ behind := by
  constructor
  · intro h
    have hmem : c ∈ s := by
      by_contra hnot
      rw [cutLast_eq_none_iff.mpr hnot] at h
      cases h
    obtain ⟨xs, ys, rfl, hys⟩ := exists_last_of_mem hmem
    rw [cutLast_append_cons xs hys] at h
    cases h
    exact ⟨rfl, hys⟩
  · rintro ⟨rfl, h⟩
    exact cutLast_append_cons before h

lemma lastIndex_singleton_of_not_mem (h : c ∉ s) : lastIndex [c] s = none := by
  have hpassed := lastIndex_append h [] []
  rw [List.append_nil] at hpassed
  rw [hpassed]
  rfl

/-- The last place of a character. -/
lemma lastIndex_singleton_append (before : List Char) (h : c ∉ behind) :
    lastIndex [c] (before ++ c :: behind) = some before.length := by
  induction before with
  | nil =>
    rw [List.nil_append, lastIndex, lastIndex_singleton_of_not_mem h]
    simp
  | cons d ds ih => rw [List.cons_append, lastIndex, ih, List.length_cons]

/-- Cut a text off the front, if it stands there. -/
def trimFront (front s : List Char) : List Char :=
  if front <+: s then s.drop front.length else s

@[simp] lemma trimFront_append (front s : List Char) : trimFront front (front ++ s) = s := by
  unfold trimFront
  rw [if_pos (List.prefix_append front s), List.drop_left]

/-! ## Occurrences in a part -/

variable {sub xs ys : List Char}

/-- An occurrence cannot start in a part without its first character. -/
lemma infix_of_infix_append_left (hxs : c ∉ xs) (h : c :: sub <:+: xs ++ ys) : c :: sub <:+: ys := by
  induction xs with
  | nil => exact h
  | cons x xs ih =>
    have hx : c ≠ x := fun heq => hxs (heq ▸ List.mem_cons_self)
    rcases List.infix_cons_iff.mp h with hfront | hrest
    · exact absurd (List.cons_prefix_cons.mp hfront).1 hx
    · exact ih (fun hmem => hxs (List.mem_cons_of_mem x hmem)) hrest

/-- An occurrence cannot end in a part without its last character. -/
lemma infix_of_infix_append_right (hys : c ∉ ys) (h : sub ++ [c] <:+: xs ++ ys) :
    sub ++ [c] <:+: xs := by
  rw [← List.reverse_infix, List.reverse_append, List.reverse_append] at h
  rw [← List.reverse_infix, List.reverse_append]
  exact infix_of_infix_append_left (by simpa using hys) h

/-- An occurrence without a character stands on one side of it. -/
lemma infix_of_infix_append_cons (hsub : c ∉ sub) (h : sub <:+: xs ++ c :: ys) :
    sub <:+: xs ∨ sub <:+: ys := by
  obtain ⟨front, back, heq⟩ := h
  rw [List.append_assoc] at heq
  rcases List.append_eq_append_iff.mp heq with ⟨mid, rfl, hmid⟩ | ⟨mid, rfl, hmid⟩
  · rcases List.append_eq_append_iff.mp hmid with ⟨rest, rfl, hrest⟩ | ⟨rest, rfl, hrest⟩
    · exact Or.inl ⟨front, rest, by simp⟩
    · cases rest with
      | nil => exact Or.inl ⟨front, [], by simp⟩
      | cons d rest =>
        obtain ⟨rfl, -⟩ := List.cons.inj hrest
        exact absurd (List.mem_append_right _ List.mem_cons_self) hsub
  · cases mid with
    | nil =>
      cases sub with
      | nil => exact Or.inl (List.nil_infix)
      | cons d sub =>
        obtain ⟨rfl, -⟩ := List.cons.inj hmid
        exact absurd List.mem_cons_self hsub
    | cons d mid =>
      obtain ⟨-, rfl⟩ := List.cons.inj hmid
      exact Or.inr ⟨mid, back, by simp⟩

end GoText

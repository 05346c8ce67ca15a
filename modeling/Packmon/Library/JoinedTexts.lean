import Mathlib.Data.List.Basic

/-!
# Texts joined with a separator

Texts that are joined with a separator can be taken apart again where the separator does not occur in
them.  Where it does, two lists of texts are joined to the same text when they have the same segments
between separators (`intercalate_eq_intercalate_iff`), and are then still the same list unless a
separator of the one is a joint of the other (`Regrouped`, `intercalate_injOn_iff`).
-/

namespace JoinedTexts

variable {α : Type*} [DecidableEq α] {c : α} {texts texts' : List (List α)}

/-- What stands between the separators of the texts. -/
def segments (c : α) (texts : List (List α)) : List (List α) := texts.flatMap (List.splitOn c)

/-- The parts of texts that are joined are the parts of each. -/
lemma splitOn_intercalate_eq_segments (h : texts ≠ []) :
    ([c].intercalate texts).splitOn c = segments c texts := by
  induction texts with
  | nil => exact absurd rfl h
  | cons text rest ih =>
    cases rest with
    | nil => simp [segments, List.intercalate]
    | cons next rest =>
      have hcons : [c].intercalate (text :: next :: rest) = text ++ c :: [c].intercalate (next :: rest) := by
        simp [List.intercalate]
      rw [hcons, List.splitOn, List.splitOnP_append_cons _ _ (by simp), segments, List.flatMap_cons]
      exact congrArg _ (ih (by simp))

theorem intercalate_eq_intercalate_iff (h : texts ≠ []) (h' : texts' ≠ []) :
    [c].intercalate texts = [c].intercalate texts' ↔ segments c texts = segments c texts' := by
  constructor
  · intro heq
    rw [← splitOn_intercalate_eq_segments h, heq, splitOn_intercalate_eq_segments h']
  · intro heq
    have hback : [c].intercalate (segments c texts) = [c].intercalate texts := by
      rw [← splitOn_intercalate_eq_segments h, List.intercalate_splitOn]
    rw [← hback, heq, ← splitOn_intercalate_eq_segments h', List.intercalate_splitOn]

lemma length_splitOn (text : List α) : (text.splitOn c).length = text.count c + 1 := by
  induction text with
  | nil => rfl
  | cons d text ih =>
    rw [List.splitOn] at ih ⊢
    rw [List.splitOnP_cons_eq_if_modifyHead, List.count_cons]
    split_ifs with hd
    · rw [List.length_cons, ih]
    · rw [List.length_modifyHead, ih]

/-- The segments give the texts back when it is known how many separators each holds. -/
lemma eq_of_segments_eq (hsegments : segments c texts = segments c texts')
    (hcount : texts.map (List.count c) = texts'.map (List.count c)) : texts = texts' := by
  induction texts generalizing texts' with
  | nil =>
    rw [List.map_nil] at hcount
    exact (List.map_eq_nil_iff.mp hcount.symm).symm
  | cons text rest ih =>
    cases texts' with
    | nil => simp at hcount
    | cons text' rest' =>
      obtain ⟨hfirst, hrest⟩ := List.cons.inj hcount
      have hlength : (text.splitOn c).length = (text'.splitOn c).length := by
        rw [length_splitOn, length_splitOn, hfirst]
      rw [segments, segments, List.flatMap_cons, List.flatMap_cons] at hsegments
      obtain ⟨hparts, htail⟩ := List.append_inj hsegments hlength
      have htext : text = text' := by
        have hback : [c].intercalate (text.splitOn c) = text := List.intercalate_splitOn c
        rw [← hback, hparts, List.intercalate_splitOn]
      rw [htext, ih htail hrest]

/-- The same segments, put together in another way. -/
def Regrouped (c : α) (texts texts' : List (List α)) : Prop :=
  segments c texts = segments c texts' ∧ texts.map (List.count c) ≠ texts'.map (List.count c)

instance (c : α) (texts texts' : List (List α)) : Decidable (Regrouped c texts texts') :=
  inferInstanceAs (Decidable (_ ∧ _))

/-- Joined texts tell two lists of texts apart unless the one is a regrouping of the other. -/
theorem intercalate_injOn_iff (h : texts ≠ []) (h' : texts' ≠ []) :
    ([c].intercalate texts = [c].intercalate texts' → texts = texts') ↔ ¬ Regrouped c texts texts' := by
  rw [intercalate_eq_intercalate_iff h h']
  constructor
  · rintro hinj ⟨hsegments, hcount⟩
    exact hcount (by rw [hinj hsegments])
  · intro hregrouped hsegments
    by_contra hne
    refine hregrouped ⟨hsegments, ?_⟩
    intro hcount
    exact hne (eq_of_segments_eq hsegments hcount)

end JoinedTexts

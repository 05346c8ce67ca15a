import Mathlib.Data.List.Nodup
import Mathlib.Tactic.Common

/-!
# Tables with a key

A table is a list of rows, no two with the same key.  `upsert` inserts a row, or merges it into the row
with its key; `upsertAll` does so for one row after another.  Where what is merged looks like the new row
(`hQ` below), a query finds after `upsertAll` what the last new row of each key says and what the table
held under other keys (`exists_upsertAll_iff`).
-/

namespace Tables

variable {ρ κ : Type} (key : ρ → κ)

/-- The row is among the new ones, and no later one has its key. -/
def IsLast (new : ρ) (news : List ρ) : Prop :=
  ∃ before after, news = before ++ new :: after ∧ key new ∉ after.map key

section

variable {key} {new row : ρ} {news : List ρ}

lemma isLast_cons_iff :
    IsLast key row (new :: news) ↔ IsLast key row news ∨ (row = new ∧ key new ∉ news.map key) := by
  constructor
  · rintro ⟨before, after, heq, hlast⟩
    rcases before with _ | ⟨head, before⟩
    · obtain ⟨rfl, rfl⟩ := List.cons.inj heq
      exact Or.inr ⟨rfl, hlast⟩
    · obtain ⟨rfl, rfl⟩ := List.cons.inj heq
      exact Or.inl ⟨before, after, rfl, hlast⟩
  · rintro (⟨before, after, rfl, hlast⟩ | ⟨rfl, hlast⟩)
    · exact ⟨new :: before, after, rfl, hlast⟩
    · exact ⟨[], news, rfl, hlast⟩

lemma IsLast.mem (h : IsLast key row news) : row ∈ news := by
  obtain ⟨before, after, rfl, -⟩ := h
  simp

/-- Where no two new rows share a key, every one is the last of its key. -/
lemma isLast_of_nodup (hnodup : (news.map key).Nodup) (h : row ∈ news) : IsLast key row news := by
  obtain ⟨before, after, rfl⟩ := List.append_of_mem h
  refine ⟨before, after, rfl, ?_⟩
  rw [List.map_append, List.map_cons] at hnodup
  exact (List.nodup_cons.mp (List.nodup_append.mp hnodup).2.1).1

lemma isLast_comp_iff {κ' : Type} {f : κ → κ'} (hf : Function.Injective f) :
    IsLast (fun r => f (key r)) row news ↔ IsLast key row news := by
  have hmem (after : List ρ) : f (key row) ∈ after.map (fun r => f (key r)) ↔ key row ∈ after.map key := by
    rw [← List.mem_map_of_injective hf, List.map_map]
    rfl
  simp only [IsLast, hmem]

lemma isLast_iff_mem (hnodup : (news.map key).Nodup) : IsLast key row news ↔ row ∈ news :=
  ⟨IsLast.mem, isLast_of_nodup hnodup⟩

/-- What is picked from a list, by a function that agrees with `f` where it picks, is a part of the
list's image. -/
lemma filterMap_sublist_map {α β : Type} {pick : α → Option β} {f : α → β} (as : List α)
    (h : ∀ a b, pick a = some b → b = f a) : List.Sublist (as.filterMap pick) (as.map f) := by
  induction as with
  | nil => exact List.Sublist.refl _
  | cons a as ih =>
    cases hpick : pick a with
    | none =>
      rw [List.filterMap_cons_none hpick]
      exact ih.cons _
    | some b =>
      rw [List.filterMap_cons_some hpick, List.map_cons, h a b hpick]
      exact ih.cons_cons _

/-- Lists that correspond row by row have the same keys. -/
lemma map_key_eq {α : Type} {keyA : α → κ} {R : α → ρ → Prop} {as : List α}
    (h : List.Forall₂ R as news) (hkey : ∀ a r, R a r → keyA a = key r) :
    as.map keyA = news.map key := by
  induction h with
  | nil => rfl
  | cons hhead _ ih => rw [List.map_cons, List.map_cons, hkey _ _ hhead, ih]

lemma exists_of_mem_right {α : Type} {R : α → ρ → Prop} {as : List α} (h : List.Forall₂ R as news)
    (hrow : row ∈ news) : ∃ a ∈ as, R a row := by
  induction h with
  | nil => cases hrow
  | cons hhead _ ih =>
    rcases List.mem_cons.mp hrow with rfl | htail
    · exact ⟨_, List.mem_cons_self, hhead⟩
    · obtain ⟨a, ha, hR⟩ := ih htail
      exact ⟨a, List.mem_cons_of_mem _ ha, hR⟩

lemma exists_of_mem_left {α : Type} {R : α → ρ → Prop} {as : List α} {a : α}
    (h : List.Forall₂ R as news) (ha : a ∈ as) : ∃ row ∈ news, R a row :=
  exists_of_mem_right h.flip ha

/-- The last rows of lists that correspond row by row, with the same keys, correspond. -/
lemma exists_isLast_iff {α : Type} {keyA : α → κ} {R : α → ρ → Prop} {P : α → Prop} {Q : ρ → Prop}
    {as : List α} (h : List.Forall₂ R as news) (hkey : ∀ a r, R a r → keyA a = key r)
    (hPQ : ∀ a ∈ as, ∀ r, R a r → (P a ↔ Q r)) :
    (∃ r, IsLast key r news ∧ Q r) ↔ ∃ a, IsLast keyA a as ∧ P a := by
  induction h with
  | nil => simp [IsLast]
  | @cons a r as news hhead htail ih =>
    have hkeys := map_key_eq htail hkey
    have htails := ih fun a ha => hPQ a (List.mem_cons_of_mem _ ha)
    have hheads := hPQ a List.mem_cons_self r hhead
    simp only [isLast_cons_iff, or_and_right, exists_or, htails, and_assoc, exists_eq_left, hkeys,
      hkey a r hhead, hheads]

end

variable [DecidableEq κ] (merge : ρ → ρ → ρ)

/-- Merge a row into the one with its key, or add it. -/
def upsert (new : ρ) : List ρ → List ρ
  | [] => [new]
  | row :: rows => if key row = key new then merge row new :: rows else row :: upsert new rows

/-- Upsert one row after another. -/
def upsertAll (news rows : List ρ) : List ρ :=
  news.foldl (fun rows new => upsert key merge new rows) rows

variable {key merge} {new : ρ} {news rows : List ρ}

section KeepsKey

variable (hkey : ∀ old new, key old = key new → key (merge old new) = key new)

include hkey

lemma map_key_upsert :
    (upsert key merge new rows).map key =
      if key new ∈ rows.map key then rows.map key else rows.map key ++ [key new] := by
  induction rows with
  | nil => simp [upsert]
  | cons row rows ih =>
    rw [upsert]
    by_cases h : key row = key new
    · simp [h, hkey row new h]
    · have h' : key new ≠ key row := Ne.symm h
      rw [if_neg h, List.map_cons, ih]
      by_cases hmem : key new ∈ rows.map key
      · simp [hmem]
      · simp [hmem, h']

lemma nodup_upsert (hnodup : (rows.map key).Nodup) :
    ((upsert key merge new rows).map key).Nodup := by
  rw [map_key_upsert hkey]
  split_ifs with h
  · exact hnodup
  · exact List.nodup_append.mpr ⟨hnodup, List.nodup_singleton _, fun k hk k' hk' => by
      rw [List.mem_singleton.mp hk']
      rintro rfl
      exact h hk⟩

lemma nodup_upsertAll (hnodup : (rows.map key).Nodup) :
    ((upsertAll key merge news rows).map key).Nodup := by
  induction news generalizing rows with
  | nil => exact hnodup
  | cons new news ih => exact ih (nodup_upsert hkey hnodup)

lemma mem_map_key_upsert {k : κ} :
    k ∈ (upsert key merge new rows).map key ↔ k = key new ∨ k ∈ rows.map key := by
  rw [map_key_upsert hkey]
  split_ifs with h
  · refine ⟨Or.inr, ?_⟩
    rintro (rfl | hk)
    · exact h
    · exact hk
  · rw [List.mem_append, List.mem_singleton, or_comm]

/-- The keys of a table after rows were upserted. -/
lemma mem_map_key_upsertAll {k : κ} :
    k ∈ (upsertAll key merge news rows).map key ↔ k ∈ news.map key ∨ k ∈ rows.map key := by
  induction news generalizing rows with
  | nil => simp [upsertAll]
  | cons new news ih =>
    change k ∈ (upsertAll key merge news (upsert key merge new rows)).map key ↔ _
    rw [ih, mem_map_key_upsert hkey, List.map_cons, List.mem_cons, or_assoc, or_left_comm]

/-- A query on the key finds the new rows and the old ones. -/
lemma exists_key_upsertAll_iff {P : κ → Prop} :
    (∃ row ∈ upsertAll key merge news rows, P (key row)) ↔
      (∃ new ∈ news, P (key new)) ∨ ∃ row ∈ rows, P (key row) := by
  have hmap (l : List ρ) : (∃ row ∈ l, P (key row)) ↔ ∃ k, k ∈ l.map key ∧ P k := by simp
  rw [hmap, hmap, hmap, ← exists_or]
  refine exists_congr fun k => ?_
  rw [mem_map_key_upsertAll hkey, or_and_right]

omit hkey in
/-- A query finds the new row, or a row with another key. -/
lemma exists_upsert_iff {Q : ρ → Prop}
    (hQ : ∀ old new, key old = key new → (Q (merge old new) ↔ Q new))
    (hnodup : (rows.map key).Nodup) :
    (∃ row ∈ upsert key merge new rows, Q row) ↔
      Q new ∨ ∃ row ∈ rows, key row ≠ key new ∧ Q row := by
  induction rows with
  | nil => simp [upsert]
  | cons row rows ih =>
    obtain ⟨hrow, hrows⟩ := List.nodup_cons.mp hnodup
    rw [upsert]
    by_cases h : key row = key new
    · have hother : (∃ r ∈ rows, Q r) ↔ ∃ r ∈ rows, key r ≠ key new ∧ Q r := by
        refine exists_congr fun r => and_congr_right fun hr => ?_
        have hne : key r ≠ key new := fun hkeys => hrow (by
          rw [h, ← hkeys]
          exact List.mem_map_of_mem hr)
        exact (and_iff_right hne).symm
      simp [h, hQ row new h, hother]
    · rw [if_neg h, List.exists_mem_cons_iff, ih hrows, List.exists_mem_cons_iff, and_iff_right h]
      exact or_left_comm

/-- A query finds what the last new row of each key says, and what the table holds under other keys. -/
theorem exists_upsertAll_iff {Q : ρ → Prop}
    (hQ : ∀ old new, key old = key new → (Q (merge old new) ↔ Q new))
    (hnodup : (rows.map key).Nodup) :
    (∃ row ∈ upsertAll key merge news rows, Q row) ↔
      (∃ new, IsLast key new news ∧ Q new) ∨ ∃ row ∈ rows, key row ∉ news.map key ∧ Q row := by
  induction news generalizing rows with
  | nil => simp [upsertAll, IsLast]
  | cons new news ih =>
    change (∃ row ∈ upsertAll key merge news (upsert key merge new rows), Q row) ↔ _
    rw [ih (nodup_upsert hkey hnodup)]
    -- the first new row survives when no later one has its key
    have hfirst : (∃ row ∈ upsert key merge new rows, key row ∉ news.map key ∧ Q row) ↔
        (key new ∉ news.map key ∧ Q new) ∨
          ∃ row ∈ rows, key row ≠ key new ∧ key row ∉ news.map key ∧ Q row :=
      exists_upsert_iff (fun old new h => by rw [hkey old new h, hQ old new h]) hnodup
    rw [hfirst]
    simp only [isLast_cons_iff, List.map_cons, List.mem_cons, not_or]
    constructor
    · rintro (⟨row, hlast, hrow⟩ | ⟨hnew, hQnew⟩ | ⟨row, hmem, hne, hnot, hrow⟩)
      · exact Or.inl ⟨row, Or.inl hlast, hrow⟩
      · exact Or.inl ⟨new, Or.inr ⟨rfl, hnew⟩, hQnew⟩
      · exact Or.inr ⟨row, hmem, ⟨hne, hnot⟩, hrow⟩
    · rintro (⟨row, hlast | ⟨rfl, hnew⟩, hrow⟩ | ⟨row, hmem, ⟨hne, hnot⟩, hrow⟩)
      · exact Or.inl ⟨row, hlast, hrow⟩
      · exact Or.inr (Or.inl ⟨hnew, hrow⟩)
      · exact Or.inr (Or.inr ⟨row, hmem, hne, hnot, hrow⟩)

end KeepsKey

/-- Where new rows replace old ones, the table holds the last new row of each key and its old rows
with other keys. -/
lemma mem_upsertAll_replace {row : ρ} (hnodup : (rows.map key).Nodup) :
    row ∈ upsertAll key (fun _ new => new) news rows ↔
      IsLast key row news ∨ (row ∈ rows ∧ key row ∉ news.map key) := by
  have hfind := @exists_upsertAll_iff _ _ key _ (fun _ new => new) news rows (fun _ _ _ => rfl)
    (fun r => row = r) (fun _ _ _ => Iff.rfl) hnodup
  simpa using hfind

/-- Every row was there, is new, or is a new one merged into one that was there. -/
lemma forall_mem_upsert {P : ρ → Prop} (hnew : P new)
    (hmerge : ∀ old ∈ rows, key old = key new → P (merge old new)) (hrows : ∀ row ∈ rows, P row) :
    ∀ row ∈ upsert key merge new rows, P row := by
  induction rows with
  | nil => simpa [upsert] using hnew
  | cons row rows ih =>
    have htail := ih (fun old h => hmerge old (List.mem_cons_of_mem _ h))
      fun r h => hrows r (List.mem_cons_of_mem _ h)
    rw [upsert]
    split_ifs with h
    · exact List.forall_mem_cons.mpr ⟨hmerge row List.mem_cons_self h,
        fun r hr => hrows r (List.mem_cons_of_mem _ hr)⟩
    · exact List.forall_mem_cons.mpr ⟨hrows row List.mem_cons_self, htail⟩

lemma forall_mem_upsertAll {P : ρ → Prop} (hnews : ∀ new ∈ news, P new)
    (hmerge : ∀ old, P old → ∀ new, P new → key old = key new → P (merge old new))
    (hrows : ∀ row ∈ rows, P row) : ∀ row ∈ upsertAll key merge news rows, P row := by
  induction news generalizing rows with
  | nil => exact hrows
  | cons new news ih =>
    have hnew := hnews new List.mem_cons_self
    exact ih (fun r h => hnews r (List.mem_cons_of_mem _ h)) <|
      forall_mem_upsert hnew (fun old hold => hmerge old (hrows old hold) new hnew) hrows

end Tables

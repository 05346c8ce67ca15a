import Packmon.Library.Keyset
import Mathlib.Data.List.Dedup

/-!
# Sorted sets

A set collected in a hash map and read out through a sort: the values of a list, each once, in the
order of a key that tells them apart.  What comes out depends on which values are in the list and on
nothing else (`sortedSet_congr`), so neither the order they were collected in nor how often matters.
-/

namespace SortedSets

variable {α K : Type} [DecidableEq α] [LinearOrder K] (key : α → K)

/-- The values of the list, each once, in the order of their keys. -/
def sortedSet (values : List α) : List α := Keyset.orderBy key values.dedup

variable {key}

@[simp] lemma mem_sortedSet {values : List α} {value : α} :
    value ∈ sortedSet key values ↔ value ∈ values := by
  simp [sortedSet]

/-- A sorted set is strictly ascending. -/
lemma pairwise_sortedSet (hkey : Function.Injective key) (values : List α) :
    (sortedSet key values).Pairwise fun a b => key a < key b :=
  Keyset.pairwise_lt_orderBy (values.nodup_dedup.map hkey)

omit [DecidableEq α] in
/-- Two strictly ascending lists with the same members are equal. -/
lemma eq_of_ascending {xs ys : List α} (hxs : xs.Pairwise fun a b => key a < key b)
    (hys : ys.Pairwise fun a b => key a < key b) (hmem : ∀ value, value ∈ xs ↔ value ∈ ys) :
    xs = ys := by
  have hnodup {zs : List α} (hzs : zs.Pairwise fun a b => key a < key b) : zs.Nodup :=
    hzs.imp fun h heq => (heq ▸ h).false
  have hperm : xs.Perm ys := (List.perm_ext_iff_of_nodup (hnodup hxs) (hnodup hys)).mpr hmem
  refine hperm.eq_of_pairwise ?_ hxs hys
  intro a b _ _ hab hba
  exact absurd hba hab.not_gt

omit [DecidableEq α] in
/-- Sorting forgets the order the values came in. -/
lemma orderBy_perm (hkey : Function.Injective key) {xs ys : List α} (h : xs.Perm ys) :
    Keyset.orderBy key xs = Keyset.orderBy key ys := by
  have hperm := (Keyset.perm_orderBy key xs).trans (h.trans (Keyset.perm_orderBy key ys).symm)
  refine hperm.eq_of_pairwise ?_ (Keyset.pairwise_le_orderBy xs) (Keyset.pairwise_le_orderBy ys)
  intro a b _ _ hab hba
  exact hkey (le_antisymm hab hba)

/-- A sorted set is determined by its members. -/
theorem sortedSet_congr (hkey : Function.Injective key) {xs ys : List α}
    (hmem : ∀ value, value ∈ xs ↔ value ∈ ys) : sortedSet key xs = sortedSet key ys := by
  apply eq_of_ascending (pairwise_sortedSet hkey xs) (pairwise_sortedSet hkey ys)
  intro value
  rw [mem_sortedSet, mem_sortedSet, hmem]

end SortedSets

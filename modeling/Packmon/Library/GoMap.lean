import Packmon.Library.KeyedMerge
import Mathlib.Logic.Function.Basic

/-!
# Maps that are ranged over in any order

A Go map is a finite map whose entries a `range` loop meets in an order of its own, a different one each
time.  `GoMap` holds the entries, an `Order` is one of those orders.  A loop that sets the value of each
key it meets leaves the same map behind whatever the order (`Order.foldl_update`).
-/

structure GoMap (κ ν : Type) where
  entries : List (κ × ν)
  nodup : (entries.map Prod.fst).Nodup

namespace GoMap

variable {κ ν : Type} {m : GoMap κ ν} {entries : List (κ × ν)}

/-- An order in which a loop meets the entries. -/
structure Order (m : GoMap κ ν) where
  list : List (κ × ν)
  perm : list.Perm m.entries

/-- The order the entries are held in. -/
def inOrder (m : GoMap κ ν) : m.Order := ⟨m.entries, List.Perm.refl _⟩

lemma Order.nodup (order : m.Order) : (order.list.map Prod.fst).Nodup :=
  (order.perm.map Prod.fst).nodup_iff.mpr m.nodup

variable [DecidableEq κ]

def get? (m : GoMap κ ν) (k : κ) : Option ν := (KeyedMerge.entryOf Prod.fst m.entries k).map Prod.snd

lemma entryOf_map_snd_eq_some_iff (hnodup : (entries.map Prod.fst).Nodup) {k : κ} {v : ν} :
    (KeyedMerge.entryOf Prod.fst entries k).map Prod.snd = some v ↔ (k, v) ∈ entries := by
  rw [KeyedMerge.mem_iff_entryOf hnodup, Option.map_eq_some_iff]
  constructor
  · rintro ⟨⟨k', v'⟩, hentry, rfl⟩
    obtain rfl : k' = k := KeyedMerge.key_of_entryOf hentry
    exact hentry
  · intro hentry
    exact ⟨(k, v), hentry, rfl⟩

lemma Order.mem_iff (order : m.Order) {k : κ} {v : ν} : (k, v) ∈ order.list ↔ m.get? k = some v := by
  rw [order.perm.mem_iff, get?, entryOf_map_snd_eq_some_iff m.nodup]

/-- A loop that sets the value of some of the keys it meets: each key ends with what its entry says. -/
lemma foldl_update {β : Type} (g : κ → ν → Option β) (hnodup : (entries.map Prod.fst).Nodup) (f : κ → β)
    (k : κ) :
    entries.foldl (fun f entry => (g entry.1 entry.2).elim f (Function.update f entry.1)) f k =
      ((KeyedMerge.entryOf Prod.fst entries k).bind fun entry => g k entry.2).getD (f k) := by
  induction entries generalizing f with
  | nil => rfl
  | cons entry entries ih =>
    obtain ⟨hentry, hrest⟩ := List.nodup_cons.mp hnodup
    rw [List.foldl_cons, ih hrest, KeyedMerge.entryOf_cons]
    by_cases hk : entry.1 = k
    · subst hk
      rw [KeyedMerge.entryOf_eq_none_iff.mpr hentry, if_pos rfl]
      cases hg : g entry.1 entry.2 with
      | none => simp [hg]
      | some b => simp [hg]
    · rw [if_neg hk]
      cases g entry.1 entry.2 with
      | none => rfl
      | some b => simp [Function.update_of_ne (Ne.symm hk)]

/-- The loop over a map leaves the same behind for every order. -/
theorem Order.foldl_update {β : Type} (order : m.Order) (g : κ → ν → Option β) (f : κ → β) (k : κ) :
    order.list.foldl (fun f entry => (g entry.1 entry.2).elim f (Function.update f entry.1)) f k =
      ((m.get? k).bind (g k)).getD (f k) := by
  rw [GoMap.foldl_update g order.nodup]
  have hget : (KeyedMerge.entryOf Prod.fst order.list k).map Prod.snd = m.get? k := by
    ext v
    rw [entryOf_map_snd_eq_some_iff order.nodup, order.mem_iff]
  rw [← hget, Option.bind_map]
  rfl

end GoMap

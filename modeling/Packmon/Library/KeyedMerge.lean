import Mathlib.Data.List.Perm.Basic
import Mathlib.Data.List.Induction
import Mathlib.Data.List.Nodup
import Mathlib.Tactic.Common

/-!
# Merging items by key

Items are taken one after another; an item whose key is new is appended, an item whose key was seen
before is merged into the entry that has it.  The entry of a key is then the first item of the key with
the later ones merged into it in their order (`entryOf_collect`).  Where that fold does not depend on the
order of the items of one key, the entries are the same for every order of the items (`collect_perm`).
-/

namespace KeyedMerge

variable {ρ κ : Type} [DecidableEq κ] (key : ρ → κ) (merge : ρ → ρ → ρ)

/-- Merges the item into the entry with its key, or appends it. -/
def add (item : ρ) : List ρ → List ρ
  | [] => [item]
  | entry :: entries =>
      if key entry = key item then merge entry item :: entries else entry :: add item entries

/-- The entries after all items. -/
def collect (items : List ρ) : List ρ :=
  items.foldl (fun entries item => add key merge item entries) []

/-- The items of one key, in their order. -/
def group (items : List ρ) (k : κ) : List ρ := items.filter fun item => key item = k

/-- The entry of a key. -/
def entryOf (entries : List ρ) (k : κ) : Option ρ := entries.find? fun entry => key entry = k

omit [DecidableEq κ] in
/-- The first of some items with the later ones merged into it. -/
def mergeAll : List ρ → Option ρ
  | [] => none
  | first :: rest => some (rest.foldl merge first)

variable {key merge} {items items' entries : List ρ} {item entry : ρ} {k : κ}

@[simp] lemma mem_group : entry ∈ group key items k ↔ entry ∈ items ∧ key entry = k := by
  simp [group]

lemma group_append_singleton :
    group key (items ++ [item]) k = group key items k ++ if key item = k then [item] else [] := by
  by_cases h : key item = k <;> simp [group, h]

omit [DecidableEq κ] in
lemma mergeAll_append_singleton :
    mergeAll merge (items ++ [item]) =
      some ((mergeAll merge items).elim item fun old => merge old item) := by
  cases items with
  | nil => rfl
  | cons first rest => simp [mergeAll]

omit [DecidableEq κ] in
lemma mergeAll_eq_none_iff : mergeAll merge items = none ↔ items = [] := by
  cases items <;> simp [mergeAll]

lemma entryOf_eq_none_iff : entryOf key entries k = none ↔ k ∉ entries.map key := by
  simp [entryOf]

lemma entryOf_cons :
    entryOf key (entry :: entries) k = if key entry = k then some entry else entryOf key entries k := by
  by_cases h : key entry = k <;> simp [entryOf, h]

lemma key_of_entryOf (h : entryOf key entries k = some entry) : key entry = k := by
  simpa using List.find?_some h

lemma mem_of_entryOf (h : entryOf key entries k = some entry) : entry ∈ entries :=
  List.mem_of_find?_eq_some h

/-- Where no two entries share a key, each is the entry of its key. -/
lemma mem_iff_entryOf (hnodup : (entries.map key).Nodup) :
    entry ∈ entries ↔ entryOf key entries (key entry) = some entry := by
  constructor
  · intro hmem
    induction entries with
    | nil => cases hmem
    | cons first entries ih =>
      obtain ⟨hfirst, hrest⟩ := List.nodup_cons.mp hnodup
      rcases List.mem_cons.mp hmem with rfl | hmem
      · simp [entryOf]
      · have hne : key first ≠ key entry := fun heq => hfirst (heq ▸ List.mem_map_of_mem hmem)
        simpa [entryOf, hne] using ih hrest hmem
  · exact mem_of_entryOf

section

variable (hmerge : ∀ entry item, key (merge entry item) = key entry)

include hmerge

/-- Adding an item keeps the keys, but for its own behind them where it is new. -/
lemma map_key_add :
    (add key merge item entries).map key =
      if key item ∈ entries.map key then entries.map key else entries.map key ++ [key item] := by
  induction entries with
  | nil => simp [add]
  | cons entry entries ih =>
    by_cases h : key entry = key item
    · simp [add, h, hmerge]
    · have hne : key item ≠ key entry := fun heq => h heq.symm
      rw [add, if_neg h, List.map_cons, ih]
      by_cases hmem : key item ∈ entries.map key <;> simp [hmem, hne]

lemma nodup_collect (items : List ρ) : ((collect key merge items).map key).Nodup := by
  induction items using List.reverseRecOn with
  | nil => exact List.nodup_nil
  | append_singleton items item ih =>
    rw [collect, List.foldl_append, List.foldl_cons, List.foldl_nil, map_key_add hmerge]
    split
    · exact ih
    · next hnew => exact List.nodup_append.mpr ⟨ih, List.nodup_singleton _, by simpa using hnew⟩

/-- The entry of the item's key has the item merged in, and the others stay. -/
lemma entryOf_add :
    entryOf key (add key merge item entries) k =
      if key item = k then some ((entryOf key entries k).elim item fun old => merge old item)
      else entryOf key entries k := by
  induction entries with
  | nil => by_cases h : key item = k <;> simp [add, entryOf, h]
  | cons entry entries ih =>
    simp only [entryOf] at ih
    by_cases h : key entry = key item
    · by_cases hk : key item = k <;> simp [add, entryOf, h, hk, hmerge]
    · by_cases hentry : key entry = k
      · have hk : key item ≠ k := fun heq => h (hentry.trans heq.symm)
        simp [add, entryOf, hentry, hk, hk.symm]
      · simp only [add, if_neg h, entryOf, List.find?_cons, decide_eq_false hentry]
        exact ih

/-- The entry of a key is the first item of the key with the later ones merged into it. -/
theorem entryOf_collect (items : List ρ) (k : κ) :
    entryOf key (collect key merge items) k = mergeAll merge (group key items k) := by
  induction items using List.reverseRecOn with
  | nil => rfl
  | append_singleton items item ih =>
    rw [collect, List.foldl_append, List.foldl_cons, List.foldl_nil, entryOf_add hmerge,
      group_append_singleton]
    change (if key item = k then some ((entryOf key (collect key merge items) k).elim item _) else
      entryOf key (collect key merge items) k) = _
    rw [ih]
    split
    · rw [mergeAll_append_singleton]
    · rw [List.append_nil]

theorem mem_collect_iff :
    entry ∈ collect key merge items ↔
      mergeAll merge (group key items (key entry)) = some entry := by
  rw [mem_iff_entryOf (nodup_collect hmerge items), entryOf_collect hmerge]

/-- The keys of the entries are the keys of the items. -/
lemma mem_map_key_collect : k ∈ (collect key merge items).map key ↔ k ∈ items.map key := by
  rw [← not_iff_not, ← entryOf_eq_none_iff, entryOf_collect hmerge, mergeAll_eq_none_iff]
  simp [group]

/-- Where merging the items of one key does not depend on their order, the entries are the same for
every order of the items. -/
theorem collect_perm
    (hgroups : ∀ k, mergeAll merge (group key items k) = mergeAll merge (group key items' k)) :
    (collect key merge items).Perm (collect key merge items') := by
  have hnodup (items : List ρ) : (collect key merge items).Nodup :=
    (nodup_collect hmerge items).of_map key
  apply (List.perm_ext_iff_of_nodup (hnodup items) (hnodup items')).mpr
  intro entry
  rw [mem_collect_iff hmerge, mem_collect_iff hmerge, hgroups]

end

end KeyedMerge

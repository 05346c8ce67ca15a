import Mathlib.Data.Finset.Card
import Mathlib.Data.Fintype.Basic
import Mathlib.Logic.Function.Basic

/-!
# Interleavings of atomic steps

Threads share a state and take atomic steps one at a time, in any order.  A step is a partial function of
an event, the shared state and the state of the thread that takes it: where it is undefined, the thread
cannot take the step.

`run` follows a schedule, `count` counts the steps of a kind on the way, and `Along` says that something
holds all the way.  What every step keeps, every run keeps (`run_invariant`).
-/

namespace Interleaving

variable {σ τ ε ι : Type} [DecidableEq ι]

/-- A shared state and the states of the threads. -/
structure Config (σ τ ι : Type) where
  shared : σ
  thread : ι → τ

variable (step : ε → σ → τ → Option (σ × τ))

/-- One thread takes a step. -/
def exec (c : Config σ τ ι) (i : ι) (e : ε) : Option (Config σ τ ι) :=
  (step e c.shared (c.thread i)).map fun r => ⟨r.1, Function.update c.thread i r.2⟩

/-- The threads take steps in the order of a schedule. -/
def run : Config σ τ ι → List (ι × ε) → Option (Config σ τ ι)
  | c, [] => some c
  | c, (i, e) :: schedule => (exec step c i e).bind (run · schedule)

/-- The steps of a kind in a run. -/
def count (p : ε → σ → τ → Bool) : Config σ τ ι → List (ι × ε) → ℕ
  | _, [] => 0
  | c, (i, e) :: schedule =>
    (if p e c.shared (c.thread i) then 1 else 0) +
      (exec step c i e).elim 0 (count p · schedule)

/-- A property of the configurations holds at the start and after every step. -/
def Along (P : Config σ τ ι → Prop) : Config σ τ ι → List (ι × ε) → Prop
  | c, [] => P c
  | c, (i, e) :: schedule => P c ∧ (exec step c i e).elim True (Along P · schedule)

/-- At most so many threads are in a state of a kind. -/
def AtMost [Fintype ι] (k : ℕ) (p : τ → Bool) (c : Config σ τ ι) : Prop :=
  (Finset.univ.filter fun i => p (c.thread i)).card ≤ k

instance [Fintype ι] (k : ℕ) (p : τ → Bool) (c : Config σ τ ι) : Decidable (AtMost k p c) :=
  inferInstanceAs (Decidable (_ ≤ _))

instance Along.decidable (P : Config σ τ ι → Prop) [∀ c, Decidable (P c)] :
    (c : Config σ τ ι) → (schedule : List (ι × ε)) → Decidable (Along step P c schedule)
  | c, [] => inferInstanceAs (Decidable (P c))
  | c, (i, e) :: schedule =>
    have : Decidable ((exec step c i e).elim True (Along step P · schedule)) :=
      match exec step c i e with
      | none => inferInstanceAs (Decidable True)
      | some c' => Along.decidable P c' schedule
    inferInstanceAs (Decidable (P c ∧ _))

section

variable {step}

lemma exec_eq_some {c c' : Config σ τ ι} {i : ι} {e : ε} :
    exec step c i e = some c' ↔
      ∃ s t, step e c.shared (c.thread i) = some (s, t) ∧ c' = ⟨s, Function.update c.thread i t⟩ := by
  simp only [exec, Option.map_eq_some_iff, Prod.exists]
  constructor
  · rintro ⟨s, t, h, rfl⟩
    exact ⟨s, t, h, rfl⟩
  · rintro ⟨s, t, h, rfl⟩
    exact ⟨s, t, h, rfl⟩

lemma run_cons_eq_some {c c' : Config σ τ ι} {i : ι} {e : ε} {schedule : List (ι × ε)} :
    run step c ((i, e) :: schedule) = some c' ↔
      ∃ next, exec step c i e = some next ∧ run step next schedule = some c' := by
  rw [run, Option.bind_eq_some_iff]

lemma run_append (c : Config σ τ ι) (first second : List (ι × ε)) :
    run step c (first ++ second) = (run step c first).bind (run step · second) := by
  induction first generalizing c with
  | nil => rfl
  | cons event first ih =>
    obtain ⟨i, e⟩ := event
    simp only [List.cons_append, run, Option.bind_assoc, ih]

/-- What every step of a kind keeps, every run of such steps keeps. -/
theorem run_invariant_of {I : Config σ τ ι → Prop} {P : ε → Prop}
    (hstep : ∀ c c' i e, P e → I c → exec step c i e = some c' → I c') {c c' : Config σ τ ι}
    {schedule : List (ι × ε)} (hP : ∀ event ∈ schedule, P event.2) (hI : I c)
    (hrun : run step c schedule = some c') : I c' := by
  induction schedule generalizing c with
  | nil =>
    obtain rfl : c = c' := Option.some.inj hrun
    exact hI
  | cons event schedule ih =>
    obtain ⟨i, e⟩ := event
    obtain ⟨next, hexec, hrest⟩ := run_cons_eq_some.mp hrun
    obtain ⟨he, hP⟩ := List.forall_mem_cons.mp hP
    exact ih hP (hstep c next i e he hI hexec) hrest

/-- What every step keeps, every run keeps. -/
theorem run_invariant {I : Config σ τ ι → Prop}
    (hstep : ∀ c c' i e, I c → exec step c i e = some c' → I c') {c c' : Config σ τ ι}
    {schedule : List (ι × ε)} (hI : I c) (hrun : run step c schedule = some c') : I c' :=
  run_invariant_of (P := fun _ => True) (fun c c' i e _ => hstep c c' i e) (fun _ _ => trivial) hI hrun

lemma Along.imp {P Q : Config σ τ ι → Prop} (h : ∀ c, P c → Q c) {c : Config σ τ ι}
    {schedule : List (ι × ε)} (hP : Along step P c schedule) : Along step Q c schedule := by
  induction schedule generalizing c with
  | nil => exact h c hP
  | cons event schedule ih =>
    obtain ⟨i, e⟩ := event
    refine ⟨h c hP.1, ?_⟩
    cases hexec : exec step c i e with
    | none => trivial
    | some next =>
      have hnext := hP.2
      rw [hexec] at hnext
      exact ih hnext

variable [Fintype ι]

omit [DecidableEq ι] in
/-- Where at most one thread is in a state of a kind, a thread that is in one is the only one. -/
lemma AtMost.eq {p : τ → Bool} {c : Config σ τ ι} (h : AtMost 1 p c) {i j : ι} (hi : p (c.thread i))
    (hj : p (c.thread j)) : i = j :=
  Finset.card_le_one.mp h i (by simpa using hi) j (by simpa using hj)

end

end Interleaving

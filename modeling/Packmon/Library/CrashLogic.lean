import Mathlib.Data.List.Basic

/-!
# Programs that may stop between two steps

A program works on a store by steps.  The store does a step as a whole or refuses it; it may also be torn
in the middle of a step that is not atomic, or do the step and have its answer lost.  Where the answers
end, the program stops and the store stays as it is, so that a program with all lists of answers is the
program with all its crashes.

`Safe I P p Q` says of a program: from a store with `P` it ends with a value and `Q`, or with an error or
a stop and `I`.  The rules follow the program.
-/

namespace CrashLogic

/-- What the store does with the next step. -/
inductive Answer where
  | done
  | refused
  | torn
  | lost
  deriving DecidableEq, Repr

inductive Outcome (ε α : Type) where
  | value (a : α)
  | error (e : ε)
  | stopped
  deriving DecidableEq, Repr

/-- What a program makes of the answers to its steps and of a store; answers that are left go to the next one. -/
def Program (σ ε α : Type) : Type := List Answer → σ → Outcome ε α × List Answer × σ

/-- A step: what the store does, what it has done when it is torn in the middle of it, and what is noted
once the step is sent. -/
structure Step (σ ε α : Type) where
  run : σ → Except ε (α × σ)
  failure : ε
  torn : σ → σ := id
  note : σ → σ := id

namespace Program

variable {σ ε α β : Type}

instance : Monad (Program σ ε) where
  pure a := fun answers s => (.value a, answers, s)
  bind p f := fun answers s =>
    match p answers s with
    | (.value a, answers, s) => f a answers s
    | (.error e, answers, s) => (.error e, answers, s)
    | (.stopped, answers, s) => (.stopped, answers, s)

def fail (e : ε) : Program σ ε α := fun answers s => (.error e, answers, s)

/-- One step of the store. -/
def step (t : Step σ ε α) : Program σ ε α := fun answers s =>
  match answers with
  | [] => (.stopped, [], s)
  | .refused :: answers => (.error t.failure, answers, t.note s)
  | .torn :: answers => (.error t.failure, answers, t.torn (t.note s))
  | .done :: answers =>
    match t.run (t.note s) with
    | .ok (a, s) => (.value a, answers, s)
    | .error e => (.error e, answers, t.note s)
  | .lost :: answers =>
    match t.run (t.note s) with
    | .ok (_, s) => (.error t.failure, answers, s)
    | .error e => (.error e, answers, t.note s)

/-- A step that only reads. -/
def read (failure : ε) (f : σ → Except ε α) : Program σ ε α := step { run := fun s => (f s).map (·, s), failure }

/-- A program for each element. -/
def forEach (body : β → Program σ ε Unit) : List β → Program σ ε Unit
  | [] => pure ()
  | b :: rest => body b >>= fun _ => forEach body rest

/-- The error of a program in other words. -/
def mapError (f : ε → ε) (p : Program σ ε α) : Program σ ε α := fun answers s =>
  match p answers s with
  | (.value a, answers, s) => (.value a, answers, s)
  | (.error e, answers, s) => (.error (f e), answers, s)
  | (.stopped, answers, s) => (.stopped, answers, s)

/-- What is done behind an error; its own error is joined to it. -/
def onError (join : ε → ε → ε) (p : Program σ ε α) (cleanup : Program σ ε Unit) : Program σ ε α := fun answers s =>
  match p answers s with
  | (.error e, answers, s) =>
    match cleanup answers s with
    | (.value _, answers, s) => (.error e, answers, s)
    | (.error e', answers, s) => (.error (join e e'), answers, s)
    | (.stopped, answers, s) => (.stopped, answers, s)
  | (.value a, answers, s) => (.value a, answers, s)
  | (.stopped, answers, s) => (.stopped, answers, s)

/-- The store behind runs of a program, each with its own answers. -/
def runs (p : Program σ ε Unit) (answers : List (List Answer)) (s : σ) : σ :=
  answers.foldl (fun s answers => (p answers s).2.2) s

end Program

/-! ## Rules -/

section

variable {σ ε α β : Type} {I I' P P' : σ → Prop} {p : Program σ ε α} {Q Q' : α → σ → Prop}

/-- What is known when a program has ended. -/
def Outcome.Holds (I : σ → Prop) (Q : α → σ → Prop) (s : σ) : Outcome ε α → Prop
  | value a => Q a s
  | error _ => I s
  | stopped => I s

def Safe (I P : σ → Prop) (p : Program σ ε α) (Q : α → σ → Prop) : Prop :=
  ∀ answers s, P s → (p answers s).1.Holds I Q (p answers s).2.2

namespace Safe

lemma consequence (h : Safe I P p Q) (hI : ∀ s, I s → I' s) (hP : ∀ s, P' s → P s)
    (hQ : ∀ a s, Q a s → Q' a s) : Safe I' P' p Q' := by
  intro answers s hs
  have hend := h answers s (hP s hs)
  rcases hrun : p answers s with ⟨outcome, rest, s'⟩
  rw [hrun] at hend
  cases outcome with
  | value a => exact hQ a s' hend
  | error e => exact hI s' hend
  | stopped => exact hI s' hend

/-- What holds of every store before the program may be used. -/
lemma of_forall {φ : Prop} (hφ : ∀ s, P s → φ) (h : φ → Safe I P p Q) : Safe I P p Q :=
  fun answers s hs => h (hφ s hs) answers s hs

lemma pure {a : α} (h : ∀ s, P s → Q a s) : Safe (ε := ε) I P (Pure.pure a) Q := fun _ s hs => h s hs

lemma fail {e : ε} (h : ∀ s, P s → I s) : Safe I P (.fail e) Q := fun _ s hs => h s hs

lemma bind {R : β → σ → Prop} {f : α → Program σ ε β} (hp : Safe I P p Q) (hf : ∀ a, Safe I (Q a) (f a) R) :
    Safe I P (p >>= f) R := by
  intro answers s hs
  have hend := hp answers s hs
  rcases hrun : p answers s with ⟨outcome, rest, s'⟩
  rw [hrun] at hend
  have hbind : (p >>= f) answers s =
      match (outcome, rest, s') with
      | (.value a, rest, s) => f a rest s
      | (.error e, rest, s) => (.error e, rest, s)
      | (.stopped, rest, s) => (.stopped, rest, s) := by rw [← hrun]; rfl
  rw [hbind]
  cases outcome with
  | value a => exact hf a rest s' hend
  | error e => exact hend
  | stopped => exact hend

/-- Before a step, once it is sent, in its middle and behind it. -/
lemma step {t : Step σ ε α} (hbefore : ∀ s, P s → I s) (hnote : ∀ s, P s → I (t.note s))
    (htorn : ∀ s, P s → I (t.torn (t.note s)))
    (hrun : ∀ s a s', P s → t.run (t.note s) = .ok (a, s') → Q a s' ∧ I s') : Safe I P (.step t) Q := by
  intro answers s hs
  cases answers with
  | nil => exact hbefore s hs
  | cons answer answers =>
    cases answer with
    | refused => exact hnote s hs
    | torn => exact htorn s hs
    | done =>
      unfold Program.step
      cases hok : t.run (t.note s) with
      | ok result => exact (hrun s result.1 result.2 hs hok).1
      | error e => exact hnote s hs
    | lost =>
      unfold Program.step
      cases hok : t.run (t.note s) with
      | ok result => exact (hrun s result.1 result.2 hs hok).2
      | error e => exact hnote s hs

/-- A step that only reads keeps what is known and learns what it has read. -/
lemma read {failure : ε} {f : σ → Except ε α} (hP : ∀ s, P s → I s) (hQ : ∀ s a, P s → f s = .ok a → Q a s) :
    Safe I P (.read failure f) Q := by
  refine step hP hP hP ?_
  intro s a s' hs hok
  cases hread : f s with
  | error e => simp [hread, Except.map] at hok
  | ok value =>
    obtain ⟨rfl, rfl⟩ : value = a ∧ s = s' := by simpa [hread, Except.map] using hok
    exact ⟨hQ s value hs hread, hP s hs⟩

/-- A loop: what holds before an element and what follows it. -/
lemma forEach {body : β → Program σ ε Unit} (J : List β → σ → Prop) {bs : List β}
    (hbody : ∀ b rest, Safe I (J (b :: rest)) (body b) fun _ => J rest) :
    Safe I (J bs) (.forEach body bs) fun _ => J [] := by
  induction bs with
  | nil => exact pure fun _ hs => hs
  | cons b rest ih => exact bind (hbody b rest) fun _ => ih

lemma mapError {f : ε → ε} (hp : Safe I P p Q) : Safe I P (p.mapError f) Q := by
  intro answers s hs
  have hend := hp answers s hs
  rw [Program.mapError]
  rcases hrun : p answers s with ⟨outcome, rest, s'⟩
  rw [hrun] at hend
  cases outcome with
  | value a => exact hend
  | error e => exact hend
  | stopped => exact hend

/-- What is done behind an error keeps the invariant. -/
lemma onError {join : ε → ε → ε} {cleanup : Program σ ε Unit} (hp : Safe I P p Q)
    (hcleanup : Safe I I cleanup fun _ => I) : Safe I P (p.onError join cleanup) Q := by
  intro answers s hs
  have hend := hp answers s hs
  rcases hrun : p answers s with ⟨outcome, rest, s'⟩
  rw [hrun] at hend
  rw [Program.onError, hrun]
  cases outcome with
  | value a => exact hend
  | stopped => exact hend
  | error e =>
    have hclean := hcleanup rest s' hend
    dsimp only
    rcases hcleanup' : cleanup rest s' with ⟨outcome, rest', s''⟩
    rw [hcleanup'] at hclean
    cases outcome with
    | value a => exact hclean
    | error e => exact hclean
    | stopped => exact hclean

/-- What every run keeps holds behind any number of runs, whenever each of them stops. -/
theorem runs {p : Program σ ε Unit} (h : Safe I I p fun _ => I) {s : σ} (hs : I s) (answers : List (List Answer)) :
    I (p.runs answers s) := by
  induction answers generalizing s with
  | nil => exact hs
  | cons first answers ih =>
    refine ih ?_
    have hend := h first s hs
    show I (p first s).2.2
    rcases hrun : p first s with ⟨outcome, rest, s'⟩
    rw [hrun] at hend
    cases outcome with
    | value a => exact hend
    | error e => exact hend
    | stopped => exact hend

end Safe

/-! ## What a program leaves alone -/

/-- Whatever the answers are, what holds before the program holds behind it. -/
def Keeps (K : σ → Prop) (p : Program σ ε α) : Prop := Safe K K p fun _ => K

namespace Keeps

variable {K : σ → Prop}

lemma safe (h : Keeps K p) (hK : ∀ s, K s → I s) : Safe I K p fun _ => K :=
  h.consequence hK (fun _ hs => hs) fun _ _ hs => hs

lemma pure {a : α} : Keeps (ε := ε) K (Pure.pure a) := Safe.pure fun _ hs => hs

lemma fail {e : ε} : Keeps K (.fail e : Program σ ε α) := Safe.fail fun _ hs => hs

lemma bind {f : α → Program σ ε β} (hp : Keeps K p) (hf : ∀ a, Keeps K (f a)) : Keeps K (p >>= f) :=
  Safe.bind hp hf

lemma step {t : Step σ ε α} (hnote : ∀ s, K s → K (t.note s)) (htorn : ∀ s, K s → K (t.torn s))
    (hrun : ∀ s a s', K s → t.run s = .ok (a, s') → K s') : Keeps K (.step t) := by
  refine Safe.step (fun _ hs => hs) hnote (fun s hs => htorn _ (hnote s hs)) ?_
  intro s a s' hs hok
  have hs' := hrun _ a s' (hnote s hs) hok
  exact ⟨hs', hs'⟩

lemma read {failure : ε} {f : σ → Except ε α} : Keeps K (.read failure f) :=
  Safe.read (fun _ hs => hs) fun _ _ hs _ => hs

lemma mapError {f : ε → ε} (hp : Keeps K p) : Keeps K (p.mapError f) := Safe.mapError hp

lemma forEach {body : β → Program σ ε Unit} {bs : List β} (hbody : ∀ b ∈ bs, Keeps K (body b)) :
    Keeps K (.forEach body bs) := by
  induction bs with
  | nil => exact pure
  | cons b rest ih =>
    exact bind (hbody b List.mem_cons_self) fun _ => ih fun b' hb' => hbody b' (List.mem_cons_of_mem b hb')

end Keeps

end

end CrashLogic

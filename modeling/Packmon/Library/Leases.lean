import Mathlib.Data.List.Induction
import Mathlib.Data.List.Nodup
import Mathlib.Logic.Function.Basic

/-!
# Leases

Workers take items of a store under a lease and finish them later.  A lease is known by a token that stands
in the row of the item; in the meantime the store may take the item back and lease it again.

A session follows the leases that were given out, and for each item the one it is really held under: the
last one, as long as the item was not free since.  A store whose operations look at the token
(`Store`) never finishes an item for a lease that is over (`Session.finish_holder`), and an item is never
under two leases at once (`Session.live_unique`), as long as no token is given out twice.
-/

namespace Leases

/-- A store of items with rows `ρ` and keys `κ`: a request `θ` takes an item, a report `φ` finishes the item
of a lease, and the operations `ψ` do not lease. -/
structure Store (σ κ ρ τ θ φ ψ : Type) [DecidableEq κ] where
  Valid : σ → Prop
  row : σ → κ → Option ρ
  key : ρ → κ
  /-- The token an item is leased under. -/
  token : ρ → Option τ
  /-- The token a worker reads off the row it took. -/
  claim : ρ → Option τ
  /-- The item can be taken. -/
  waits : ρ → Prop
  take : θ → σ → Option ρ × σ
  finish : φ → ρ → σ → σ
  operate : ψ → σ → σ
  take_valid : ∀ {s}, Valid s → ∀ request, Valid (take request s).2
  finish_valid : ∀ {s}, Valid s → ∀ report lease, Valid (finish report lease s)
  operate_valid : ∀ {s}, Valid s → ∀ op, Valid (operate op s)
  take_none : ∀ {s}, Valid s → ∀ request, (take request s).1 = none → row (take request s).2 = row s
  take_some : ∀ {s}, Valid s → ∀ request lease, (take request s).1 = some lease →
    (∃ before, row s (key lease) = some before ∧ waits before) ∧ claim lease = token lease ∧
      row (take request s).2 = Function.update (row s) (key lease) (some lease)
  /-- Only the item of a lease is finished, and only while it stands under its token. -/
  finish_row : ∀ {s}, Valid s → ∀ report lease k, row (finish report lease s) k = row s k ∨
    key lease = k ∧ (∃ claimed before, claim lease = some claimed ∧ row s k = some before ∧
      token before = some claimed) ∧ (row (finish report lease s) k).bind token = none
  operate_row : ∀ {s}, Valid s → ∀ op k,
    row (operate op s) k = row s k ∨ (row (operate op s) k).bind token = none

variable {σ κ ρ τ θ φ ψ ω : Type} [DecidableEq κ]

/-- What happens in a session; a report is made for the lease with a number. -/
inductive Action (ω θ φ ψ : Type) where
  | take (worker : ω) (request : θ)
  | finish (lease : ℕ) (report : φ)
  | operate (op : ψ)

/-- The store, the leases that were given out in their order, and the number of the lease an item is held
under. -/
structure Session (σ κ ρ ω : Type) where
  store : σ
  leases : List (ω × ρ)
  holder : κ → Option ℕ

namespace Session

variable (S : Store σ κ ρ τ θ φ ψ)

def start (s : σ) : Session σ κ ρ ω := ⟨s, [], fun _ => none⟩

/-- An item that is free is held by nobody. -/
def settle (x : Session σ κ ρ ω) (s : σ) : Session σ κ ρ ω :=
  ⟨s, x.leases, fun k => if ((S.row s k).bind S.token).isNone then none else x.holder k⟩

def step (x : Session σ κ ρ ω) : Action ω θ φ ψ → Session σ κ ρ ω
  | .take worker request =>
    match S.take request x.store with
    | (none, s) => { x with store := s }
    | (some lease, s) =>
      ⟨s, x.leases ++ [(worker, lease)], Function.update x.holder (S.key lease) (some x.leases.length)⟩
  | .finish n report =>
    match x.leases[n]? with
    | none => x
    | some (_, lease) => settle S x (S.finish report lease x.store)
  | .operate op => settle S x (S.operate op x.store)

def run (s : σ) (actions : List (Action ω θ φ ψ)) : Session σ κ ρ ω := actions.foldl (step S) (start s)

/-- No token was given out twice. -/
def Distinct (x : Session σ κ ρ ω) : Prop := (x.leases.map fun lease => S.claim lease.2).Nodup

/-- An item stands under the token of a lease. -/
def Live (x : Session σ κ ρ ω) (n : ℕ) (k : κ) : Prop :=
  ∃ worker lease token before, x.leases[n]? = some (worker, lease) ∧ S.key lease = k ∧
    S.claim lease = some token ∧ S.row x.store k = some before ∧ S.token before = some token

variable {S} {x : Session σ κ ρ ω}

lemma take_cases (x : Session σ κ ρ ω) (worker : ω) (request : θ) :
    ((S.take request x.store).1 = none ∧
      step S x (.take worker request) = { x with store := (S.take request x.store).2 }) ∨
    ∃ lease, (S.take request x.store).1 = some lease ∧
      step S x (.take worker request) = ⟨(S.take request x.store).2, x.leases ++ [(worker, lease)],
        Function.update x.holder (S.key lease) (some x.leases.length)⟩ := by
  cases htake : S.take request x.store with
  | mk result s =>
    cases result with
    | none => exact .inl ⟨rfl, by rw [step, htake]⟩
    | some lease => exact .inr ⟨lease, rfl, by rw [step, htake]⟩

lemma step_valid (h : S.Valid x.store) (action : Action ω θ φ ψ) : S.Valid (step S x action).store := by
  cases action with
  | take worker request =>
    obtain ⟨-, heq⟩ | ⟨lease, -, heq⟩ := take_cases (S := S) x worker request <;> rw [heq] <;>
      exact S.take_valid h request
  | finish n report =>
    rw [step]
    split
    · exact h
    · exact S.finish_valid h _ _
  | operate op => exact S.operate_valid h op

/-- Leases are never forgotten. -/
lemma leases_extend (x : Session σ κ ρ ω) (action : Action ω θ φ ψ) :
    x.leases <+: (step S x action).leases := by
  cases action with
  | take worker request =>
    obtain ⟨-, heq⟩ | ⟨lease, -, heq⟩ := take_cases (S := S) x worker request
    · have hleases : x.leases = (step S x (.take worker request)).leases := by rw [heq]
      exact hleases ▸ List.prefix_rfl
    · rw [heq]
      exact List.prefix_append _ _
  | finish n report =>
    rw [step]
    split <;> exact List.prefix_rfl
  | operate op => exact List.prefix_rfl

lemma Distinct.of_step {action : Action ω θ φ ψ} (h : Distinct S (step S x action)) : Distinct S x :=
  h.sublist ((leases_extend x action).sublist.map _)

/-- The lease that an item stands under is the one it is held under. -/
def Faithful (S : Store σ κ ρ τ θ φ ψ) (x : Session σ κ ρ ω) : Prop :=
  ∀ n k, Live S x n k → x.holder k = some n

lemma Live.of_row_eq {n : ℕ} {k : κ} {s : σ} {holder : κ → Option ℕ}
    (h : Live S ⟨s, x.leases, holder⟩ n k) (hrow : S.row s k = S.row x.store k) : Live S x n k := by
  obtain ⟨worker, lease, token, before, hget, hkey, htoken, hbefore, hleased⟩ := h
  exact ⟨worker, lease, token, before, hget, hkey, htoken, hrow ▸ hbefore, hleased⟩

/-- What changes a row only by freeing it keeps the leases apart. -/
lemma Faithful.settle (h : Faithful S x) {s : σ}
    (hrow : ∀ k, S.row s k = S.row x.store k ∨ (S.row s k).bind S.token = none) :
    Faithful S (settle S x s) := by
  intro n k hlive
  have hleased : ((S.row s k).bind S.token).isNone = false := by
    obtain ⟨-, -, token, before, -, -, -, hbefore, hleased⟩ := hlive
    have : S.row s k = some before := hbefore
    simp [this, hleased]
  have hsame : S.row s k = S.row x.store k := by
    refine (hrow k).resolve_right fun hfree => ?_
    simp [hfree] at hleased
  simp only [Session.settle, hleased, Bool.false_eq_true, if_false]
  exact h n k (Live.of_row_eq hlive hsame)

lemma Faithful.take (h : Faithful S x) (hvalid : S.Valid x.store) (worker : ω) (request : θ)
    (hdistinct : Distinct S (step S x (.take worker request))) :
    Faithful S (step S x (.take worker request)) := by
  obtain ⟨hnone, heq⟩ | ⟨lease, hsome, heq⟩ := take_cases (S := S) x worker request
  · rw [heq]
    intro n k hlive
    exact h n k (Live.of_row_eq hlive (congrFun (S.take_none hvalid request hnone) k))
  · rw [heq] at hdistinct ⊢
    obtain ⟨-, hclaim, hrow⟩ := S.take_some hvalid request lease hsome
    intro n k hlive
    obtain ⟨owner, old, token, before, hget, hkey, htoken, hbefore, hleased⟩ := hlive
    simp only [hrow] at hget hbefore
    by_cases hk : k = S.key lease
    · -- The row is the new lease, so a lease with its token is the new one.
      subst hk
      obtain rfl : lease = before := by simpa using hbefore
      have hlast : (x.leases ++ [(worker, lease)])[x.leases.length]? = some (worker, lease) := by simp
      have hmap : ((x.leases ++ [(worker, lease)]).map fun lease => S.claim lease.2)[n]? =
          ((x.leases ++ [(worker, lease)]).map fun lease => S.claim lease.2)[x.leases.length]? := by
        rw [List.getElem?_map, List.getElem?_map, hget, hlast, Option.map_some, Option.map_some, htoken,
          hclaim, hleased]
      have hlt : n < ((x.leases ++ [(worker, lease)]).map fun lease => S.claim lease.2).length := by
        rw [List.length_map]
        exact (List.getElem?_eq_some_iff.1 hget).1
      obtain rfl : n = x.leases.length := (List.getElem?_inj hlt hdistinct).1 hmap
      simp
    · -- An older lease of another item is live as before.
      rw [Function.update_of_ne hk] at hbefore
      have hne : n ≠ x.leases.length := by
        rintro rfl
        obtain rfl : lease = old := by simpa using congrArg (Option.map Prod.snd) hget
        exact hk hkey.symm
      have hlt : n < x.leases.length := by
        have hbound := (List.getElem?_eq_some_iff.1 hget).1
        rw [List.length_append, List.length_singleton] at hbound
        omega
      rw [List.getElem?_append_left hlt] at hget
      simp only [Function.update_of_ne hk]
      exact h n k ⟨owner, old, token, before, hget, hkey, htoken, hbefore, hleased⟩

lemma Faithful.step (h : Faithful S x) (hvalid : S.Valid x.store) (action : Action ω θ φ ψ)
    (hdistinct : Distinct S (step S x action)) : Faithful S (step S x action) := by
  cases action with
  | take worker request => exact h.take hvalid worker request hdistinct
  | finish n report =>
    rw [Session.step]
    split
    · exact h
    · exact h.settle fun k => (S.finish_row hvalid report _ k).imp_right fun hfinish => hfinish.2.2
  | operate op => exact h.settle (S.operate_row hvalid op)

lemma run_append (s : σ) (actions : List (Action ω θ φ ψ)) (action : Action ω θ φ ψ) :
    run S s (actions ++ [action]) = step S (run S s actions) action := by
  simp [run]

/-- All along a session the store is valid and the leases are told apart. -/
theorem run_faithful {s : σ} (hvalid : S.Valid s) (actions : List (Action ω θ φ ψ))
    (hdistinct : Distinct S (run S s actions)) :
    S.Valid (run S s actions).store ∧ Faithful S (run S s actions) := by
  induction actions using List.reverseRecOn with
  | nil =>
    refine ⟨hvalid, ?_⟩
    rintro n k ⟨worker, lease, token, before, hget, -⟩
    simp [run, start] at hget
  | append_singleton actions action ih =>
    rw [run_append] at hdistinct ⊢
    obtain ⟨hstore, hfaithful⟩ := ih hdistinct.of_step
    exact ⟨step_valid hstore action, hfaithful.step hstore action hdistinct⟩

/-- A report changes an item only while it is held under the lease of the report. -/
lemma Faithful.finish_holder (h : Faithful S x) (hvalid : S.Valid x.store) {n : ℕ} {report : φ} {k : κ}
    (hchange : S.row (Session.step S x (.finish n report : Action ω θ φ ψ)).store k ≠ S.row x.store k) :
    Live S x n k ∧ x.holder k = some n := by
  have hlive : Live S x n k := by
    rw [Session.step] at hchange
    split at hchange
    · exact absurd rfl hchange
    · rename_i worker lease hget
      obtain heq | ⟨hkey, ⟨token, before, htoken, hbefore, hleased⟩, -⟩ :=
        S.finish_row hvalid report lease k
      · exact absurd heq hchange
      · exact ⟨worker, lease, token, before, hget, hkey, htoken, hbefore, hleased⟩
  exact ⟨hlive, h n k hlive⟩

/-- An item is not under two leases. -/
lemma Faithful.live_unique (h : Faithful S x) {n m : ℕ} {k : κ} (hn : Live S x n k) (hm : Live S x m k) :
    n = m :=
  Option.some.inj ((h n k hn).symm.trans (h m k hm))

end Session

end Leases

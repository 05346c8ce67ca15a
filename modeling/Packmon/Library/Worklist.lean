import Mathlib.Data.Finset.Card
import Mathlib.Data.Finset.Filter
import Mathlib.Data.Finset.Prod
import Mathlib.Logic.Function.Basic
import Mathlib.Logic.Relation
import Mathlib.Tactic.Common

/-!
# Worklists that spread labels over a graph

`run` is a loop with a variant: from every state that has the invariant it ends within as many rounds as
the variant says (`run_spec`).

The labels of a node are kept in a list without repetitions.  `add` puts a label on a node unless it is
there already or `accepts` refuses it, `addAll` does so for several labels and says whether one was new.
Each new label lowers the number of pairs of a node and a label that are still `missing`; so a `Flow`
whose nodes are queued only when they got a new label never has more to do than before (`Spread`), and a
loop that takes a node from the queue each time ends.  The labels derivable from a start are the least
ones that the start has and that are closed under the edges (`Derivable`).
-/

namespace Worklist

section Loop

variable {σ : Type}

/-- Runs the body while it has something to do, `fuel` times at most; `none` ends the loop. -/
def run (body : σ → Option σ) : ℕ → σ → σ
  | 0, s => s
  | fuel + 1, s =>
    match body s with
    | none => s
    | some s' => run body fuel s'

/-- A loop whose body keeps an invariant and lowers a variant ends within the variant's rounds, in a
state with the invariant. -/
theorem run_spec {body : σ → Option σ} {Inv : σ → Prop} {variant : σ → ℕ}
    (hbody : ∀ s s', Inv s → body s = some s' → Inv s' ∧ variant s' < variant s)
    {s : σ} (hs : Inv s) {fuel : ℕ} (hfuel : variant s ≤ fuel) :
    Inv (run body fuel s) ∧ body (run body fuel s) = none := by
  induction fuel generalizing s with
  | zero =>
    refine ⟨hs, ?_⟩
    rcases hnext : body s with _ | s'
    · exact hnext
    · have hlt := (hbody s s' hs hnext).2
      omega
  | succ fuel ih =>
    rcases hnext : body s with _ | s'
    · simpa only [run, hnext] using And.intro hs hnext
    · obtain ⟨hs', hlt⟩ := hbody s s' hs hnext
      simpa only [run, hnext] using ih hs' (by omega)

end Loop

variable {κ μ : Type} [DecidableEq κ] [DecidableEq μ] (accepts : κ → List μ → μ → Bool)

/-- Puts a label on a node, unless it is there or refused; says whether it did. -/
def add (labels : κ → List μ) (k : κ) (l : μ) : (κ → List μ) × Bool :=
  if l ∈ labels k ∨ accepts k (labels k) l = false then (labels, false)
  else (Function.update labels k (labels k ++ [l]), true)

/-- Puts several labels on a node; says whether one of them was new. -/
def addAll (labels : κ → List μ) (k : κ) (ls : List μ) : (κ → List μ) × Bool :=
  ls.foldl (fun acc l => ((add accepts acc.1 k l).1, (add accepts acc.1 k l).2 || acc.2)) (labels, false)

/-- How many of the pairs are not labelled yet. -/
def missing (pairs : Finset (κ × μ)) (labels : κ → List μ) : ℕ :=
  (pairs.filter fun p => p.2 ∉ labels p.1).card

variable {accepts} {labels : κ → List μ} {k j : κ} {l : μ} {ls : List μ} {pairs : Finset (κ × μ)}

/-- What putting labels `ls` on the node `k` can do. -/
structure Added (accepts : κ → List μ → μ → Bool) (labels : κ → List μ) (k : κ) (ls : List μ)
    (result : (κ → List μ) × Bool) : Prop where
  /-- No other node changes. -/
  frame : ∀ j, j ≠ k → result.1 j = labels j
  /-- Labels are appended. -/
  grows : labels k <+: result.1 k
  /-- What is new is one of the labels to put there, and was accepted. -/
  new : ∀ l ∈ result.1 k, l ∈ labels k ∨ l ∈ ls ∧ ∃ before, accepts k before l = true
  /-- Each of the labels is there now, or was refused. -/
  offered : ∀ l ∈ ls, l ∈ result.1 k ∨ ∃ before, before <+: result.1 k ∧ accepts k before l = false
  /-- Without a new label nothing changed. -/
  unchanged : result.2 = false → result.1 = labels
  /-- With one, the node has a label it had not. -/
  changed : result.2 = true → ∃ l ∈ result.1 k, l ∉ labels k
  nodup : (labels k).Nodup → (result.1 k).Nodup

lemma add_of_mem (h : l ∈ labels k) : add accepts labels k l = (labels, false) := by
  simp [add, h]

lemma add_of_refused (h : accepts k (labels k) l = false) : add accepts labels k l = (labels, false) := by
  simp [add, h]

lemma add_of_accepted (hmem : l ∉ labels k) (h : accepts k (labels k) l = true) :
    add accepts labels k l = (Function.update labels k (labels k ++ [l]), true) := by
  simp [add, hmem, h]

/-- Putting labels on a node one after the other. -/
theorem added_addAll (labels : κ → List μ) (k : κ) (ls : List μ) :
    Added accepts labels k ls (addAll accepts labels k ls) := by
  -- the labels put there so far are a part of the list, so the induction is from its end
  induction ls using List.reverseRec with
  | nil =>
    exact ⟨fun _ _ => rfl, List.prefix_refl _, fun _ h => Or.inl h, by simp, fun _ => rfl,
      fun h => absurd h (by simp [addAll]), id⟩
  | append_singleton ls l ih =>
    have heq : addAll accepts labels k (ls ++ [l]) =
        ((add accepts (addAll accepts labels k ls).1 k l).1,
          (add accepts (addAll accepts labels k ls).1 k l).2 || (addAll accepts labels k ls).2) := by
      simp [addAll]
    rw [heq]
    generalize addAll accepts labels k ls = result at ih
    by_cases hmem : l ∈ result.1 k
    · rw [add_of_mem hmem, Bool.false_or]
      refine { ih with new := ?_, offered := ?_ }
      · intro l' hl'
        exact (ih.new l' hl').imp_right fun h => ⟨List.mem_append_left _ h.1, h.2⟩
      · intro l' hl'
        rcases List.mem_append.mp hl' with hl' | hl'
        · exact ih.offered l' hl'
        · exact Or.inl (List.mem_singleton.mp hl' ▸ hmem)
    · cases haccept : accepts k (result.1 k) l with
      | false =>
        rw [add_of_refused haccept, Bool.false_or]
        refine { ih with new := ?_, offered := ?_ }
        · intro l' hl'
          exact (ih.new l' hl').imp_right fun h => ⟨List.mem_append_left _ h.1, h.2⟩
        · intro l' hl'
          rcases List.mem_append.mp hl' with hl' | hl'
          · exact ih.offered l' hl'
          · exact Or.inr ⟨result.1 k, List.prefix_refl _, List.mem_singleton.mp hl' ▸ haccept⟩
      | true =>
        rw [add_of_accepted hmem haccept, Bool.true_or]
        have hk : Function.update result.1 k (result.1 k ++ [l]) k = result.1 k ++ [l] :=
          Function.update_self ..
        generalize hlabels : Function.update result.1 k (result.1 k ++ [l]) = labels' at hk
        refine ⟨?_, ?_, ?_, ?_, fun h => absurd h (by simp), fun _ => ?_, ?_⟩
        · intro j hj
          rw [← ih.frame j hj, ← hlabels]
          exact Function.update_of_ne hj _ _
        · change labels k <+: labels' k
          rw [hk]
          exact ih.grows.trans (List.prefix_append _ _)
        · intro l' hl'
          simp only [hk, List.mem_append, List.mem_singleton] at hl'
          rcases hl' with hl' | rfl
          · exact (ih.new l' hl').imp_right fun h => ⟨List.mem_append_left _ h.1, h.2⟩
          · exact Or.inr ⟨by simp, _, haccept⟩
        · intro l' hl'
          simp only [hk]
          rcases List.mem_append.mp hl' with hl' | hl'
          · rcases ih.offered l' hl' with h | ⟨before, hbefore, h⟩
            · exact Or.inl (List.mem_append_left _ h)
            · exact Or.inr ⟨before, hbefore.trans (List.prefix_append _ _), h⟩
          · exact Or.inl (List.mem_append_right _ hl')
        · exact ⟨l, by simp [hk], fun h => hmem (ih.grows.subset h)⟩
        · intro hnodup
          simp only [hk]
          refine List.nodup_append.mpr ⟨ih.nodup hnodup, List.nodup_singleton _, ?_⟩
          rintro a ha b hb rfl
          exact hmem (List.mem_singleton.mp hb ▸ ha)

namespace Added

variable {result : (κ → List μ) × Bool} (h : Added accepts labels k ls result)

include h

omit [DecidableEq μ] in
/-- No node loses a label. -/
lemma subset (j : κ) : labels j ⊆ result.1 j := by
  by_cases hj : j = k
  · subst hj
    exact h.grows.subset
  · rw [h.frame j hj]
    exact fun _ hl => hl

/-- Nothing goes missing. -/
lemma missing_le : missing pairs result.1 ≤ missing pairs labels := by
  refine Finset.card_le_card fun p hp => ?_
  rw [Finset.mem_filter] at hp ⊢
  exact ⟨hp.1, fun hmem => hp.2 (h.subset p.1 hmem)⟩

/-- A new label is one pair less that is missing. -/
lemma missing_lt (hin : ∀ l ∈ ls, (k, l) ∈ pairs) (hchanged : result.2 = true) :
    missing pairs result.1 < missing pairs labels := by
  obtain ⟨l, hl, hnew⟩ := h.changed hchanged
  have hpair : (k, l) ∈ pairs := hin l ((h.new l hl).resolve_left hnew).1
  refine Finset.card_lt_card (Finset.ssubset_iff_subset_ne.mpr ⟨fun p hp => ?_, fun heq => ?_⟩)
  · rw [Finset.mem_filter] at hp ⊢
    exact ⟨hp.1, fun hmem => hp.2 (h.subset p.1 hmem)⟩
  · have hmissing : (k, l) ∈ pairs.filter fun p => p.2 ∉ labels p.1 := by simp [hpair, hnew]
    rw [← heq, Finset.mem_filter] at hmissing
    exact hmissing.2 hl

end Added

omit [DecidableEq κ] in
lemma missing_le_card : missing pairs labels ≤ pairs.card := Finset.card_filter_le _ _

/-! ### Labels and a queue -/

/-- The labels of the nodes, and the nodes whose labels are still to be handed on. -/
structure Flow (κ μ : Type) where
  labels : κ → List μ
  queue : List κ

/-- How much there is to do: pairs that are missing, and nodes in the queue. -/
def Flow.variant (pairs : Finset (κ × μ)) (f : Flow κ μ) : ℕ := missing pairs f.labels + f.queue.length

/-- The labels `new` were offered to nodes, and the nodes that took one were queued. -/
structure Spread (accepts : κ → List μ → μ → Bool) (new : κ → μ → Prop) (f f' : Flow κ μ) : Prop where
  grows : ∀ k, f.labels k <+: f'.labels k
  sound : ∀ k, ∀ l ∈ f'.labels k, l ∈ f.labels k ∨ new k l ∧ ∃ before, accepts k before l = true
  offered : ∀ k l, new k l → l ∈ f'.labels k ∨ ∃ before, before <+: f'.labels k ∧ accepts k before l = false
  queue : f.queue ⊆ f'.queue
  queued : ∀ k, f'.labels k = f.labels k ∨ k ∈ f'.queue
  nodup : (∀ k, (f.labels k).Nodup) → ∀ k, (f'.labels k).Nodup
  variant_le : ∀ pairs : Finset (κ × μ), (∀ k l, new k l → (k, l) ∈ pairs) →
    f'.variant pairs ≤ f.variant pairs

namespace Spread

variable {new new' : κ → μ → Prop} {f f' f'' : Flow κ μ}

omit [DecidableEq κ] in
lemma refl (f : Flow κ μ) : Spread accepts (fun _ _ => False) f f where
  grows _ := List.prefix_refl _
  sound _ _ h := Or.inl h
  offered _ _ h := h.elim
  queue := List.Subset.refl _
  queued _ := Or.inl rfl
  nodup h := h
  variant_le _ _ := le_refl _

omit [DecidableEq κ] in
lemma trans (h : Spread accepts new f f') (h' : Spread accepts new' f' f'') :
    Spread accepts (fun k l => new k l ∨ new' k l) f f'' where
  grows k := (h.grows k).trans (h'.grows k)
  sound k l hl := by
    rcases h'.sound k l hl with hl | ⟨hnew, haccepted⟩
    · exact (h.sound k l hl).imp_right fun hnew => ⟨Or.inl hnew.1, hnew.2⟩
    · exact Or.inr ⟨Or.inr hnew, haccepted⟩
  offered k l hnew := by
    rcases hnew with hnew | hnew
    · rcases h.offered k l hnew with hl | ⟨before, hbefore, hrefused⟩
      · exact Or.inl ((h'.grows k).subset hl)
      · exact Or.inr ⟨before, hbefore.trans (h'.grows k), hrefused⟩
    · exact h'.offered k l hnew
  queue := List.Subset.trans h.queue h'.queue
  queued k := by
    rcases h'.queued k with heq | hqueue
    · rcases h.queued k with heq' | hqueue
      · exact Or.inl (heq.trans heq')
      · exact Or.inr (h'.queue hqueue)
    · exact Or.inr hqueue
  nodup hnodup := h'.nodup (h.nodup hnodup)
  variant_le pairs hpairs :=
    (h'.variant_le pairs fun k l hnew => hpairs k l (Or.inr hnew)).trans
      (h.variant_le pairs fun k l hnew => hpairs k l (Or.inl hnew))

omit [DecidableEq κ] in
lemma congr (h : Spread accepts new f f') (heq : ∀ k l, new k l ↔ new' k l) :
    Spread accepts new' f f' := by
  obtain rfl : new = new' := funext fun k => funext fun l => propext (heq k l)
  exact h

/-- Offering labels to one node, which is queued if it took one. -/
lemma of_added {queue queue' : List κ} {result : (κ → List μ) × Bool}
    (h : Added accepts labels k ls result)
    (hunchanged : result.2 = false → queue' = queue)
    (hchanged : result.2 = true → queue ⊆ queue' ∧ k ∈ queue' ∧ queue'.length ≤ queue.length + 1) :
    Spread accepts (fun j l => j = k ∧ l ∈ ls) ⟨labels, queue⟩ ⟨result.1, queue'⟩ := by
  have hgrows (j : κ) : labels j <+: result.1 j := by
    by_cases hj : j = k
    · exact hj ▸ h.grows
    · rw [h.frame j hj]
  refine ⟨hgrows, ?_, ?_, ?_, ?_, ?_, ?_⟩
  · intro j l hl
    by_cases hj : j = k
    · subst hj
      exact (h.new l hl).imp_right fun hnew => ⟨⟨rfl, hnew.1⟩, hnew.2⟩
    · exact Or.inl (by simpa only [h.frame j hj] using hl)
  · rintro j l ⟨rfl, hl⟩
    exact h.offered l hl
  · cases hresult : result.2 with
    | false => exact fun _ hj => hunchanged hresult ▸ hj
    | true => exact (hchanged hresult).1
  · intro j
    cases hresult : result.2 with
    | false => exact Or.inl (congrFun (h.unchanged hresult) j)
    | true =>
      by_cases hj : j = k
      · exact Or.inr (hj ▸ (hchanged hresult).2.1)
      · exact Or.inl (h.frame j hj)
  · intro hnodup j
    by_cases hj : j = k
    · subst hj
      exact h.nodup (hnodup j)
    · change (result.1 j).Nodup
      rw [h.frame j hj]
      exact hnodup j
  · intro pairs hpairs
    simp only [Flow.variant]
    cases hresult : result.2 with
    | false =>
      rw [hunchanged hresult]
      exact Nat.add_le_add_right h.missing_le _
    | true =>
      have hlt : missing pairs result.1 < missing pairs labels :=
        h.missing_lt (fun l hl => hpairs k l ⟨rfl, hl⟩) hresult
      have hlength := (hchanged hresult).2.2
      omega

omit [DecidableEq κ] in
/-- A loop over items that each offer something. -/
lemma foldl {σ ι : Type} {flow : σ → Flow κ μ} {step : σ → ι → σ} {offer : ι → κ → μ → Prop}
    (hstep : ∀ s i, Spread accepts (offer i) (flow s) (flow (step s i))) (items : List ι) (s : σ) :
    Spread accepts (fun k l => ∃ i ∈ items, offer i k l) (flow s) (flow (items.foldl step s)) := by
  induction items generalizing s with
  | nil => exact (refl (flow s)).congr (by simp)
  | cons i items ih =>
    refine ((hstep s i).trans (ih (step s i))).congr fun k l => ?_
    simp

omit [DecidableEq κ] in
/-- Where nothing is refused, the nodes have exactly the labels they had and the new ones. -/
lemma mem_iff (h : Spread accepts new f f') (haccepts : ∀ k before l, accepts k before l = true) (k : κ)
    (l : μ) : l ∈ f'.labels k ↔ l ∈ f.labels k ∨ new k l := by
  constructor
  · intro hl
    exact (h.sound k l hl).imp_right fun hnew => hnew.1
  · rintro (hl | hnew)
    · exact (h.grows k).subset hl
    · refine (h.offered k l hnew).resolve_right ?_
      rintro ⟨before, -, hrefused⟩
      exact absurd (haccepts k before l) (by simp [hrefused])

end Spread

/-! ### What can be derived -/

omit [DecidableEq κ] [DecidableEq μ]

/-- The label is on a start node from which the node can be reached. -/
def Derivable (start : κ → μ → Prop) (edge : κ → κ → Prop) (k : κ) (l : μ) : Prop :=
  ∃ j, start j l ∧ Relation.ReflTransGen edge j k

variable {start : κ → μ → Prop} {edge : κ → κ → Prop}

lemma Derivable.of_start (h : start k l) : Derivable start edge k l := ⟨k, h, .refl⟩

lemma Derivable.step (h : Derivable start edge k l) (hedge : edge k j) : Derivable start edge j l := by
  obtain ⟨i, hstart, hpath⟩ := h
  exact ⟨i, hstart, hpath.tail hedge⟩

/-- Labels that the start has and that follow the edges include all that can be derived. -/
theorem Derivable.closed {P : κ → μ → Prop} (hstart : ∀ k l, start k l → P k l)
    (hedge : ∀ k j l, P k l → edge k j → P j l) (h : Derivable start edge k l) : P k l := by
  obtain ⟨i, hi, hpath⟩ := h
  induction hpath with
  | refl => exact hstart _ _ hi
  | tail _ hlast ih => exact hedge _ _ _ ih hlast

end Worklist

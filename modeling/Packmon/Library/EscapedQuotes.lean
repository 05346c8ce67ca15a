import Mathlib.Data.List.Basic
import Mathlib.Tactic.Ring

/-!
# Quotes at a depth of escaping

A text becomes a part of a quoted string when each of its quotes and each of its backslashes is written
with a backslash before it and every other character is written as it stands or as an escape
(`Writes`).  Strings are embedded in strings, so this happens again and again (`Embeds`).

What is left of a text at any depth is the number of backslashes right before each of its quotes
(`quoteRuns`): writing turns `m` of them into `2 * m + 1`, and so `k` times into
`2 ^ k * m + (2 ^ k - 1)`.
-/

namespace EscapedQuotes

variable {α : Type*} {slash q : α}

/-- The characters that are neither a backslash nor the quote. -/
def IsPlain (slash q c : α) : Prop := c ≠ slash ∧ c ≠ q

/-- The second text is what the first is written as within quotes. -/
inductive Writes (slash q : α) : List α → List α → Prop
  | nil : Writes slash q [] []
  | quote {text written : List α} : Writes slash q text written →
      Writes slash q (q :: text) (slash :: q :: written)
  | backslash {text written : List α} : Writes slash q text written →
      Writes slash q (slash :: text) (slash :: slash :: written)
  | plain {c : α} {text written : List α} : IsPlain slash q c → Writes slash q text written →
      Writes slash q (c :: text) (c :: written)
  | escape {cs e text written : List α} : cs ≠ [] → e ≠ [] → (∀ c ∈ cs, IsPlain slash q c) →
      (∀ c ∈ e, IsPlain slash q c) → Writes slash q text written →
      Writes slash q (cs ++ text) (slash :: (e ++ written))

/-- The second text is what the first is written as, so many times. -/
inductive Embeds (slash q : α) (text : List α) : ℕ → List α → Prop
  | start : Embeds slash q text 0 text
  | step {k : ℕ} {inner written : List α} : Embeds slash q text k inner → Writes slash q inner written →
      Embeds slash q text (k + 1) written

/-! ## The shape of a written text -/

section

variable {text written : List α} {c : α}

lemma getLast?_of_cons (hne : text ≠ []) (h : (c :: text).getLast? = some q) : text.getLast? = some q := by
  rwa [← List.singleton_append, List.getLast?_append_of_ne_nil _ hne] at h

namespace Writes

lemma plains {cs : List α} (hcs : ∀ c ∈ cs, IsPlain slash q c) (h : Writes slash q text written) :
    Writes slash q (cs ++ text) (cs ++ written) := by
  induction cs with
  | nil => exact h
  | cons c cs ih =>
    obtain ⟨hc, hcs⟩ := List.forall_mem_cons.mp hcs
    exact .plain hc (ih hcs)

/-- The first character of a text is written on its own when it is a quote or a backslash. -/
lemma of_cons (hc : c = slash ∨ c = q) (h : Writes slash q (c :: text) written) :
    ∃ rest, written = slash :: c :: rest ∧ Writes slash q text rest := by
  have hplain : ¬ IsPlain slash q c := by
    rintro ⟨hslash, hquote⟩
    obtain rfl | rfl := hc
    · exact hslash rfl
    · exact hquote rfl
  generalize hall : c :: text = all at h
  cases h with
  | nil => simp at hall
  | quote h =>
    obtain ⟨rfl, rfl⟩ := List.cons.inj hall
    exact ⟨_, rfl, h⟩
  | backslash h =>
    obtain ⟨rfl, rfl⟩ := List.cons.inj hall
    exact ⟨_, rfl, h⟩
  | plain hd h =>
    obtain ⟨rfl, rfl⟩ := List.cons.inj hall
    exact absurd hd hplain
  | @escape cs e _ _ hcs he hcsPlain hePlain h =>
    cases cs with
    | nil => exact absurd rfl hcs
    | cons d cs =>
      obtain ⟨rfl, -⟩ := List.cons.inj hall
      exact absurd (hcsPlain _ List.mem_cons_self) hplain

/-- So is a quote behind backslashes. -/
lemma of_replicate {m : ℕ} (h : Writes slash q (List.replicate m slash ++ q :: text) written) :
    ∃ rest, written = List.replicate (2 * m + 1) slash ++ q :: rest ∧ Writes slash q text rest := by
  induction m generalizing written with
  | zero => exact of_cons (.inr rfl) h
  | succ m ih =>
    obtain ⟨tail, rfl, htail⟩ := of_cons (.inl rfl) h
    obtain ⟨rest, rfl, hrest⟩ := ih htail
    exact ⟨rest, rfl, hrest⟩

lemma of_nil (h : Writes slash q [] written) : written = [] := by
  generalize hnil : [] = none at h
  cases h with
  | nil => rfl
  | quote h => simp at hnil
  | backslash h => simp at hnil
  | plain hc h => simp at hnil
  | escape hcs he hcsPlain hePlain h => exact absurd (List.append_eq_nil_iff.mp hnil.symm).1 hcs

/-- A text that ends in a quote is written as one that does. -/
lemma getLast?_eq (h : Writes slash q text written) (hlast : text.getLast? = some q) :
    written.getLast? = some q := by
  induction h with
  | nil => simp at hlast
  | @quote text written h ih =>
    by_cases hnil : text = []
    · subst hnil
      rw [h.of_nil]
      rfl
    · rw [List.getLast?_cons, List.getLast?_cons, ih (getLast?_of_cons hnil hlast)]
      rfl
  | @backslash text written h ih =>
    by_cases hnil : text = []
    · subst hnil
      rw [h.of_nil]
      exact hlast
    · rw [List.getLast?_cons, List.getLast?_cons, ih (getLast?_of_cons hnil hlast)]
      rfl
  | @plain c text written hc h ih =>
    by_cases hnil : text = []
    · subst hnil
      rw [h.of_nil]
      exact hlast
    · rw [List.getLast?_cons, ih (getLast?_of_cons hnil hlast)]
      rfl
  | @escape cs e text written hcs he hcsPlain hePlain h ih =>
    by_cases hnil : text = []
    · rw [hnil, List.append_nil] at hlast
      exact absurd rfl (hcsPlain q (List.mem_of_getLast? hlast)).2
    · have hlast : text.getLast? = some q := by
        rwa [List.getLast?_append_of_ne_nil _ hnil] at hlast
      rw [List.getLast?_cons, List.getLast?_append, ih hlast]
      rfl

end Writes

end

/-! ## Backslashes before quotes -/

variable [DecidableEq α]

/-- The numbers of backslashes right before the quotes, behind `run` of them. -/
def quoteRuns (slash q : α) : ℕ → List α → List ℕ
  | _, [] => []
  | run, c :: rest =>
    if c = slash then quoteRuns slash q (run + 1) rest
    else if c = q then run :: quoteRuns slash q 0 rest
    else quoteRuns slash q 0 rest

/-- The number of backslashes at the end, behind `run` of them. -/
def lastRun (slash : α) : ℕ → List α → ℕ
  | run, [] => run
  | run, c :: rest => if c = slash then lastRun slash (run + 1) rest else lastRun slash 0 rest

variable {run : ℕ} {text written : List α} {c : α}

lemma quoteRuns_slash (rest : List α) :
    quoteRuns slash q run (slash :: rest) = quoteRuns slash q (run + 1) rest := by
  rw [quoteRuns, if_pos rfl]

lemma quoteRuns_quote (hq : q ≠ slash) (rest : List α) :
    quoteRuns slash q run (q :: rest) = run :: quoteRuns slash q 0 rest := by
  rw [quoteRuns, if_neg hq, if_pos rfl]

lemma quoteRuns_plain (hc : IsPlain slash q c) (rest : List α) :
    quoteRuns slash q run (c :: rest) = quoteRuns slash q 0 rest := by
  rw [quoteRuns, if_neg hc.1, if_neg hc.2]

lemma quoteRuns_plains {cs : List α} (hne : cs ≠ []) (hcs : ∀ c ∈ cs, IsPlain slash q c) (rest : List α) :
    quoteRuns slash q run (cs ++ rest) = quoteRuns slash q 0 rest := by
  induction cs generalizing run with
  | nil => exact absurd rfl hne
  | cons c cs ih =>
    obtain ⟨hc, hcs⟩ := List.forall_mem_cons.mp hcs
    rw [List.cons_append, quoteRuns_plain hc]
    by_cases hnil : cs = []
    · rw [hnil, List.nil_append]
    · exact ih hnil hcs

lemma lastRun_plains {cs : List α} (hne : cs ≠ []) (hcs : ∀ c ∈ cs, IsPlain slash q c) (rest : List α) :
    lastRun slash run (cs ++ rest) = lastRun slash 0 rest := by
  induction cs generalizing run with
  | nil => exact absurd rfl hne
  | cons c cs ih =>
    obtain ⟨hc, hcs⟩ := List.forall_mem_cons.mp hcs
    rw [List.cons_append, lastRun, if_neg hc.1]
    by_cases hnil : cs = []
    · rw [hnil, List.nil_append]
    · exact ih hnil hcs

/-- A quote behind a text. -/
lemma quoteRuns_append_quote (hq : q ≠ slash) :
    quoteRuns slash q run (text ++ [q]) = quoteRuns slash q run text ++ [lastRun slash run text] := by
  induction text generalizing run with
  | nil => rw [List.nil_append, quoteRuns_quote hq]; rfl
  | cons c text ih =>
    rw [List.cons_append, quoteRuns, quoteRuns, lastRun]
    split_ifs
    · exact ih
    · rw [ih, List.cons_append]
    · exact ih

/-! ## Writing once -/

namespace Writes

/-- Writing doubles the backslashes before a quote and adds its own. -/
lemma quoteRuns_eq (hq : q ≠ slash) (h : Writes slash q text written) :
    quoteRuns slash q (2 * run) written = (quoteRuns slash q run text).map (2 * · + 1) := by
  induction h generalizing run with
  | nil => rfl
  | quote _ ih =>
    rw [quoteRuns_slash, quoteRuns_quote hq, quoteRuns_quote hq, List.map_cons, ← @ih 0]
  | backslash _ ih =>
    rw [quoteRuns_slash, quoteRuns_slash, quoteRuns_slash, ← ih]
    rfl
  | plain hc _ ih => rw [quoteRuns_plain hc, quoteRuns_plain hc, ← @ih 0]
  | escape hcs he hcsPlain hePlain _ ih =>
    rw [quoteRuns_slash, quoteRuns_plains he hePlain, quoteRuns_plains hcs hcsPlain, ← @ih 0]

/-- And those at the end. -/
lemma lastRun_eq (hq : q ≠ slash) (h : Writes slash q text written) :
    lastRun slash (2 * run) written = 2 * lastRun slash run text := by
  induction h generalizing run with
  | nil => rfl
  | quote _ ih => simp only [lastRun, if_pos, if_neg hq, ← @ih 0, Nat.mul_zero]
  | backslash _ ih =>
    simp only [lastRun, if_pos, ← ih]
    rfl
  | plain hc _ ih => simp only [lastRun, if_neg hc.1, ← @ih 0, Nat.mul_zero]
  | escape hcs he hcsPlain hePlain _ ih =>
    rw [lastRun, if_pos rfl, lastRun_plains he hePlain, lastRun_plains hcs hcsPlain, ← @ih 0]

end Writes

/-! ## Writing again and again -/

/-- The backslashes before a quote at depth `k` that has `m` of them before the text is embedded. -/
def nestedRun (k m : ℕ) : ℕ := 2 ^ k * m + (2 ^ k - 1)

lemma nestedRun_zero (m : ℕ) : nestedRun 0 m = m := by simp [nestedRun]

lemma nestedRun_succ (k m : ℕ) : nestedRun (k + 1) m = 2 * nestedRun k m + 1 := by
  have hpos : 0 < 2 ^ k := Nat.two_pow_pos k
  have hmul : 2 ^ (k + 1) * m = 2 * (2 ^ k * m) := by ring
  unfold nestedRun
  omega

/-- A quoted text at depth `k`: its first quote, behind the backslashes of the depth, and what follows. -/
lemma Embeds.exists_body {k : ℕ} (hq : q ≠ slash) (h : Embeds slash q (q :: text) k written)
    (hlast : text.getLast? = some q) :
    ∃ body, written = List.replicate (2 ^ k - 1) slash ++ q :: body ∧ body.getLast? = some q ∧
      quoteRuns slash q 0 body = (quoteRuns slash q 0 text).map (nestedRun k) := by
  induction h with
  | start => exact ⟨text, rfl, hlast, by rw [show nestedRun 0 = id from funext nestedRun_zero, List.map_id]⟩
  | @step k inner written _ hwrites ih =>
    obtain ⟨body, rfl, hend, hruns⟩ := ih
    obtain ⟨rest, rfl, hrest⟩ := hwrites.of_replicate
    have hdepth : 2 * (2 ^ k - 1) + 1 = 2 ^ (k + 1) - 1 := by
      have hpos : 0 < 2 ^ k := Nat.two_pow_pos k
      omega
    refine ⟨rest, by rw [hdepth], hrest.getLast?_eq hend, ?_⟩
    have hwritten := @Writes.quoteRuns_eq _ slash q _ 0 _ _ hq hrest
    rw [Nat.mul_zero] at hwritten
    rw [hwritten, hruns, List.map_map]
    exact List.map_congr_left fun m _ => (nestedRun_succ k m).symm

/-- The same for the last quote. -/
theorem Embeds.exists_middle {k : ℕ} (hq : q ≠ slash) (h : Embeds slash q (q :: (text ++ [q])) k written) :
    ∃ middle, written = List.replicate (2 ^ k - 1) slash ++ q :: (middle ++ [q]) ∧
      quoteRuns slash q 0 middle = (quoteRuns slash q 0 text).map (nestedRun k) ∧
      lastRun slash 0 middle = nestedRun k (lastRun slash 0 text) := by
  obtain ⟨body, rfl, hlast, hruns⟩ := h.exists_body hq (by simp)
  obtain ⟨middle, rfl⟩ := List.getLast?_eq_some_iff.mp hlast
  refine ⟨middle, rfl, ?_⟩
  rw [quoteRuns_append_quote hq, quoteRuns_append_quote hq, List.map_append] at hruns
  obtain ⟨hmiddle, hend⟩ := List.append_inj' hruns rfl
  exact ⟨hmiddle, (List.cons.inj hend).1⟩

end EscapedQuotes

import Packmon.Chocolatey.Script

/-!
# Redirections in batch scripts

A redirection with a quoted target, put between blanks where the tokenizer separates words, is not seen:
the tokens of the line, what they are written as and the blocks that are open at its end stay the same.

The loop looks ahead, so that the text before the blank could be read in another way once something else
follows.  It is not: a blank ends every name of a variable (`batchVariableEnd_congr`), and a redirection
that does not reach the blank does not depend on what follows (`batchRedirectionEnd_congr`).
-/

namespace Packmon.Chocolatey

open GoText

lemma readBatch_append (s : BatchState) (text next rest : List Char) :
    readBatch s (text ++ next) rest = readBatch (readBatch s text (next ++ rest)) next rest := by
  induction text generalizing s with
  | nil => rfl
  | cons c text ih => rw [List.cons_append, readBatch, readBatch, ih, List.append_assoc]

/-! ## What the loop sees ahead -/

section Ahead

variable {b b' : Char} {text rest rest' : List Char}

lemma breaksVariable_of_isBlank (h : isBlank b = true) : breaksVariable b = true := by
  simp only [isBlank, Bool.or_eq_true, decide_eq_true_eq] at h
  obtain (rfl | rfl) | rfl := h <;> decide

lemma ne_of_isBlank {c : Char} (h : isBlank b = true) (hc : isBlank c = false) : b ≠ c := by
  rintro rfl
  rw [h] at hc
  exact absurd hc (by simp)

/-- A percent expression does not reach over a blank. -/
lemma batchVariableEnd_congr (hb : isBlank b = true) (hb' : isBlank b' = true) :
    batchVariableEnd (text ++ b :: rest) = batchVariableEnd (text ++ b' :: rest') ∧
      batchVariableEnd (text ++ b :: rest) ≤ text.length + 1 := by
  by_cases hmem : '%' ∈ text
  · -- the sign that ends the expression stands before the blank
    obtain ⟨first, last, rfl, hfirst⟩ := List.eq_append_cons_of_mem hmem
    have htake : ∀ tail : List Char, (first ++ '%' :: tail).takeWhile (· ≠ '%') = first := by
      intro tail
      rw [List.takeWhile_append_of_pos]
      · simp
      · intro c hc
        simpa using fun heq : c = '%' => hfirst (heq ▸ hc)
    cases first with
    | nil => exact ⟨rfl, by simp [batchVariableEnd]⟩
    | cons c first =>
      simp only [List.cons_append, List.append_assoc] at htake ⊢
      simp only [batchVariableEnd, htake]
      refine ⟨by simp, ?_⟩
      split_ifs <;> simp
  · -- the blank stands before the sign
    have hany : ∀ (blank : Char) (tail : List Char), isBlank blank = true →
        ((text ++ blank :: tail).takeWhile (· ≠ '%')).any breaksVariable = true := by
      intro blank tail hblank
      have hpercent : blank ≠ '%' := ne_of_isBlank hblank rfl
      rw [List.takeWhile_append_of_pos]
      · simp [hpercent, breaksVariable_of_isBlank hblank]
      · intro c hc
        simpa using fun heq : c = '%' => hmem (heq ▸ hc)
    have hone : ∀ (blank : Char) (tail : List Char), isBlank blank = true →
        batchVariableEnd (text ++ blank :: tail) = 1 := by
      intro blank tail hblank
      have hany := hany blank tail hblank
      cases text with
      | nil =>
        simp only [List.nil_append] at hany ⊢
        simp only [batchVariableEnd, hany, or_true, if_true, if_neg (ne_of_isBlank hblank rfl : blank ≠ '%'),
          ite_self]
      | cons c text =>
        have hc : c ≠ '%' := fun heq => hmem (heq ▸ List.mem_cons_self)
        simp only [List.cons_append] at hany ⊢
        simp only [batchVariableEnd, hany, or_true, if_true, if_neg hc, ite_self]
    rw [hone b rest hb, hone b' rest' hb']
    exact ⟨rfl, Nat.succ_le_succ (Nat.zero_le _)⟩

/-- A target that does not reach the blank does not depend on what follows. -/
lemma batchTargetEnd_congr (hb' : isBlank b' = true) {inBlock inQuote escaped : Bool}
    (h : batchTargetEnd inBlock inQuote escaped (text ++ b :: rest) ≤ text.length) :
    batchTargetEnd inBlock inQuote escaped (text ++ b' :: rest') =
      batchTargetEnd inBlock inQuote escaped (text ++ b :: rest) := by
  induction text generalizing inQuote escaped with
  | nil =>
    have hquote : b' ≠ '"' := ne_of_isBlank hb' rfl
    have hcaret : b' ≠ '^' := ne_of_isBlank hb' rfl
    simp only [List.nil_append, batchTargetEnd, List.length_nil] at h ⊢
    split_ifs at h
    · omega
    · omega
    · omega
    · omega
    · simp_all
    · omega
  | cons c text ih =>
    simp only [List.cons_append, batchTargetEnd, List.length_cons] at h ⊢
    split_ifs at h ⊢
    all_goals first | rfl | rw [ih (by omega)]

lemma duplicatesStream_congr (hb : isBlank b = true) (hb' : isBlank b' = true) :
    duplicatesStream (text ++ b :: rest) = duplicatesStream (text ++ b' :: rest') ∧
      (duplicatesStream (text ++ b :: rest) = true → 2 ≤ text.length) := by
  have hand : ∀ blank : Char, isBlank blank = true → blank ≠ '&' := fun _ h => ne_of_isBlank h rfl
  have hdigit : ∀ blank : Char, isBlank blank = true → ('0' ≤ blank && blank ≤ '9') = false := by
    intro blank h
    simp only [isBlank, Bool.or_eq_true, decide_eq_true_eq] at h
    obtain (rfl | rfl) | rfl := h <;> decide
  rcases text with _ | ⟨x, _ | ⟨y, text⟩⟩
  · simp [duplicatesStream, hand b hb, hand b' hb']
  · simp [duplicatesStream, hdigit b hb, hdigit b' hb']
  · simp [duplicatesStream]

/-- An operator does not reach over a blank. -/
lemma redirectionOperatorEnd_congr (hb : isBlank b = true) (hb' : isBlank b' = true) (c : Char) :
    redirectionOperatorEnd (c :: (text ++ b :: rest)) = redirectionOperatorEnd (c :: (text ++ b' :: rest')) ∧
      (redirectionOperatorEnd (c :: (text ++ b :: rest))).1 ≤ text.length + 1 := by
  -- the length of the arrow depends on the text before the blank only
  obtain ⟨length, hlength, harrow⟩ : ∃ length, length ≤ text.length + 1 ∧
      ∀ (blank : Char) (tail : List Char), isBlank blank = true →
        (if ['>', '>'].isPrefixOf (c :: (text ++ blank :: tail)) then 2 else 1) = length := by
    cases text with
    | nil =>
      refine ⟨1, le_rfl, ?_⟩
      intro blank tail hblank
      have hgreater : blank ≠ '>' := ne_of_isBlank hblank rfl
      simp [hgreater.symm]
    | cons x text =>
      exact ⟨if '>' = c ∧ '>' = x then 2 else 1, by split_ifs <;> simp, fun blank tail _ => by simp⟩
  have hdrop : ∀ (blank : Char) (tail : List Char), (c :: (text ++ blank :: tail)).drop length =
      (c :: text).drop length ++ blank :: tail := by
    intro blank tail
    rw [← List.cons_append, List.drop_append_of_le_length (by simpa using hlength)]
  obtain ⟨hsame, htwo⟩ := @duplicatesStream_congr b b' ((c :: text).drop length) rest rest' hb hb'
  simp only [redirectionOperatorEnd, harrow b rest hb, harrow b' rest' hb', hdrop, ← hsame, true_and]
  split_ifs with hduplicates
  · have := htwo hduplicates
    simp only [List.length_drop, List.length_cons] at this ⊢
    omega
  · exact hlength

/-- A redirection that does not reach the blank does not depend on what follows. -/
lemma batchRedirectionEnd_congr {inBlock : Bool} (hb : isBlank b = true) (hb' : isBlank b' = true) {c : Char}
    (h : batchRedirectionEnd (c :: (text ++ b :: rest)) inBlock ≤ text.length + 1) :
    batchRedirectionEnd (c :: (text ++ b' :: rest')) inBlock =
      batchRedirectionEnd (c :: (text ++ b :: rest)) inBlock := by
  obtain ⟨hoperator, hle⟩ := @redirectionOperatorEnd_congr b b' text rest rest' hb hb' c
  unfold batchRedirectionEnd at h ⊢
  rw [← hoperator]
  generalize redirectionOperatorEnd (c :: (text ++ b :: rest)) = operator at h hle
  dsimp only at h ⊢
  split_ifs at h ⊢ with hdup
  · rfl
  · have hdrop : ∀ (blank : Char) (tail : List Char), (c :: (text ++ blank :: tail)).drop operator.1 =
        (c :: text).drop operator.1 ++ blank :: tail := by
      intro blank tail
      rw [← List.cons_append, List.drop_append_of_le_length (by simpa using hle)]
    have hlength : ((c :: text).drop operator.1).length = text.length + 1 - operator.1 := by simp
    rw [hdrop] at h ⊢
    rw [hdrop]
    generalize (c :: text).drop operator.1 = target at h hlength
    by_cases hblank : ∀ d ∈ target, isBlank d = true
    · -- the target would start behind the blank
      rw [List.takeWhile_append_of_pos hblank, List.takeWhile_cons_of_pos hb, List.length_append,
        List.length_cons] at h
      omega
    · push Not at hblank
      obtain ⟨front, d, back, rfl, hfront, hd⟩ : ∃ front d back, target = front ++ d :: back ∧
          (∀ d ∈ front, isBlank d = true) ∧ ¬ isBlank d = true := by
        refine ⟨target.takeWhile isBlank, ?_⟩
        cases hrest : target.dropWhile isBlank with
        | nil =>
          obtain ⟨d, hd, hnot⟩ := hblank
          exact absurd (List.dropWhile_eq_nil_iff.mp hrest d hd) hnot
        | cons d back =>
          refine ⟨d, back, ?_, fun d hd => List.mem_takeWhile_imp hd, ?_⟩
          · rw [← hrest, List.takeWhile_append_dropWhile]
          · have hnot := List.head_dropWhile_not isBlank (l := target) (by simp [hrest])
            simpa [hrest] using hnot
      simp only [List.append_assoc, List.cons_append, List.takeWhile_append_of_pos hfront,
        List.dropWhile_append_of_pos hfront, List.takeWhile_cons_of_neg hd, List.dropWhile_cons_of_neg hd,
        List.append_nil] at h ⊢
      rw [← List.cons_append, ← List.cons_append] at *
      rw [@batchTargetEnd_congr b b' (d :: back) rest rest' hb']
      simp only [List.length_append, List.length_cons] at hlength ⊢
      omega

end Ahead

/-! ## The loop before a blank -/

namespace BatchState

variable {s : BatchState} {b b' c : Char} {text rest rest' : List Char}

/-- The loop is at a character of its own, outside of quotes and groups. -/
structure Outside (s : BatchState) : Prop where
  skip : s.skip = 0
  inQuote : s.inQuote = false
  argQuote : s.argQuote = false

/-- No word is started. -/
structure Between (s : BatchState) : Prop extends Outside s where
  current : s.current = []
  quoted : s.quoted = false
  word : s.word = none

lemma Outside.between_flush (h : s.Outside) : s.flush.Between := by
  unfold flush
  split_ifs with hword
  · exact ⟨⟨h.skip, h.inQuote, h.argQuote⟩, rfl, rfl, rfl⟩
  · exact ⟨⟨h.skip, h.inQuote, h.argQuote⟩, not_not.mp (fun hne => hword (.inl hne)), rfl, rfl⟩

lemma Between.flush_eq (h : s.Between) : s.flush = s := by
  obtain ⟨⟨hskip, hquote, hgroup⟩, hcurrent, hquoted, hword⟩ := h
  cases s
  simp_all [flush]

/-- A word that is not started keeps nothing. -/
lemma keep_of_word (h : s.word = none) (c : Char) : s.keep c = s := by
  cases s
  simp_all [keep]

lemma read_of_skip (h : s.skip = 0) : s.read c rest = (s.readChar c rest).keep c := by
  unfold read
  rw [h]

/-- A blank outside of quotes and groups ends the word. -/
lemma Outside.read_blank (h : s.Outside) (hb : isBlank b = true) : s.read b rest = s.flush := by
  have hquote : b ≠ '"' := ne_of_isBlank hb rfl
  have hchar : s.readChar b rest = s.flush := by
    unfold readChar
    rw [if_neg hquote, hb, h.argQuote]
    rfl
  rw [read_of_skip h.skip, hchar, keep_of_word h.between_flush.word]

/-- So does an escaped one, unless it belongs to a condition. -/
lemma Outside.read_escaped (h : s.Outside) (hif : s.tracker.readsIfCondition = false) (hb : isBlank b = true) :
    (s.read '^' (b :: rest)).read b rest' = s.flush := by
  have hquote : b ≠ '"' := ne_of_isBlank hb rfl
  have hchar : s.readChar '^' (b :: rest) = { s.flush with skip := 1 } := by
    have hescape : s.readChar '^' (b :: rest) = s.escape b := by
      unfold readChar
      rw [h.inQuote]
      rfl
    rw [hescape, escape, if_neg hquote, hb, h.argQuote, hif]
    rfl
  have hbetween := h.between_flush
  have hskip : { s.flush with skip := 0 } = s.flush := by rw [← hbetween.skip]
  rw [read_of_skip h.skip, hchar, keep_of_word (by exact hbetween.word)]
  simp only [read]
  rw [keep_of_word (by exact hbetween.word), hskip]

lemma caret_congr (hb : isBlank b = true) :
    s.caret (text ++ b' :: rest') = s.caret (text ++ b :: rest) ∨
      text.length < (s.caret (text ++ b :: rest)).skip := by
  cases text with
  | cons d text => exact .inl rfl
  | nil =>
    right
    have hescape : s.caret ([] ++ b :: rest) = s.escape b := rfl
    rw [hescape, escape, if_neg (ne_of_isBlank hb rfl : b ≠ '"')]
    split_ifs <;> exact Nat.zero_lt_one

lemma expand_congr (hb : isBlank b = true) (hb' : isBlank b' = true) :
    s.expand (text ++ b' :: rest') = s.expand (text ++ b :: rest) := by
  obtain ⟨hvariable, hle⟩ := @batchVariableEnd_congr b b' text rest rest' hb hb'
  unfold expand
  rw [← hvariable, ← List.cons_append, ← List.cons_append, List.take_append_of_le_length (by simpa using hle),
    List.take_append_of_le_length (by simpa using hle)]

lemma redirect_congr (hb : isBlank b = true) (hb' : isBlank b' = true) :
    s.redirect (c :: (text ++ b' :: rest')) = s.redirect (c :: (text ++ b :: rest)) ∨
      text.length < (s.redirect (c :: (text ++ b :: rest))).skip := by
  by_cases hle : batchRedirectionEnd (c :: (text ++ b :: rest)) (0 < s.depth) ≤ text.length + 1
  · left
    unfold redirect
    rw [batchRedirectionEnd_congr hb hb' hle]
  · right
    unfold redirect
    dsimp only
    split_ifs <;> dsimp only <;> omega

/-- A turn of the loop sees the same, whatever follows the blank, or jumps over it. -/
lemma readChar_congr (hb : isBlank b = true) (hb' : isBlank b' = true) :
    s.readChar c (text ++ b' :: rest') = s.readChar c (text ++ b :: rest) ∨
      text.length < (s.readChar c (text ++ b :: rest)).skip := by
  unfold readChar
  split_ifs
  all_goals first
    | exact .inl rfl
    | exact caret_congr hb
    | exact .inl (expand_congr hb hb')
    | exact redirect_congr hb hb'

lemma read_congr (hb : isBlank b = true) (hb' : isBlank b' = true) :
    s.read c (text ++ b' :: rest') = s.read c (text ++ b :: rest) ∨
      text.length < (s.read c (text ++ b :: rest)).skip := by
  cases hskip : s.skip with
  | succ n =>
    left
    simp only [read, hskip]
  | zero =>
    rw [read_of_skip hskip, read_of_skip hskip]
    obtain hsame | hjump := @readChar_congr s b b' c text rest rest' hb hb'
    · exact .inl (by rw [hsame])
    · exact .inr hjump

/-- A jump ends where it ends. -/
lemma skip_readBatch (h : text.length < s.skip) : 0 < (readBatch s text rest).skip := by
  induction text generalizing s with
  | nil => exact h
  | cons c text ih =>
    rw [readBatch]
    apply ih
    cases hskip : s.skip with
    | zero => omega
    | succ n =>
      simp only [read, hskip, keep]
      simp only [List.length_cons] at h
      omega

/-- The loop that comes to a character of its own has come there in the same way, whatever follows the next
blank. -/
lemma readBatch_congr (hb : isBlank b = true) (hb' : isBlank b' = true) {next : List Char}
    (h : (readBatch s text (next ++ b :: rest)).skip = 0) :
    readBatch s text (next ++ b' :: rest') = readBatch s text (next ++ b :: rest) := by
  induction text generalizing s with
  | nil => rfl
  | cons c text ih =>
    rw [readBatch] at h ⊢
    rw [readBatch]
    obtain hsame | hjump := @read_congr s b b' c (text ++ next) rest rest' hb hb'
    · rw [List.append_assoc, List.append_assoc] at hsame
      rw [hsame]
      exact ih h
    · rw [List.append_assoc, List.length_append] at hjump
      have := @skip_readBatch (s.read c (text ++ (next ++ b :: rest))) text (next ++ b :: rest) (by omega)
      omega

end BatchState

/-! ## The redirection -/

/-- The operators of redirections to or from a file. -/
inductive RedirectOperator where
  | output
  | append
  | error
  | input
  deriving DecidableEq

def RedirectOperator.text : RedirectOperator → List Char
  | .output => ['>']
  | .append => ['>', '>']
  | .error => ['2', '>']
  | .input => ['<']

/-- A redirection with a quoted target, or one of the errors to the output. -/
inductive Redirection where
  | file (operator : RedirectOperator) (target : List Char) (unquoted : '"' ∉ target)
  | errorToOutput

def Redirection.text : Redirection → List Char
  | .file operator target _ => operator.text ++ '"' :: target ++ ['"']
  | .errorToOutput => ['2', '>', '&', '1']

section Insert

variable {s : BatchState} {b b' c : Char} {text rest rest' : List Char}

/-- A quoted target ends at its quote. -/
lemma batchTargetEnd_quoted {inBlock : Bool} {target : List Char} (htarget : '"' ∉ target) (hb : isBlank b = true) :
    batchTargetEnd inBlock false false ('"' :: target ++ '"' :: b :: rest) = target.length + 2 := by
  have hinside : batchTargetEnd inBlock true false (target ++ '"' :: b :: rest) = target.length + 1 := by
    induction target with
    | nil =>
      have hquote : b ≠ '"' := ne_of_isBlank hb rfl
      have hcaret : b ≠ '^' := ne_of_isBlank hb rfl
      simp [batchTargetEnd, hquote, hcaret, hb]
    | cons d target ih =>
      have hd : d ≠ '"' := fun heq => htarget (heq ▸ List.mem_cons_self)
      rw [List.cons_append, batchTargetEnd, if_neg (by simp), if_neg hd, if_pos rfl,
        ih fun hmem => htarget (List.mem_cons_of_mem d hmem), List.length_cons]
  rw [List.cons_append, batchTargetEnd, if_neg (by simp), if_pos rfl, Bool.not_false, hinside]

/-- A redirection to a quoted target, from its arrow on. -/
lemma batchRedirectionEnd_quoted {inBlock : Bool} {target arrow : List Char} (htarget : '"' ∉ target)
    (hb : isBlank b = true) (harrow : arrow = ['>'] ∨ arrow = ['>', '>'] ∨ arrow = ['<']) :
    batchRedirectionEnd (arrow ++ '"' :: target ++ '"' :: b :: rest) inBlock =
      (arrow ++ '"' :: target ++ ['"']).length := by
  have htargetEnd := @batchTargetEnd_quoted b rest inBlock target htarget hb
  obtain rfl | rfl | rfl := harrow
  all_goals
    simp only [batchRedirectionEnd, redirectionOperatorEnd, duplicatesStream] at htargetEnd ⊢
    simp [isBlank] at htargetEnd ⊢
    omega

/-- Characters that are skipped between words leave no trace. -/
lemma BatchState.Between.readBatch_skip (h : s.Between) :
    readBatch { s with skip := text.length } text rest = s := by
  induction text with
  | nil =>
    obtain ⟨⟨hskip, -, -⟩, -, -, -⟩ := h
    cases s
    simp_all [readBatch]
  | cons c text ih =>
    rw [readBatch]
    simp only [BatchState.read, List.length_cons]
    rw [BatchState.keep_of_word (by exact h.word)]
    exact ih

/-- An arrow between words, or behind the handle of the errors, starts a jump. -/
lemma BatchState.Between.read_arrow (h : s.Between) (hc : c = '<' ∨ c = '>') :
    s.read c rest = { s with skip := batchRedirectionEnd (c :: rest) (0 < s.depth) - 1 } ∧
      (s.read '2' (c :: rest)).read c rest =
        { s with skip := batchRedirectionEnd (c :: rest) (0 < s.depth) - 1 } := by
  obtain ⟨⟨hskip, hquote, hgroup⟩, hcurrent, hquoted, hword⟩ := h
  cases s
  simp only at hskip hquote hgroup hcurrent hquoted hword
  subst hskip hquote hgroup hcurrent hquoted hword
  obtain rfl | rfl := hc
  · exact ⟨rfl, rfl⟩
  · exact ⟨rfl, rfl⟩

/-- A redirection between words leaves no trace. -/
lemma BatchState.Between.readBatch_redirection (h : s.Between) (r : Redirection) (hb : isBlank b = true) :
    readBatch s r.text (b :: rest) = s := by
  -- the jump from the arrow ends at the blank
  have hjump : ∀ (c : Char) (text : List Char), (c = '<' ∨ c = '>') →
      (∀ inBlock, batchRedirectionEnd (c :: (text ++ b :: rest)) inBlock = text.length + 1) →
      readBatch s (c :: text) (b :: rest) = s ∧ readBatch s ('2' :: c :: text) (b :: rest) = s := by
    intro c text hc hend
    obtain ⟨hplain, herror⟩ := @BatchState.Between.read_arrow s c (text ++ b :: rest) h hc
    simp only [readBatch]
    rw [hplain, List.cons_append, herror, hend, Nat.add_sub_cancel, h.readBatch_skip]
    exact ⟨rfl, rfl⟩
  cases r with
  | errorToOutput =>
    refine (hjump '>' ['&', '1'] (.inr rfl) ?_).2
    intro inBlock
    simp [batchRedirectionEnd, redirectionOperatorEnd, duplicatesStream]
  | file operator target htarget =>
    have hend : ∀ (arrow : List Char) (inBlock : Bool), arrow = ['>'] ∨ arrow = ['>', '>'] ∨ arrow = ['<'] →
        batchRedirectionEnd (arrow ++ '"' :: target ++ ['"'] ++ b :: rest) inBlock =
          (arrow ++ '"' :: target ++ ['"']).length := by
      intro arrow inBlock harrow
      have := @batchRedirectionEnd_quoted b rest inBlock target arrow htarget hb harrow
      simpa using this
    cases operator with
    | output => exact (hjump '>' ('"' :: target ++ ['"']) (.inr rfl) fun inBlock =>
        hend ['>'] inBlock (.inl rfl)).1
    | append => exact (hjump '>' ('>' :: '"' :: target ++ ['"']) (.inr rfl) fun inBlock =>
        hend ['>', '>'] inBlock (.inr (.inl rfl))).1
    | error => exact (hjump '>' ('"' :: target ++ ['"']) (.inr rfl) fun inBlock =>
        hend ['>'] inBlock (.inl rfl)).2
    | input => exact (hjump '<' ('"' :: target ++ ['"']) (.inl rfl) fun inBlock =>
        hend ['<'] inBlock (.inr (.inr rfl))).1

/-- A line with a blank at which the loop separates words: the text before it, the blank and the rest.  An
escaped blank separates words, too, unless it belongs to a condition. -/
inductive Separates (depth : ℕ) : List Char → Char → List Char → Prop where
  | plain {text : List Char} {b : Char} {rest : List Char} (blank : isBlank b = true)
      (outside : (readBatch { depth } text (b :: rest)).Outside) : Separates depth text b rest
  | escaped {text : List Char} {b : Char} {rest : List Char} (blank : isBlank b = true)
      (outside : (readBatch { depth } text ('^' :: b :: rest)).Outside)
      (condition : (readBatch { depth } text ('^' :: b :: rest)).tracker.readsIfCondition = false) :
      Separates depth (text ++ ['^']) b rest

/-- Behind a blank that separates words the loop is between words, whatever blank it is and whatever
follows. -/
lemma Separates.between {depth : ℕ} (h : Separates depth text b rest) :
    ∃ s : BatchState, s.Between ∧ ∀ (blank : Char) (next : List Char), isBlank blank = true →
      readBatch { depth } (text ++ [blank]) next = s := by
  cases h with
  | plain hb houtside =>
    refine ⟨(readBatch { depth } text (b :: rest)).flush, houtside.between_flush, ?_⟩
    intro blank next hblank
    have hsame := @BatchState.readBatch_congr _ b blank text rest next hb hblank [] houtside.skip
    rw [readBatch_append, List.singleton_append, ← List.nil_append (blank :: next), hsame]
    exact houtside.read_blank hblank
  | @escaped text _ _ hb houtside hcondition =>
    refine ⟨(readBatch { depth } text ('^' :: b :: rest)).flush, houtside.between_flush, ?_⟩
    intro blank next hblank
    have hsame := @BatchState.readBatch_congr _ b blank text rest next hb hblank ['^'] houtside.skip
    rw [List.append_assoc, readBatch_append]
    rw [show ['^'] ++ [blank] ++ next = ['^'] ++ blank :: next from rfl, hsame]
    exact houtside.read_escaped hcondition hblank

lemma BatchState.Between.read_blank (h : s.Between) (hb : isBlank b = true) : s.read b rest = s :=
  (h.toOutside.read_blank hb).trans h.flush_eq

/-- Blanks and redirections between words leave no trace. -/
lemma BatchState.Between.readBatch_inserted (h : s.Between) (r : Redirection) (hb : isBlank b = true)
    (hb' : isBlank b' = true) :
    readBatch s (b :: (r.text ++ b' :: text)) rest = readBatch s text rest := by
  rw [readBatch, h.read_blank hb, readBatch_append, List.cons_append, h.readBatch_redirection r hb', readBatch,
    h.read_blank hb']

/-- A line is read on from where its first part has led. -/
lemma tokenizeBatch_append (depth : ℕ) (text rest : List Char) :
    tokenizeBatch (text ++ rest) depth =
      let s := (readBatch (readBatch { depth } text rest) rest []).flush
      (s.tokens, s.depth) := by
  rw [tokenizeBatch, readBatch_append, List.append_nil]

/-- The lines with a redirection between blanks, behind the blank of a line or before it. -/
def IsInserted (text : List Char) (b : Char) (rest : List Char) (r : Redirection) (line : List Char) : Prop :=
  ∃ first second : Char, isBlank first = true ∧ isBlank second = true ∧
    (line = text ++ b :: first :: (r.text ++ second :: rest) ∨
      line = text ++ first :: (r.text ++ second :: b :: rest))

lemma tokenizeBatch_inserted {depth : ℕ} (h : Separates depth text b rest) {r : Redirection} {line : List Char}
    (hline : IsInserted text b rest r line) :
    tokenizeBatch line depth = tokenizeBatch (text ++ b :: rest) depth := by
  have hb : isBlank b = true := by cases h <;> assumption
  obtain ⟨first, second, hfirst, hsecond, hline⟩ := hline
  obtain ⟨s, hbetween, hread⟩ := h.between
  have hsplit : ∀ (blank : Char) (next : List Char), isBlank blank = true →
      tokenizeBatch (text ++ blank :: next) depth =
        ((readBatch s next []).flush.tokens, (readBatch s next []).flush.depth) := by
    intro blank next hblank
    rw [← List.singleton_append, ← List.append_assoc, tokenizeBatch_append, hread blank next hblank]
  rw [hsplit b rest hb]
  obtain rfl | rfl := hline
  · rw [hsplit b _ hb, hbetween.readBatch_inserted r hfirst hsecond]
  · rw [hsplit first _ hfirst, readBatch_append, List.cons_append, hbetween.readBatch_redirection r hsecond,
      readBatch, readBatch, hbetween.read_blank hsecond, hbetween.read_blank hb]

/-- A redirection put between blanks where the loop separates words is not seen: the tokens and the blocks
that are open at the end of the line stay the same, and with them the packages. -/
theorem redirection_transparent (depth : ℕ) (text : List Char) (b : Char) (rest : List Char)
    (h : Separates depth text b rest) (r : Redirection) (line : List Char)
    (hline : IsInserted text b rest r line) :
    tokenizeBatch line depth = tokenizeBatch (text ++ b :: rest) depth ∧
      parseChocoTokens (tokenizeBatch line depth).1 true =
        parseChocoTokens (tokenizeBatch (text ++ b :: rest) depth).1 true := by
  have hsame := tokenizeBatch_inserted h hline
  exact ⟨hsame, by rw [hsame]⟩

/-- The line `choco install git` with a redirection at its second blank. -/
theorem redirection_transparent_choco :
    Separates 0 "choco install".toList ' ' "git".toList ∧
      tokenizeBatch "choco install  >\"out file.log\" git".toList 0 =
        tokenizeBatch "choco install git".toList 0 := by
  have h : Separates 0 "choco install".toList ' ' "git".toList := .plain rfl ⟨rfl, rfl, rfl⟩
  exact ⟨h, (redirection_transparent 0 _ ' ' _ h (.file .output "out file.log".toList (by decide))
    "choco install  >\"out file.log\" git".toList ⟨' ', ' ', rfl, rfl, .inl rfl⟩).1⟩

end Insert

end Packmon.Chocolatey

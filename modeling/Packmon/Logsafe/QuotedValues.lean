import Packmon.Library.EscapedQuotes
import Packmon.Library.JsonStrings

/-!
# The end of a quoted value

A log message may hold JSON that was embedded in JSON strings, so the quotes of a value stand behind
backslashes of the depth of the embedding.  Two scans find the end of such a value from the number of
backslashes before each quote: `scanQuotedValue` by the remainder of that number, and
`scanEscapedQuotedValue` by halving it.  Both find the closing quote of the value at every depth
(`scanQuotedValue_of_embeds`).
-/

namespace Packmon.Logsafe

open EscapedQuotes

def backslash : UInt8 := 92

/-! ## The scans -/

/-- What the quote behind a number of backslashes is to the string that is scanned. -/
inductive QuoteRole where
  | content
  | closing
  | outside
  deriving DecidableEq

/-- The bytes from position `i` on, behind `run` backslashes, up to the end of the string. -/
def scanQuotes (role : ℕ → QuoteRole) (q : UInt8) (limit : ℕ) : (run i : ℕ) → List UInt8 → ℕ
  | _, _, [] => limit
  | run, i, c :: rest =>
    if c = backslash then scanQuotes role q limit (run + 1) (i + 1) rest
    else if c = q then
      match role run with
      | .outside => i - run
      | .closing => i + 1
      | .content => scanQuotes role q limit 0 (i + 1) rest
    else scanQuotes role q limit 0 (i + 1) rest

/-- The role of a quote behind `run` backslashes when the opening quote stands behind `n`. -/
def runRole (n run : ℕ) : QuoteRole :=
  if run < n then .outside else if (run - n) % (2 * (n + 1)) = 0 then .closing else .content

def scanQuotedValue (msg : List UInt8) (i : ℕ) (q : UInt8) (n limit : ℕ) : ℕ :=
  scanQuotes (runRole n) q limit 0 i ((msg.take limit).drop i)

/-- The level of embedding of a quote behind `n` backslashes. -/
def escapeLevel (n : ℕ) : ℕ := if n % 2 = 1 then escapeLevel ((n - 1) / 2) + 1 else 0
termination_by n
decreasing_by omega

def levelRole (n run : ℕ) : QuoteRole :=
  if escapeLevel run < escapeLevel n then .outside
  else if escapeLevel run = escapeLevel n then .closing
  else .content

def scanEscapedQuotedValue (msg : List UInt8) (i : ℕ) (q : UInt8) (n : ℕ) : ℕ :=
  scanQuotes (levelRole n) q msg.length 0 i (msg.drop i)

/-! ## Where a scan ends -/

section

variable {role : ℕ → QuoteRole} {q : UInt8} {limit run i : ℕ} {middle : List UInt8}

/-- A scan ends behind the first quote that closes when all before it are content. -/
lemma scanQuotes_append_quote (hq : q ≠ backslash)
    (hcontent : ∀ m ∈ quoteRuns backslash q run middle, role m = .content)
    (hclosing : role (lastRun backslash run middle) = .closing) (after : List UInt8) :
    scanQuotes role q limit run i (middle ++ q :: after) = i + middle.length + 1 := by
  induction middle generalizing run i with
  | nil =>
    rw [lastRun] at hclosing
    rw [List.nil_append, scanQuotes, if_neg hq, if_pos rfl, hclosing]
    rfl
  | cons c middle ih =>
    have hlength : i + (c :: middle).length + 1 = i + 1 + middle.length + 1 := by
      rw [List.length_cons]
      omega
    rw [quoteRuns] at hcontent
    rw [lastRun] at hclosing
    rw [List.cons_append, scanQuotes, hlength]
    split_ifs at hcontent hclosing ⊢
    · exact ih hcontent hclosing
    · obtain ⟨hrun, hcontent⟩ := List.forall_mem_cons.mp hcontent
      rw [hrun]
      exact ih hcontent hclosing
    · exact ih hcontent hclosing

end

/-! ## The roles of quotes at a depth -/

lemma two_pow_sub_one_add_one (k : ℕ) : 2 ^ k - 1 + 1 = 2 ^ k := Nat.sub_add_cancel (Nat.one_le_two_pow)

/-- An odd number of backslashes before the text is embedded: a quote of its content. -/
lemma runRole_nestedRun (k m : ℕ) :
    runRole (2 ^ k - 1) (nestedRun k m) = if m % 2 = 0 then .closing else .content := by
  have hsub : nestedRun k m - (2 ^ k - 1) = 2 ^ k * m := Nat.add_sub_cancel _ _
  have hlt : ¬ nestedRun k m < 2 ^ k - 1 := not_lt.mpr (Nat.le_add_left _ _)
  have hmod : 2 ^ k * m % (2 * 2 ^ k) = 2 ^ k * (m % 2) := by
    rw [Nat.mul_comm 2, Nat.mul_mod_mul_left]
  rw [runRole, if_neg hlt, hsub, two_pow_sub_one_add_one, hmod]
  simp

lemma escapeLevel_even {m : ℕ} (h : m % 2 = 0) : escapeLevel m = 0 := by
  rw [escapeLevel, if_neg (by omega)]

lemma escapeLevel_odd (m : ℕ) : escapeLevel (2 * m + 1) = escapeLevel m + 1 := by
  rw [escapeLevel, if_pos (by omega), show (2 * m + 1 - 1) / 2 = m by omega]

lemma escapeLevel_nestedRun (k m : ℕ) : escapeLevel (nestedRun k m) = escapeLevel m + k := by
  induction k with
  | zero => rw [nestedRun_zero, Nat.add_zero]
  | succ k ih => rw [nestedRun_succ, escapeLevel_odd, ih, Nat.add_assoc]

/-- Halving finds the same as the remainder. -/
lemma levelRole_nestedRun (k m : ℕ) :
    levelRole (2 ^ k - 1) (nestedRun k m) = if m % 2 = 0 then .closing else .content := by
  have hopening : escapeLevel (2 ^ k - 1) = k := by
    have hzero : nestedRun k 0 = 2 ^ k - 1 := by simp [nestedRun]
    rw [← hzero, escapeLevel_nestedRun, escapeLevel_even rfl, Nat.zero_add]
  rw [levelRole, hopening, escapeLevel_nestedRun, if_neg (by omega)]
  by_cases hm : m % 2 = 0
  · rw [escapeLevel_even hm, if_pos (Nat.zero_add k), if_pos hm]
  · obtain ⟨half, rfl⟩ : ∃ half, m = 2 * half + 1 := ⟨m / 2, by omega⟩
    rw [escapeLevel_odd, if_neg (by omega), if_neg hm]

/-! ## Embedded strings -/

section

variable {s content embedded : List UInt8} {q : UInt8} {k : ℕ}

/-- The quotes of a string's content stand behind an odd number of backslashes, its end behind an even one. -/
lemma content_runs (hq : q ≠ backslash) (h : Writes backslash q s content) :
    (∀ m ∈ quoteRuns backslash q 0 content, m % 2 = 1) ∧ lastRun backslash 0 content % 2 = 0 := by
  have hruns := @Writes.quoteRuns_eq _ backslash q _ 0 s content hq h
  have hlast := @Writes.lastRun_eq _ backslash q _ 0 s content hq h
  rw [Nat.mul_zero] at hruns hlast
  rw [hruns, hlast]
  refine ⟨?_, by omega⟩
  intro m hm
  obtain ⟨run, -, rfl⟩ := List.mem_map.mp hm
  omega

/-- A scan with the roles of the depth ends behind the string. -/
lemma scanQuotes_of_embeds (hq : q ≠ backslash) (hs : Writes backslash q s content)
    (hembeds : Embeds backslash q (q :: (content ++ [q])) k embedded) {role : ℕ → QuoteRole}
    (hrole : ∀ m, role (nestedRun k m) = if m % 2 = 0 then .closing else .content) :
    ∃ rest, embedded = List.replicate (2 ^ k - 1) backslash ++ q :: rest ∧
      ∀ (limit i : ℕ) (after : List UInt8),
        scanQuotes role q limit 0 i (rest ++ after) = i + rest.length := by
  obtain ⟨middle, rfl, hruns, hlast⟩ := hembeds.exists_middle hq
  obtain ⟨hodd, heven⟩ := content_runs hq hs
  refine ⟨middle ++ [q], rfl, ?_⟩
  intro limit i after
  have hcontent : ∀ m ∈ quoteRuns backslash q 0 middle, role m = .content := by
    intro m hm
    rw [hruns] at hm
    obtain ⟨run, hrun, rfl⟩ := List.mem_map.mp hm
    rw [hrole, if_neg (by rw [hodd run hrun]; decide)]
  have hclosing : role (lastRun backslash 0 middle) = .closing := by
    rw [hlast, hrole, if_pos heven]
  rw [List.append_assoc, List.singleton_append, scanQuotes_append_quote hq hcontent hclosing,
    List.length_append, List.length_singleton, Nat.add_assoc]

/-- Both scans find the closing quote of a string that is embedded `k` times, whatever stands before the
string and behind it: they start behind the opening quote, which has `2 ^ k - 1` backslashes before it. -/
theorem scanQuotedValue_of_embeds (hq : q ≠ backslash) (hs : Writes backslash q s content)
    (hembeds : Embeds backslash q (q :: (content ++ [q])) k embedded) (before after : List UInt8) :
    (∃ rest, embedded = List.replicate (2 ^ k - 1) backslash ++ q :: rest) ∧
      (∀ limit, (before ++ embedded).length ≤ limit → limit ≤ (before ++ embedded ++ after).length →
        scanQuotedValue (before ++ embedded ++ after) (before.length + 2 ^ k) q (2 ^ k - 1) limit =
          (before ++ embedded).length) ∧
      scanEscapedQuotedValue (before ++ embedded ++ after) (before.length + 2 ^ k) q (2 ^ k - 1) =
        (before ++ embedded).length := by
  obtain ⟨rest, hrest, hrun⟩ := scanQuotes_of_embeds hq hs hembeds (runRole_nestedRun k)
  obtain ⟨rest', hrest', hlevel⟩ := scanQuotes_of_embeds hq hs hembeds (levelRole_nestedRun k)
  obtain rfl : rest = rest' := by simpa [hrest] using hrest'
  obtain ⟨opening, hlength, hembedded⟩ :
      ∃ opening : List UInt8, opening.length = 2 ^ k ∧ embedded = opening ++ rest := by
    refine ⟨List.replicate (2 ^ k - 1) backslash ++ [q], ?_, ?_⟩
    · rw [List.length_append, List.length_replicate, List.length_singleton, two_pow_sub_one_add_one]
    · rw [hrest, List.append_assoc, List.singleton_append]
  have hend : before.length + 2 ^ k + rest.length = (before ++ embedded).length := by
    rw [hembedded, List.length_append, List.length_append, hlength, Nat.add_assoc]
  have hdrop (behind : List UInt8) :
      (before ++ embedded ++ behind).drop (before.length + 2 ^ k) = rest ++ behind := by
    have hsplit : before ++ embedded ++ behind = (before ++ opening) ++ (rest ++ behind) := by
      rw [hembedded, List.append_assoc, List.append_assoc, List.append_assoc]
    rw [hsplit, ← hlength, ← List.length_append, List.drop_left]
  refine ⟨⟨rest, hrest⟩, ?_, ?_⟩
  · intro limit hlow hhigh
    have htake : (before ++ embedded ++ after).take limit =
        before ++ embedded ++ after.take (limit - (before ++ embedded).length) := by
      rw [List.take_append, List.take_of_length_le hlow]
    rw [scanQuotedValue, htake, hdrop, hrun, hend]
  · rw [scanEscapedQuotedValue, hdrop, hlevel, hend]

end

/-! ## JSON -/

/-- A string of JSON, embedded in a string again and again. -/
def jsonText (text : String) : ℕ → List Char
  | 0 => JsonStrings.quote text
  | k + 1 => (jsonText text k).flatMap JsonStrings.escapeChar

/-- Only a quote and a backslash have these bytes in UTF-8. -/
lemma isPlain_utf8EncodeChar {c : Char} (hslash : c ≠ '\\') (hquote : c ≠ '"') :
    ∀ b ∈ String.utf8EncodeChar c, IsPlain backslash 34 b := by
  intro b hb
  have hval : c.val.toNat = c.toNat := rfl
  unfold String.utf8EncodeChar at hb
  simp only [hval] at hb
  by_cases hascii : c.toNat ≤ 127
  · rw [if_pos hascii] at hb
    obtain rfl := List.mem_singleton.mp hb
    have hbyte (d : Char) (hd : d.toNat ≤ 127) (hne : c ≠ d) : UInt8.ofNat c.toNat ≠ UInt8.ofNat d.toNat := by
      intro heq
      have hnat := congrArg UInt8.toNat heq
      rw [UInt8.toNat_ofNat', UInt8.toNat_ofNat', Nat.mod_eq_of_lt (by omega), Nat.mod_eq_of_lt (by omega)] at hnat
      exact hne (Char.toNat_inj.mp hnat)
    exact ⟨hbyte '\\' (by decide) hslash, hbyte '"' (by decide) hquote⟩
  · have hhigh : 128 ≤ b.toNat := by
      rw [if_neg hascii] at hb
      split_ifs at hb <;> simp only [List.mem_cons, List.not_mem_nil, or_false] at hb
      all_goals rcases hb with rfl | rfl | rfl | rfl <;> simp <;> omega
    constructor <;> rintro rfl <;> exact absurd hhigh (by decide)

/-- A character other than these is written as it stands or as an escape. -/
lemma escapeChar_of_plain {c : Char} (hslash : c ≠ '\\') (hquote : c ≠ '"') :
    JsonStrings.escapeChar c = [c] ∨
      ∃ e, JsonStrings.escapeChar c = '\\' :: e ∧ e ≠ [] ∧ ∀ d ∈ e, d ≠ '\\' ∧ d ≠ '"' := by
  have hdigit (n : ℕ) : JsonStrings.hexDigit (n % 16) ≠ '\\' ∧ JsonStrings.hexDigit (n % 16) ≠ '"' := by
    have hall : ∀ n < 16, JsonStrings.hexDigit n ≠ '\\' ∧ JsonStrings.hexDigit n ≠ '"' := by decide
    exact hall _ (Nat.mod_lt _ (by decide))
  unfold JsonStrings.escapeChar
  rw [if_neg hquote, if_neg hslash]
  split_ifs
  all_goals first
    | exact .inl rfl
    | exact .inr ⟨_, rfl, by simp, by simp [hdigit]⟩

/-- The writer of JSON texts writes in this way. -/
lemma writes_escapeChar (text : List Char) :
    Writes backslash 34 (JsonStrings.utf8Encode text)
      (JsonStrings.utf8Encode (text.flatMap JsonStrings.escapeChar)) := by
  have happend (first rest : List Char) : JsonStrings.utf8Encode (first ++ rest) =
      JsonStrings.utf8Encode first ++ JsonStrings.utf8Encode rest := List.flatMap_append
  induction text with
  | nil => exact .nil
  | cons c text ih =>
    have hcons : JsonStrings.utf8Encode (c :: text) =
        String.utf8EncodeChar c ++ JsonStrings.utf8Encode text := List.flatMap_cons
    rw [hcons, List.flatMap_cons, happend]
    by_cases hquote : c = '"'
    · subst hquote
      exact .quote ih
    · by_cases hslash : c = '\\'
      · subst hslash
        exact .backslash ih
      · obtain hsame | ⟨e, hescape, hne, he⟩ := escapeChar_of_plain hslash hquote
        · rw [hsame]
          have hsingle : JsonStrings.utf8Encode [c] = String.utf8EncodeChar c := List.flatMap_singleton ..
          rw [hsingle]
          exact .plains (isPlain_utf8EncodeChar hslash hquote) ih
        · rw [hescape]
          refine .escape String.utf8EncodeChar_ne_nil ?_ (isPlain_utf8EncodeChar hslash hquote) ?_ ih
          · intro hnil
            obtain ⟨d, hd⟩ := List.exists_mem_of_ne_nil e hne
            exact String.utf8EncodeChar_ne_nil (List.flatMap_eq_nil_iff.mp hnil d hd)
          · intro b hb
            obtain ⟨d, hd, hb⟩ := List.mem_flatMap.mp hb
            exact isPlain_utf8EncodeChar (he d hd).1 (he d hd).2 b hb

lemma embeds_jsonText (text : String) (k : ℕ) :
    Embeds backslash 34
      (34 :: (JsonStrings.utf8Encode (text.toList.flatMap JsonStrings.escapeChar) ++ [34])) k
      (JsonStrings.utf8Encode (jsonText text k)) := by
  induction k with
  | zero =>
    have hquote : JsonStrings.utf8Encode (jsonText text 0) =
        34 :: (JsonStrings.utf8Encode (text.toList.flatMap JsonStrings.escapeChar) ++ [34]) := by
      rw [jsonText, JsonStrings.quote, JsonStrings.utf8Encode, List.flatMap_cons, List.flatMap_append]
      rfl
    rw [hquote]
    exact .start
  | succ k ih => exact .step ih (writes_escapeChar _)

/-- A string with a quote and a backslash at its end, two levels deep. -/
theorem scanQuotedValue_of_embeds_json :
    scanEscapedQuotedValue (JsonStrings.utf8Encode (jsonText "a\"\\" 2) ++ [44, 34]) 4 34 3 =
      (JsonStrings.utf8Encode (jsonText "a\"\\" 2)).length :=
  (scanQuotedValue_of_embeds (by decide) (writes_escapeChar _) (embeds_jsonText "a\"\\" 2) [] [44, 34]).2.2

end Packmon.Logsafe

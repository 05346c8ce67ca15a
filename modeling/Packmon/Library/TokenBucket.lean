import Mathlib.Algebra.Order.Field.Basic
import Mathlib.Tactic.Linarith
import Mathlib.Tactic.Ring

/-!
# Token buckets

A bucket gains tokens at a fixed rate up to a bound, and a request that is let through takes one.  What is
available of a bucket (`available`) is a potential: it grows with time at the rate (`available_le_add`), a
request that is let through takes one of it (`available_take`), and it is never more than the bound.  So
the requests let through are paid for by the bound and by the time that passes.

A bucket that is forgotten is full again; that is harmless when the bucket is full at that time
(`available_eq_burst`).
-/

namespace TokenBucket

variable {K : Type} [Field K] [LinearOrder K] [IsStrictOrderedRing K]

/-- The tokens of a bucket when it was last looked at. -/
structure Bucket (K : Type) where
  tokens : K
  lastSeen : K

variable (rate burst : K)

/-- The tokens of the bucket now. -/
def Bucket.refill (now : K) (b : Bucket K) : K := min (b.tokens + (now - b.lastSeen) * rate) burst

/-- Take a token, if there is one; a bucket that is not there is full. -/
def take (now : K) : Option (Bucket K) → Bool × Bucket K
  | none => (true, ⟨burst - 1, now⟩)
  | some b =>
    if b.refill rate burst now < 1 then (false, ⟨b.refill rate burst now, now⟩)
    else (true, ⟨b.refill rate burst now - 1, now⟩)

/-- What is available of a bucket now. -/
def available (now : K) : Option (Bucket K) → K
  | none => burst
  | some b => b.refill rate burst now

/-- The bucket has no debt and was looked at in the past. -/
def Valid (now : K) (b : Option (Bucket K)) : Prop := ∀ c ∈ b, 0 ≤ c.tokens ∧ c.lastSeen ≤ now

variable {rate burst} {now now' : K} {b : Option (Bucket K)}

omit [IsStrictOrderedRing K] in
lemma available_le_burst : available rate burst now b ≤ burst := by
  cases b with
  | none => exact le_refl _
  | some c => exact min_le_right _ _

lemma available_nonneg (hrate : 0 ≤ rate) (hburst : 0 ≤ burst) (h : Valid now b) :
    0 ≤ available rate burst now b := by
  cases b with
  | none => exact hburst
  | some c =>
    obtain ⟨htokens, hseen⟩ := h c rfl
    exact le_min (add_nonneg htokens (mul_nonneg (sub_nonneg.mpr hseen) hrate)) hburst

/-- With time the rate becomes available. -/
lemma available_le_add (hrate : 0 ≤ rate) (hle : now ≤ now') :
    available rate burst now' b ≤ available rate burst now b + rate * (now' - now) := by
  have hgain : 0 ≤ rate * (now' - now) := mul_nonneg hrate (sub_nonneg.mpr hle)
  cases b with
  | none => exact le_add_of_nonneg_right hgain
  | some c =>
    have hsplit : c.tokens + (now' - c.lastSeen) * rate =
        c.tokens + (now - c.lastSeen) * rate + rate * (now' - now) := by ring
    dsimp only [available, Bucket.refill]
    rw [hsplit, ← min_add_add_right]
    exact min_le_min_left _ (le_add_of_nonneg_right hgain)

omit [IsStrictOrderedRing K] in
/-- The tokens of a bucket that was looked at just now. -/
lemma available_now {tokens : K} (hle : tokens ≤ burst) :
    available rate burst now (some ⟨tokens, now⟩) = tokens := by
  simp [available, Bucket.refill, hle]

/-- A request that is let through takes one of what is available. -/
lemma available_take :
    available rate burst now (some (take rate burst now b).2) =
      available rate burst now b - if (take rate burst now b).1 then 1 else 0 := by
  cases b with
  | none =>
    rw [take, if_pos rfl]
    exact available_now (by linarith)
  | some c =>
    have hle : c.refill rate burst now ≤ burst := min_le_right _ _
    by_cases hempty : c.refill rate burst now < 1
    · rw [take, if_pos hempty, available_now hle]
      simp [available]
    · rw [take, if_neg hempty, available_now (by linarith)]
      rfl

omit [IsStrictOrderedRing K] in
lemma lastSeen_take : (take rate burst now b).2.lastSeen = now := by
  cases b with
  | none => rfl
  | some c =>
    rw [take]
    split_ifs <;> rfl

omit [IsStrictOrderedRing K] in
/-- Where a token is available, a request is let through. -/
lemma take_of_one_le (h : 1 ≤ available rate burst now b) :
    take rate burst now b = (true, ⟨available rate burst now b - 1, now⟩) := by
  cases b with
  | none => rfl
  | some c => exact if_neg (not_lt.mpr h)

/-- A bucket keeps having no debt. -/
lemma valid_take (hrate : 0 ≤ rate) (hburst : 1 ≤ burst) (h : Valid now b) :
    Valid now (some (take rate burst now b).2) := by
  have hnonneg := available_nonneg hrate (zero_le_one.trans hburst) h
  intro c' hc'
  obtain rfl := Option.some.inj hc'
  cases b with
  | none => exact ⟨sub_nonneg.mpr hburst, le_refl _⟩
  | some c =>
    by_cases hempty : c.refill rate burst now < 1
    · rw [take, if_pos hempty]
      exact ⟨hnonneg, le_refl _⟩
    · rw [take, if_neg hempty]
      exact ⟨sub_nonneg.mpr (not_lt.mp hempty), le_refl _⟩

/-- A bucket that was not looked at for long is full. -/
lemma available_eq_burst {c : Bucket K} (h : 0 ≤ c.tokens)
    (hage : burst ≤ rate * (now - c.lastSeen)) : available rate burst now (some c) = burst := by
  refine min_eq_right ?_
  calc burst ≤ rate * (now - c.lastSeen) := hage
    _ = (now - c.lastSeen) * rate := mul_comm _ _
    _ ≤ c.tokens + (now - c.lastSeen) * rate := le_add_of_nonneg_left h

end TokenBucket

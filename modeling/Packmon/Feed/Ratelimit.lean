import Mathlib.Algebra.Order.Floor.Ring
import Mathlib.Data.Rat.Floor
import Mathlib.Tactic.Linarith
import Mathlib.Tactic.LinearCombination
import Mathlib.Tactic.Ring

/-!
# The token bucket of the feed workers

A bucket holds whole tokens and a fraction of the next one.  It is refilled when a token is asked for,
with what the time since the last refill is worth at the limit that is in force then.  `SetLimit` does
not refill: the time that passed before it is later credited at the new limit
(`Reachable.credited_iff`).

Fractions are exact rationals, and clock readings are nanoseconds.
-/

namespace Packmon.Feed.Ratelimit

/-- A token bucket with a limit of calls per hour. -/
structure Bucket where
  tokens : ℤ
  limit : ℤ
  lastRefill : ℤ
  fractionalTokens : ℚ
  deriving DecidableEq

/-- What some time is worth at a limit of calls per hour. -/
def worth (elapsed limit : ℤ) : ℚ := (elapsed : ℚ) / 10 ^ 9 * limit / 3600

/-- A limit that is not positive is replaced by the default, and that by one. -/
def new (callsPerHour defaultCallsPerHour now : ℤ) : Bucket :=
  let callsPerHour := if callsPerHour ≤ 0 then defaultCallsPerHour else callsPerHour
  let callsPerHour := if callsPerHour ≤ 0 then 1 else callsPerHour
  { tokens := callsPerHour, limit := callsPerHour, lastRefill := now, fractionalTokens := 0 }

namespace Bucket

/-- The conversion of a number to an integer drops its fraction. -/
def toInt (q : ℚ) : ℤ := if 0 ≤ q then ⌊q⌋ else ⌈q⌉

def refill (b : Bucket) (now : ℤ) : Bucket :=
  let elapsed := now - b.lastRefill
  if elapsed ≤ 0 then b
  else
    let fractional := b.fractionalTokens + worth elapsed b.limit
    let whole := toInt fractional
    let b := { b with fractionalTokens := fractional - whole, lastRefill := now }
    if whole ≤ 0 then b
    else { b with tokens := if b.tokens + whole > b.limit then b.limit else b.tokens + whole }

/-- Whether a token was taken, and the bucket afterwards. -/
def acquire (b : Bucket) (now : ℤ) : Bool × Bucket :=
  let b := b.refill now
  if b.tokens ≤ 0 then (false, b) else (true, { b with tokens := b.tokens - 1 })

def giveBack (b : Bucket) : Bucket :=
  if b.tokens < b.limit then { b with tokens := b.tokens + 1 } else b

def setLimit (b : Bucket) (callsPerHour : ℤ) : Bucket :=
  if callsPerHour ≤ 0 then b
  else
    let wasFull := b.tokens ≥ b.limit
    { b with
      limit := callsPerHour
      tokens := if wasFull then callsPerHour else if b.tokens > callsPerHour then callsPerHour
        else b.tokens }

def drain (b : Bucket) (now : ℤ) : Bucket :=
  { b with tokens := 0, fractionalTokens := 0, lastRefill := now }

end Bucket

/-- The calls of a bucket. -/
inductive Op where
  | acquire
  | giveBack
  | setLimit (callsPerHour : ℤ)
  | drain
  deriving DecidableEq

/-- The bucket after a call. -/
def Op.apply (now : ℤ) : Op → Bucket → Bucket
  | .acquire, b => (b.acquire now).2
  | .giveBack, b => b.giveBack
  | .setLimit callsPerHour, b => b.setLimit callsPerHour
  | .drain, b => b.drain now

/-- The buckets of any sequence of calls, and the clock at the last of them; the clock does not go
back. -/
inductive Reachable : Bucket → ℤ → Prop
  | new (callsPerHour defaultCallsPerHour now : ℤ) :
      Reachable (new callsPerHour defaultCallsPerHour now) now
  | call {b : Bucket} {before now : ℤ} (op : Op) (h : Reachable b before) (hclock : before ≤ now) :
      Reachable (op.apply now b) now

/-! ## The tokens stay within the limit -/

/-- What every bucket keeps. -/
structure Bucket.Inv (b : Bucket) (now : ℤ) : Prop where
  limit_pos : 0 < b.limit
  tokens_nonneg : 0 ≤ b.tokens
  tokens_le : b.tokens ≤ b.limit
  fractional_nonneg : 0 ≤ b.fractionalTokens
  fractional_lt : b.fractionalTokens < 1
  lastRefill_le : b.lastRefill ≤ now

lemma worth_nonneg {elapsed limit : ℤ} (helapsed : 0 ≤ elapsed) (hlimit : 0 ≤ limit) :
    0 ≤ worth elapsed limit := by
  have h1 : (0 : ℚ) ≤ elapsed := Int.cast_nonneg helapsed
  have h2 : (0 : ℚ) ≤ limit := Int.cast_nonneg hlimit
  unfold worth
  positivity

namespace Bucket

variable {b : Bucket} {before now : ℤ}

lemma Inv.later (h : b.Inv before) (hclock : before ≤ now) : b.Inv now :=
  { h with lastRefill_le := h.lastRefill_le.trans hclock }

/-- A refill of a bucket that was refilled before. -/
lemma refill_of_lt (h : b.Inv now) (hlt : b.lastRefill < now) :
    let fractional := b.fractionalTokens + worth (now - b.lastRefill) b.limit
    b.refill now =
      { b with
        tokens := min (b.tokens + ⌊fractional⌋) b.limit
        fractionalTokens := fractional - ⌊fractional⌋
        lastRefill := now } := by
  intro fractional
  have hnonneg : 0 ≤ fractional :=
    add_nonneg h.fractional_nonneg (worth_nonneg (by omega) h.limit_pos.le)
  have hwhole : toInt fractional = ⌊fractional⌋ := if_pos hnonneg
  have hfloor : 0 ≤ ⌊fractional⌋ := Int.floor_nonneg.mpr hnonneg
  have htokens := h.tokens_le
  unfold refill
  dsimp only
  rw [if_neg (by omega)]
  change (if toInt fractional ≤ 0 then _ else _) = _
  rw [hwhole]
  by_cases hzero : ⌊fractional⌋ ≤ 0
  · have hfloor' : ⌊fractional⌋ = 0 := le_antisymm hzero hfloor
    rw [if_pos hzero]
    simp only [hfloor', add_zero, min_eq_left htokens]
    rfl
  · rw [if_neg hzero]
    congr 1
    split_ifs <;> omega

lemma Inv.refill (h : b.Inv now) : (b.refill now).Inv now := by
  by_cases hlt : b.lastRefill < now
  · have hnonneg : 0 ≤ b.fractionalTokens + worth (now - b.lastRefill) b.limit :=
      add_nonneg h.fractional_nonneg (worth_nonneg (by omega) h.limit_pos.le)
    have hfloor := Int.floor_nonneg.mpr hnonneg
    have htokens := h.tokens_nonneg
    have hlimit := h.limit_pos
    rw [refill_of_lt h hlt]
    refine ⟨hlimit, ?_, min_le_right _ _, ?_, ?_, le_refl _⟩
    · exact le_min (by omega) hlimit.le
    · exact sub_nonneg.mpr (Int.floor_le _)
    · have := Int.lt_floor_add_one (b.fractionalTokens + worth (now - b.lastRefill) b.limit)
      dsimp only
      linarith
  · have hsame : b.refill now = b := if_pos (by omega)
    rw [hsame]
    exact h

lemma Inv.acquire (h : b.Inv now) : (b.acquire now).2.Inv now := by
  have hrefill := h.refill
  unfold Bucket.acquire
  dsimp only
  split_ifs with hempty
  · exact hrefill
  · have hpos : 0 < (b.refill now).tokens := not_le.mp hempty
    have hle := hrefill.tokens_le
    refine { hrefill with tokens_nonneg := ?_, tokens_le := ?_ }
    · dsimp only
      omega
    · dsimp only
      omega

lemma Inv.giveBack (h : b.Inv now) : b.giveBack.Inv now := by
  have hnonneg := h.tokens_nonneg
  unfold Bucket.giveBack
  split_ifs with hlt
  · refine { h with tokens_nonneg := ?_, tokens_le := ?_ }
    · dsimp only
      omega
    · dsimp only
      omega
  · exact h

lemma Inv.setLimit (h : b.Inv now) (callsPerHour : ℤ) : (b.setLimit callsPerHour).Inv now := by
  have hnonneg := h.tokens_nonneg
  unfold Bucket.setLimit
  by_cases hrefused : callsPerHour ≤ 0
  · rw [if_pos hrefused]
    exact h
  · rw [if_neg hrefused]
    refine ⟨not_le.mp hrefused, ?_, ?_, h.fractional_nonneg, h.fractional_lt, h.lastRefill_le⟩
    · dsimp only
      split_ifs <;> omega
    · dsimp only
      split_ifs <;> omega

lemma Inv.drain (h : b.Inv now) : (b.drain now).Inv now :=
  ⟨h.limit_pos, le_refl _, h.limit_pos.le, le_refl _, zero_lt_one, le_refl _⟩

end Bucket

/-- One call keeps the bucket in order. -/
lemma Op.inv_apply {b : Bucket} {now : ℤ} (op : Op) (h : b.Inv now) : (op.apply now b).Inv now := by
  cases op with
  | acquire => exact h.acquire
  | giveBack => exact h.giveBack
  | setLimit callsPerHour => exact h.setLimit callsPerHour
  | drain => exact h.drain

/-- A new bucket is full. -/
lemma inv_new (callsPerHour defaultCallsPerHour now : ℤ) :
    (new callsPerHour defaultCallsPerHour now).Inv now := by
  have hpos : 0 < (new callsPerHour defaultCallsPerHour now).limit := by
    unfold new
    dsimp only
    split_ifs <;> omega
  exact ⟨hpos, hpos.le, le_refl _, le_refl _, zero_lt_one, le_refl _⟩

lemma Reachable.inv {b : Bucket} {now : ℤ} (h : Reachable b now) : b.Inv now := by
  induction h with
  | new callsPerHour defaultCallsPerHour now => exact inv_new _ _ _
  | call op _ hclock ih => exact op.inv_apply (ih.later hclock)

/-! ## What a change of the limit credits -/

namespace Bucket

/-- The fractions earned by now, whole tokens among them, that were not yet added. -/
def earned (b : Bucket) (now : ℤ) : ℚ := b.fractionalTokens + worth (now - b.lastRefill) b.limit

/-- The bucket is full, with the tokens already earned counted. -/
def IsFull (b : Bucket) (now : ℤ) : Prop := b.limit ≤ b.tokens + ⌊b.earned now⌋

instance (b : Bucket) (now : ℤ) : Decidable (b.IsFull now) :=
  inferInstanceAs (Decidable (b.limit ≤ b.tokens + ⌊b.earned now⌋))

/-- After a change of the limit the bucket has earned, at any later time, what it had earned before
the change at the old limit and what the time since is worth at the new one. -/
def CreditsOldLimit (b : Bucket) (callsPerHour now : ℤ) : Prop :=
  ∀ later, now ≤ later → (b.setLimit callsPerHour).earned later =
    b.earned now + worth (later - now) callsPerHour

lemma earned_nonneg {b : Bucket} {now : ℤ} (h : b.Inv now) : 0 ≤ b.earned now :=
  add_nonneg h.fractional_nonneg
    (worth_nonneg (sub_nonneg.mpr h.lastRefill_le) h.limit_pos.le)

/-- A change of the limit leaves the tokens of a bucket that is not full, up to the new limit. -/
lemma tokens_setLimit {b : Bucket} {now callsPerHour : ℤ} (h : b.Inv now) (hfull : ¬b.IsFull now)
    (hpos : 0 < callsPerHour) : (b.setLimit callsPerHour).tokens = min b.tokens callsPerHour := by
  have hfloor := Int.floor_nonneg.mpr (earned_nonneg h)
  have hnot : ¬b.tokens ≥ b.limit := by
    intro hge
    apply hfull
    unfold IsFull
    omega
  unfold setLimit
  rw [if_neg (not_le.mpr hpos)]
  dsimp only
  rw [if_neg hnot]
  split_ifs <;> omega

/-- The time before a change of the limit is credited at the old limit only if there is none, or the
limit does not change. -/
lemma creditsOldLimit_iff {b : Bucket} {callsPerHour now : ℤ} (hpos : 0 < callsPerHour) :
    b.CreditsOldLimit callsPerHour now ↔ callsPerHour = b.limit ∨ b.lastRefill = now := by
  have hset : b.setLimit callsPerHour = { b with
      limit := callsPerHour
      tokens := (b.setLimit callsPerHour).tokens } := by
    unfold setLimit
    rw [if_neg (not_le.mpr hpos)]
  have hearned (later : ℤ) : (b.setLimit callsPerHour).earned later =
      b.fractionalTokens + worth (later - b.lastRefill) callsPerHour := by
    rw [hset]
    rfl
  constructor
  · intro h
    have hnow := h now (le_refl now)
    rw [hearned] at hnow
    unfold earned worth at hnow
    have hproduct : ((now : ℚ) - b.lastRefill) * (callsPerHour - b.limit) = 0 := by
      push_cast at hnow
      linear_combination (3600 * 10 ^ 9 : ℚ) * hnow
    rcases mul_eq_zero.mp hproduct with hzero | hzero
    · right
      exact_mod_cast (sub_eq_zero.mp hzero).symm
    · left
      exact_mod_cast sub_eq_zero.mp hzero
  · rintro h later -
    rw [hearned]
    unfold earned worth
    push_cast
    rcases h with rfl | hlast
    · ring
    · rw [hlast]
      ring

end Bucket

/-- In every sequence of calls with a clock that does not go back there are between zero and the
limit of tokens; and when the limit of a bucket that is not full is changed, the tokens stay, up to
the new limit, but the time that passed before is credited at the old limit only if the bucket was
refilled at that very time, or the limit does not change. -/
theorem Reachable.credited_iff {b : Bucket} {before : ℤ} (h : Reachable b before) :
    (0 ≤ b.tokens ∧ b.tokens ≤ b.limit) ∧
      ∀ now callsPerHour, before ≤ now → 0 < callsPerHour → ¬b.IsFull now →
        (b.setLimit callsPerHour).tokens = min b.tokens callsPerHour ∧
        (b.CreditsOldLimit callsPerHour now ↔ callsPerHour = b.limit ∨ b.lastRefill = now) := by
  refine ⟨⟨h.inv.tokens_nonneg, h.inv.tokens_le⟩, ?_⟩
  intro now callsPerHour hclock hpos hfull
  exact ⟨Bucket.tokens_setLimit (h.inv.later hclock) hfull hpos, Bucket.creditsOldLimit_iff hpos⟩

/-- A bucket of one call per hour, drained at time zero. -/
def drained : Bucket := (new 1 1 0).drain 0

lemma drained_reachable : Reachable drained 0 := .call .drain (.new 1 1 0) (le_refl 0)

/-- Half an hour is worth half a token at one call per hour. -/
lemma earned_drained : drained.earned (1800 * 10 ^ 9) = 1 / 2 := by
  norm_num [drained, new, Bucket.drain, Bucket.earned, worth]

lemma drained_not_isFull : ¬drained.IsFull (1800 * 10 ^ 9) := by
  unfold Bucket.IsFull
  rw [earned_drained]
  norm_num [drained, new, Bucket.drain]

/-- Half an hour later it is not full, and a new limit of two calls per hour is credited for that
half hour. -/
theorem Reachable.credited_iff_drained :
    ¬drained.IsFull (1800 * 10 ^ 9) ∧
      (drained.setLimit 2).tokens = min drained.tokens 2 ∧
      (drained.CreditsOldLimit 2 (1800 * 10 ^ 9) ↔
        2 = drained.limit ∨ drained.lastRefill = 1800 * 10 ^ 9) :=
  ⟨drained_not_isFull, (Reachable.credited_iff drained_reachable).2 _ 2 (by decide) (by decide)
    drained_not_isFull⟩

/-- With the limit raised to 3600 calls per hour, half an hour at one call per hour is credited as
1800 tokens, and calls go through at once. -/
theorem drained_not_creditsOldLimit :
    ¬drained.IsFull (1800 * 10 ^ 9) ∧ drained.earned (1800 * 10 ^ 9) = 1 / 2 ∧
      ¬drained.CreditsOldLimit 3600 (1800 * 10 ^ 9) ∧
      (drained.acquire (1800 * 10 ^ 9)).1 = false ∧
      ((drained.setLimit 3600).acquire (1800 * 10 ^ 9)).1 = true ∧
      ((drained.setLimit 3600).acquire (1800 * 10 ^ 9)).2.tokens = 1799 := by
  have hafter : (drained.setLimit 3600).refill (1800 * 10 ^ 9) =
      { tokens := 1800, limit := 3600, lastRefill := 1800 * 10 ^ 9, fractionalTokens := 0 } := by
    norm_num [drained, new, Bucket.drain, Bucket.setLimit, Bucket.refill, Bucket.toInt, worth]
  have hbefore : (drained.refill (1800 * 10 ^ 9)).tokens = 0 := by
    norm_num [drained, new, Bucket.drain, Bucket.refill, Bucket.toInt, worth]
  refine ⟨drained_not_isFull, earned_drained, ?_, ?_, ?_, ?_⟩
  · rw [Bucket.creditsOldLimit_iff (by decide)]
    decide
  · unfold Bucket.acquire
    dsimp only
    rw [if_pos hbefore.le]
  · unfold Bucket.acquire
    rw [hafter]
    rfl
  · unfold Bucket.acquire
    rw [hafter]
    rfl

end Packmon.Feed.Ratelimit

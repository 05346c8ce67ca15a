import Packmon.Library.JsonStrings
import Packmon.Library.TokenBucket
import Mathlib.Data.Rat.Cast.Order
import Mathlib.Logic.Function.Basic

/-!
# The rate limiter

One token bucket for each key, in shards by a hash of the key (`RateLimiter.allow`), and a cleanup that
drops the buckets that were not looked at for ten minutes (`RateLimiter.cleanupStaleBuckets`).  Tokens
are rationals here, and the clock counts nanoseconds.

A key that is dropped starts again with a full bucket.  The bound on the requests of a key in a window
(`allowed_le_iff`) therefore needs that ten minutes fill a bucket.
-/

namespace Packmon.Middleware

open TokenBucket (Bucket available)

/-! ## The limiter -/

/-- A reading of the clock in seconds. -/
def seconds (nanoseconds : ℕ) : ℚ := nanoseconds / 1000000000

def rateLimiterShardCount : ℕ := 64

/-- A limiter; a source, if there is one, gives the requests a minute and the burst. -/
structure RateLimiter where
  rate : ℚ
  burst : ℤ
  source : Option (ℤ × ℤ) := none
  shards : Fin rateLimiterShardCount → String → Option (Bucket ℚ) := fun _ _ => none

def currentLimits (rl : RateLimiter) : ℚ × ℤ :=
  match rl.source with
  | none => (rl.rate, rl.burst)
  | some (perMinute, burst) =>
    if 0 < perMinute ∧ 0 < burst then (perMinute / 60, burst) else (rl.rate, rl.burst)

def shardIndex (ip : String) : Fin rateLimiterShardCount :=
  let hash : UInt64 := (JsonStrings.utf8Encode ip.toList).foldl
    (fun hash byte => (hash ^^^ byte.toUInt64) * 1099511628211) 14695981039346656037
  ⟨hash.toNat % 64, Nat.mod_lt _ (by decide)⟩

namespace RateLimiter

variable (rl : RateLimiter)

def bucket (ip : String) : Option (Bucket ℚ) := rl.shards (shardIndex ip) ip

/-- The limiter with another bucket for a key. -/
def setBucket (ip : String) (b : Option (Bucket ℚ)) : RateLimiter :=
  { rl with
    shards := Function.update rl.shards (shardIndex ip)
      (Function.update (rl.shards (shardIndex ip)) ip b) }

def allow (now : ℕ) (ip : String) : Bool × RateLimiter :=
  let limits := currentLimits rl
  let taken := TokenBucket.take limits.1 limits.2 (seconds now) (rl.bucket ip)
  (taken.1, rl.setBucket ip (some taken.2))

/-- A bucket that was last looked at more than ten minutes ago. -/
def isStale (now : ℕ) (b : Bucket ℚ) : Bool := b.lastSeen < seconds now - 600

def cleanupStaleBuckets (now : ℕ) : RateLimiter :=
  { rl with shards := fun i ip => (rl.shards i ip).filter fun b => !isStale now b }

end RateLimiter

/-! ## Runs -/

inductive LimiterEvent where
  | allow (now : ℕ) (ip : String)
  | cleanup (now : ℕ)

def LimiterEvent.time : LimiterEvent → ℕ
  | allow now _ => now
  | cleanup now => now

/-- One event, with the answer to a request. -/
def LimiterEvent.step (rl : RateLimiter) : LimiterEvent → Bool × RateLimiter
  | allow now ip => rl.allow now ip
  | cleanup now => (false, rl.cleanupStaleBuckets now)

/-- The event is a request of the key in the window. -/
def LimiterEvent.isIn (key : String) (first last : ℕ) : LimiterEvent → Bool
  | allow now ip => ip = key && first ≤ now && now ≤ last
  | cleanup _ => false

/-- The requests of the key in the window that are let through. -/
def allowedIn (key : String) (first last : ℕ) : RateLimiter → List LimiterEvent → ℕ
  | _, [] => 0
  | rl, event :: events =>
    (if event.isIn key first last && (event.step rl).1 then 1 else 0) +
      allowedIn key first last (event.step rl).2 events

/-! ## The bound -/

section Buckets

variable (rl : RateLimiter) (ip : String)

@[simp] lemma RateLimiter.bucket_setBucket_self (b : Option (Bucket ℚ)) :
    (rl.setBucket ip b).bucket ip = b := by
  simp [bucket, setBucket]

lemma RateLimiter.bucket_setBucket_of_ne {key : String} (h : key ≠ ip) (b : Option (Bucket ℚ)) :
    (rl.setBucket ip b).bucket key = rl.bucket key := by
  simp only [bucket, setBucket]
  by_cases hshard : shardIndex key = shardIndex ip
  · rw [hshard, Function.update_self, Function.update_of_ne h]
  · rw [Function.update_of_ne hshard]

lemma RateLimiter.bucket_cleanup (now : ℕ) :
    (rl.cleanupStaleBuckets now).bucket ip = (rl.bucket ip).filter fun b => !isStale now b := rfl

/-- The limits do not change. -/
lemma currentLimits_step (event : LimiterEvent) :
    currentLimits (event.step rl).2 = currentLimits rl := by
  cases event <;> rfl

end Buckets

lemma seconds_le {m n : ℕ} (h : m ≤ n) : seconds m ≤ seconds n := by
  unfold seconds
  gcongr

/-- The limits, and buckets without debt that were looked at in the past. -/
structure Within (r : ℚ) (B : ℤ) (rl : RateLimiter) (now : ℕ) : Prop where
  limits : currentLimits rl = (r, B)
  buckets : ∀ key, ∀ b ∈ rl.bucket key, 0 ≤ b.tokens ∧ ∃ n ≤ now, b.lastSeen = seconds n

section Bound

variable {r : ℚ} {B : ℤ} {rl : RateLimiter} {now : ℕ} {key : String} {first last : ℕ}

lemma Within.later {now' : ℕ} (h : Within r B rl now) (hle : now ≤ now') : Within r B rl now' := by
  refine ⟨h.limits, fun key b hb => ⟨(h.buckets key b hb).1, ?_⟩⟩
  obtain ⟨n, hn, hseen⟩ := (h.buckets key b hb).2
  exact ⟨n, hn.trans hle, hseen⟩

lemma Within.valid (h : Within r B rl now) (key : String) :
    TokenBucket.Valid (seconds now) (rl.bucket key) := by
  intro b hb
  obtain ⟨htokens, n, hn, hseen⟩ := h.buckets key b hb
  exact ⟨htokens, hseen ▸ seconds_le hn⟩

/-- A request takes from the bucket of its key. -/
lemma Within.allow_eq (h : Within r B rl now) (ip : String) :
    rl.allow now ip = ((TokenBucket.take r B (seconds now) (rl.bucket ip)).1,
      rl.setBucket ip (some (TokenBucket.take r B (seconds now) (rl.bucket ip)).2)) := by
  rw [RateLimiter.allow, h.limits]

lemma Within.allow (hr : 0 < r) (hB : 1 ≤ (B : ℚ)) (h : Within r B rl now) (ip : String) :
    Within r B (rl.allow now ip).2 now := by
  refine ⟨h.limits, fun key b hb => ?_⟩
  rw [h.allow_eq] at hb
  by_cases hkey : key = ip
  · subst hkey
    rw [rl.bucket_setBucket_self] at hb
    obtain rfl := Option.some.inj hb
    exact ⟨(TokenBucket.valid_take hr.le hB (h.valid key) _ rfl).1, now, le_refl _,
      TokenBucket.lastSeen_take⟩
  · rw [rl.bucket_setBucket_of_ne ip hkey] at hb
    exact h.buckets key b hb

lemma Within.cleanup (h : Within r B rl now) : Within r B (rl.cleanupStaleBuckets now) now := by
  refine ⟨h.limits, fun key b hb => ?_⟩
  rw [rl.bucket_cleanup, Option.mem_def, Option.filter_eq_some_iff] at hb
  exact h.buckets key b hb.1

/-- An event keeps the buckets without debt. -/
lemma Within.step (hr : 0 < r) (hB : 1 ≤ (B : ℚ)) {event : LimiterEvent}
    (h : Within r B rl event.time) : Within r B (event.step rl).2 event.time := by
  cases event with
  | allow now ip => exact Within.allow hr hB h ip
  | cleanup now => exact Within.cleanup h

/-- A bucket that is dropped is full, if ten minutes fill it. -/
lemma available_of_isStale (hr : 0 < r) (hfull : (B : ℚ) ≤ r * seconds (600000000000 + 1))
    (h : Within r B rl now) {b : Bucket ℚ} (hb : rl.bucket key = some b)
    (hstale : RateLimiter.isStale now b = true) :
    available r B (seconds now) (rl.bucket key) = B := by
  obtain ⟨htokens, n, -, hseen⟩ := h.buckets key b hb
  rw [hb]
  apply TokenBucket.available_eq_burst htokens
  -- a nanosecond more than ten minutes
  have hage : n + (600000000000 + 1) ≤ now := by
    simp only [RateLimiter.isStale, hseen, seconds, decide_eq_true_eq] at hstale
    rw [lt_sub_iff_add_lt, div_add' _ _ _ (by norm_num), div_lt_div_iff_of_pos_right (by norm_num)] at hstale
    have hlt : n + 600000000000 < now := by exact_mod_cast (by linarith : (n : ℚ) + 600000000000 < now)
    omega
  have hseconds : seconds (600000000000 + 1) ≤ seconds now - seconds n := by
    have hle := seconds_le hage
    unfold seconds at hle ⊢
    push_cast at hle ⊢
    linarith
  rw [hseen]
  exact hfull.trans (mul_le_mul_of_nonneg_left hseconds hr.le)

/-- An event takes from what is available of a key what it lets through of it. -/
lemma available_step (hr : 0 < r) (hfull : (B : ℚ) ≤ r * seconds (600000000000 + 1))
    {event : LimiterEvent} (h : Within r B rl event.time) :
    available r B (seconds event.time) ((event.step rl).2.bucket key) +
        (if event.isIn key first last && (event.step rl).1 then 1 else 0) ≤
      available r B (seconds event.time) (rl.bucket key) := by
  cases event with
  | allow now ip =>
    have hstep : LimiterEvent.step rl (.allow now ip) = _ := Within.allow_eq h ip
    rw [hstep]
    by_cases hkey : key = ip
    · subst hkey
      rw [rl.bucket_setBucket_self, TokenBucket.available_take]
      cases (TokenBucket.take r B (seconds (LimiterEvent.allow now key).time) (rl.bucket key)).1 with
      | false => simp
      | true =>
        rw [Bool.and_true, if_pos rfl]
        have hle : (if LimiterEvent.isIn key first last (.allow now key) then (1 : ℚ) else 0) ≤ 1 := by
          split_ifs <;> norm_num
        linarith
    · rw [rl.bucket_setBucket_of_ne ip hkey]
      simp [LimiterEvent.isIn, Ne.symm hkey]
  | cleanup now =>
    have hstep : LimiterEvent.step rl (.cleanup now) = (false, rl.cleanupStaleBuckets now) := rfl
    rw [hstep, Bool.and_false, if_neg Bool.false_ne_true, add_zero, rl.bucket_cleanup]
    cases hb : rl.bucket key with
    | none => exact le_refl _
    | some b =>
      by_cases hstale : RateLimiter.isStale now b = true
      · rw [← hb, available_of_isStale hr hfull h hb hstale]
        exact TokenBucket.available_le_burst
      · rw [Option.filter_some, (Bool.not_eq_true _).mp hstale]
        exact le_refl _

/-- After the window nothing of it is let through. -/
lemma allowedIn_eq_zero {events : List LimiterEvent} (h : ∀ event ∈ events, last < event.time) :
    allowedIn key first last rl events = 0 := by
  induction events generalizing rl with
  | nil => rfl
  | cons event events ih =>
    have hout : event.isIn key first last = false := by
      have hlast := h event List.mem_cons_self
      cases event with
      | allow now ip =>
        simp only [LimiterEvent.time] at hlast
        simp [LimiterEvent.isIn, hlast]
      | cleanup now => rfl
    rw [allowedIn, hout, ih fun e he => h e (List.mem_cons_of_mem _ he)]
    rfl

/-- Inside the window, what is let through is paid for by what is available and by the time left. -/
lemma allowedIn_le_available (hr : 0 < r) (hB : 1 ≤ (B : ℚ))
    (hfull : (B : ℚ) ≤ r * seconds (600000000000 + 1)) {events : List LimiterEvent}
    (hsorted : events.Pairwise fun e e' => e.time ≤ e'.time) (hafter : ∀ e ∈ events, now ≤ e.time)
    (h : Within r B rl now) (hlast : now ≤ last) :
    (allowedIn key first last rl events : ℚ) ≤
      available r B (seconds now) (rl.bucket key) + r * (seconds last - seconds now) := by
  have hleft : 0 ≤ r * (seconds last - seconds now) :=
    mul_nonneg hr.le (sub_nonneg.mpr (seconds_le hlast))
  have hnonneg := TokenBucket.available_nonneg hr.le (zero_le_one.trans hB) (h.valid key)
  induction events generalizing rl now with
  | nil => simpa [allowedIn] using add_nonneg hnonneg hleft
  | cons event events ih =>
    obtain ⟨hfirst, hrest⟩ := List.pairwise_cons.mp hsorted
    have hnow := hafter event List.mem_cons_self
    by_cases hin : event.time ≤ last
    · have h' := h.later hnow
      have hstep : available r B (seconds event.time) ((event.step rl).2.bucket key) +
          (if event.isIn key first last && (event.step rl).1 then 1 else 0) ≤
            available r B (seconds event.time) (rl.bucket key) := available_step hr hfull h'
      have hgain : available r B (seconds event.time) (rl.bucket key) ≤
          available r B (seconds now) (rl.bucket key) + r * (seconds event.time - seconds now) :=
        TokenBucket.available_le_add hr.le (seconds_le hnow)
      have hwithin := Within.step hr hB h'
      have htail := ih hrest hfirst hwithin hin
        (mul_nonneg hr.le (sub_nonneg.mpr (seconds_le hin)))
        (TokenBucket.available_nonneg hr.le (zero_le_one.trans hB) (hwithin.valid key))
      rw [allowedIn, Nat.cast_add, Nat.cast_ite, Nat.cast_one, Nat.cast_zero]
      linarith
    · have hlater : ∀ e ∈ event :: events, event.time ≤ e.time :=
        List.forall_mem_cons.mpr ⟨le_refl _, hfirst⟩
      rw [allowedIn_eq_zero fun e he => (not_le.mp hin).trans_le (hlater e he), Nat.cast_zero]
      exact add_nonneg hnonneg hleft

/-- What is let through in a window is paid for by a full bucket and by the time of the window. -/
lemma allowedIn_le (hr : 0 < r) (hB : 1 ≤ (B : ℚ))
    (hfull : (B : ℚ) ≤ r * seconds (600000000000 + 1)) {events : List LimiterEvent}
    (hsorted : events.Pairwise fun e e' => e.time ≤ e'.time) (hafter : ∀ e ∈ events, now ≤ e.time)
    (h : Within r B rl now) (hwindow : first ≤ last) :
    (allowedIn key first last rl events : ℚ) ≤ B + r * (seconds last - seconds first) := by
  have hnonneg : 0 ≤ (B : ℚ) + r * (seconds last - seconds first) :=
    add_nonneg (zero_le_one.trans hB) (mul_nonneg hr.le (sub_nonneg.mpr (seconds_le hwindow)))
  induction events generalizing rl now with
  | nil => simpa [allowedIn] using hnonneg
  | cons event events ih =>
    obtain ⟨hfirst, hrest⟩ := List.pairwise_cons.mp hsorted
    have h' := h.later (hafter event List.mem_cons_self)
    by_cases hbefore : event.time < first
    · have hout : event.isIn key first last = false := by
        cases event with
        | allow now ip =>
          simp only [LimiterEvent.time] at hbefore
          simp [LimiterEvent.isIn, hbefore]
        | cleanup now => rfl
      rw [allowedIn, hout, Bool.false_and, if_neg Bool.false_ne_true, zero_add]
      exact ih hrest hfirst (Within.step hr hB h')
    · have hge := not_lt.mp hbefore
      have hlater : ∀ e ∈ event :: events, event.time ≤ e.time :=
        List.forall_mem_cons.mpr ⟨le_refl _, hfirst⟩
      by_cases hin : event.time ≤ last
      · have hpaid : (allowedIn key first last rl (event :: events) : ℚ) ≤
            available r B (seconds event.time) (rl.bucket key) +
              r * (seconds last - seconds event.time) :=
          allowedIn_le_available hr hB hfull hsorted hlater h' hin
        have hburst : available r B (seconds event.time) (rl.bucket key) ≤ (B : ℚ) :=
          TokenBucket.available_le_burst
        have htime : r * (seconds last - seconds event.time) ≤ r * (seconds last - seconds first) :=
          mul_le_mul_of_nonneg_left (sub_le_sub_left (seconds_le hge) _) hr.le
        linarith
      · rw [allowedIn_eq_zero fun e he => (not_le.mp hin).trans_le (hlater e he), Nat.cast_zero]
        exact hnonneg

/-- As many requests at one time as there are tokens are all let through. -/
lemma allowedIn_replicate (hr : 0 < r) (hB : 1 ≤ (B : ℚ)) {n : ℕ} (h : Within r B rl now)
    (hn : (n : ℚ) ≤ available r B (seconds now) (rl.bucket key)) (hfirst : first ≤ now)
    (hlast : now ≤ last) :
    ∃ rl', Within r B rl' now ∧
      ((n = 0 ∧ rl' = rl) ∨ ∃ b, rl'.bucket key = some b ∧ b.lastSeen = seconds now) ∧
      ∀ rest, allowedIn key first last rl (List.replicate n (.allow now key) ++ rest) =
        n + allowedIn key first last rl' rest := by
  induction n generalizing rl with
  | zero => exact ⟨rl, h, Or.inl ⟨rfl, rfl⟩, fun rest => by simp⟩
  | succ n ih =>
    have hone : 1 ≤ available r B (seconds now) (rl.bucket key) := by
      refine le_trans ?_ hn
      exact_mod_cast Nat.le_add_left 1 n
    have hallow : rl.allow now key = (true, rl.setBucket key
        (some ⟨available r B (seconds now) (rl.bucket key) - 1, seconds now⟩)) := by
      rw [h.allow_eq, TokenBucket.take_of_one_le hone]
    have hwithin := Within.allow hr hB h key
    rw [hallow] at hwithin
    have hleft : (n : ℚ) ≤ available r B (seconds now) ((rl.setBucket key
        (some ⟨available r B (seconds now) (rl.bucket key) - 1, seconds now⟩)).bucket key) := by
      have hburst : available r B (seconds now) (rl.bucket key) ≤ (B : ℚ) :=
        TokenBucket.available_le_burst
      rw [rl.bucket_setBucket_self, TokenBucket.available_now (by linarith)]
      push_cast at hn
      linarith
    obtain ⟨rl', hwithin', hbucket, hcount⟩ := ih hwithin hleft
    refine ⟨rl', hwithin', Or.inr ?_, fun rest => ?_⟩
    · rcases hbucket with ⟨-, rfl⟩ | hbucket
      · exact ⟨_, rl.bucket_setBucket_self key _, rfl⟩
      · exact hbucket
    · have hin : LimiterEvent.isIn key first last (.allow now key) = true := by
        simp [LimiterEvent.isIn, hfirst, hlast]
      rw [List.replicate_succ, List.cons_append, allowedIn, hin, LimiterEvent.step, hallow, hcount]
      simp
      omega

/-- A burst, a cleanup as soon as it drops the bucket, and another burst. -/
def twoBursts (key : String) (n : ℕ) : List LimiterEvent :=
  List.replicate n (.allow 0 key) ++
    .cleanup (600000000000 + 1) :: List.replicate n (.allow (600000000000 + 1) key)

lemma pairwise_twoBursts (key : String) (n : ℕ) :
    (twoBursts key n).Pairwise fun e e' => e.time ≤ e'.time := by
  have hzero : ∀ e ∈ List.replicate n (LimiterEvent.allow 0 key), e.time = 0 := by
    intro e he
    rw [List.eq_of_mem_replicate he]
    rfl
  refine List.pairwise_append.mpr ⟨List.pairwise_replicate.mpr (Or.inr (le_refl _)),
    List.pairwise_cons.mpr ⟨fun e he => ?_, List.pairwise_replicate.mpr (Or.inr (le_refl _))⟩,
    fun e he e' _ => (hzero e he).trans_le (Nat.zero_le _)⟩
  rw [List.eq_of_mem_replicate he]
  exact le_refl _

lemma allowedIn_twoBursts (hr : 0 < r) (hB : 1 ≤ (B : ℚ)) {n : ℕ} (hn : (n : ℚ) = B)
    (h : Within r B rl 0) (hnone : rl.bucket key = none) :
    allowedIn key 0 (600000000000 + 1) rl (twoBursts key n) = n + n := by
  have hfull (rl : RateLimiter) (now : ℕ) (hempty : rl.bucket key = none) :
      (n : ℚ) ≤ available r B (seconds now) (rl.bucket key) := by
    rw [hempty, hn]
    exact le_refl _
  obtain ⟨rl₁, hwithin₁, hbucket, hcount⟩ :=
    allowedIn_replicate hr hB h (hfull rl 0 hnone) (le_refl 0) (Nat.zero_le (600000000000 + 1))
  have hdropped : (rl₁.cleanupStaleBuckets (600000000000 + 1)).bucket key = none := by
    rw [rl₁.bucket_cleanup]
    rcases hbucket with ⟨-, rfl⟩ | ⟨b, hb, hseen⟩
    · rw [hnone]
      rfl
    · have hstale : RateLimiter.isStale (600000000000 + 1) b = true := by
        rw [RateLimiter.isStale, hseen]
        simp only [seconds]
        norm_num
      rw [hb, Option.filter_some, hstale]
      rfl
  have hwithin₂ := Within.cleanup (hwithin₁.later (Nat.zero_le (600000000000 + 1)))
  obtain ⟨rl₃, -, -, hcount'⟩ := allowedIn_replicate hr hB hwithin₂
    (hfull _ _ hdropped) (Nat.zero_le _) (le_refl (600000000000 + 1))
  have hlast := hcount' []
  rw [List.append_nil] at hlast
  rw [twoBursts, hcount, allowedIn, LimiterEvent.step, hlast]
  simp [allowedIn, LimiterEvent.isIn]

end Bound

/-- The limiter at the start. -/
def newRateLimiter (rate : ℚ) (burst : ℤ) (source : Option (ℤ × ℤ)) : RateLimiter :=
  { rate, burst, source }

/-- A key has at most a burst and what the rate gives in every window, exactly when ten minutes and a
nanosecond fill a bucket. -/
theorem allowed_le_iff {rate : ℚ} {burst : ℤ} {source : Option (ℤ × ℤ)} {r : ℚ} {B : ℤ}
    (hlimits : currentLimits (newRateLimiter rate burst source) = (r, B)) (hr : 0 < r) (hB : 1 ≤ B) :
    (∀ events : List LimiterEvent, events.Pairwise (fun e e' => e.time ≤ e'.time) →
      ∀ key first last, first ≤ last →
        (allowedIn key first last (newRateLimiter rate burst source) events : ℚ) ≤
          B + r * (seconds last - seconds first)) ↔
      (B : ℚ) ≤ r * seconds (600000000000 + 1) := by
  have hB' : (1 : ℚ) ≤ B := by exact_mod_cast hB
  have hstart : Within r B (newRateLimiter rate burst source) 0 := by
    refine ⟨hlimits, fun key b hb => ?_⟩
    cases hb
  constructor
  · intro h
    have hn : ((B.toNat : ℕ) : ℚ) = B := by
      exact_mod_cast Int.toNat_of_nonneg (zero_le_one.trans hB)
    have hbound := h (twoBursts "key" B.toNat) (pairwise_twoBursts _ _) "key" 0 (600000000000 + 1)
      (Nat.zero_le _)
    rw [allowedIn_twoBursts hr hB' hn hstart rfl] at hbound
    have hzero : seconds 0 = 0 := by norm_num [seconds]
    push_cast at hbound
    rw [hn, hzero] at hbound
    linarith
  · intro hfull events hsorted key first last hwindow
    exact allowedIn_le hr hB' hfull hsorted (fun _ _ => Nat.zero_le _) hstart hwindow

/-- One request a second with a burst of sixty keeps the bound. -/
theorem allowed_le_default :
    currentLimits (newRateLimiter 1 60 none) = (1, 60) ∧
      (allowedIn "10.0.0.1" 0 (600000000000 + 1) (newRateLimiter 1 60 none) (twoBursts "10.0.0.1" 60) : ℚ) ≤
        (60 : ℤ) + 1 * (seconds (600000000000 + 1) - seconds 0) := by
  have hlimits : currentLimits (newRateLimiter 1 60 none) = (1, 60) := rfl
  have hbound := (allowed_le_iff hlimits (by norm_num) (by norm_num)).mpr (by norm_num [seconds])
  exact ⟨hlimits, hbound _ (pairwise_twoBursts _ _) _ _ _ (Nat.zero_le _)⟩

/-- Six requests an hour with a burst of two: four requests in little more than ten minutes. -/
theorem allowed_exceeds_burst :
    (twoBursts "10.0.0.1" 2).Pairwise (fun e e' => e.time ≤ e'.time) ∧
      ¬(allowedIn "10.0.0.1" 0 (600000000000 + 1) (newRateLimiter (1 / 600) 2 none)
          (twoBursts "10.0.0.1" 2) : ℚ) ≤
        (2 : ℤ) + 1 / 600 * (seconds (600000000000 + 1) - seconds 0) := by
  refine ⟨pairwise_twoBursts _ _, ?_⟩
  decide +kernel

/-! ## Other keys -/

/-- The event is a request of the key or a cleanup. -/
def LimiterEvent.concerns (key : String) : LimiterEvent → Bool
  | allow _ ip => ip = key
  | cleanup _ => true

lemma allowedIn_filter {key : String} {first last : ℕ} {rl rl' : RateLimiter}
    (hlimits : currentLimits rl = currentLimits rl') (hbucket : rl.bucket key = rl'.bucket key)
    (events : List LimiterEvent) :
    allowedIn key first last rl events = allowedIn key first last rl' (events.filter (·.concerns key)) := by
  induction events generalizing rl rl' with
  | nil => rfl
  | cons event events ih =>
    have hnext : currentLimits (event.step rl).2 = currentLimits (event.step rl').2 := by
      rw [currentLimits_step, currentLimits_step, hlimits]
    cases event with
    | cleanup now =>
      rw [List.filter_cons_of_pos rfl, allowedIn, allowedIn, ih hnext (congrArg (Option.filter _) hbucket)]
      rfl
    | allow now ip =>
      by_cases hip : ip = key
      · subst hip
        have hanswer : (rl.allow now ip).1 = (rl'.allow now ip).1 := by
          simp only [RateLimiter.allow, hlimits, hbucket]
        have htaken : (rl.allow now ip).2.bucket ip = (rl'.allow now ip).2.bucket ip := by
          simp only [RateLimiter.allow, hlimits, hbucket, RateLimiter.bucket_setBucket_self]
        rw [List.filter_cons_of_pos (by simp [LimiterEvent.concerns]), allowedIn, allowedIn, ih hnext htaken]
        simp only [LimiterEvent.step, hanswer]
        rfl
      · have hother : (rl.allow now ip).2.bucket key = rl'.bucket key :=
          (rl.bucket_setBucket_of_ne ip (Ne.symm hip) _).trans hbucket
        rw [List.filter_cons_of_neg (by simpa [LimiterEvent.concerns] using hip), allowedIn,
          ih ((currentLimits_step rl (.allow now ip)).trans hlimits) hother]
        simp [LimiterEvent.isIn, hip]

/-- Requests of other keys, in the same shard or another one, neither use up nor fill the bucket of a key. -/
theorem allowedIn_eq_filter (key : String) (first last : ℕ) (rl : RateLimiter) (events : List LimiterEvent) :
    allowedIn key first last rl events = allowedIn key first last rl (events.filter (·.concerns key)) :=
  allowedIn_filter rfl rfl events

end Packmon.Middleware

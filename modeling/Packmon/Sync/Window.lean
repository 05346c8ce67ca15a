import Packmon.Sync.Cursor

/-!
# The window of a delta

A row version records when its transaction started and the low 32 bits of its transaction id.  The
since and snapshot watermarks of a request are a time and a 64-bit id, so the filters compare modulo
`2 ^ 32`, within the window from the watermark to the next transaction id of the statement.  Both
conditions err toward delivering a row.
-/

namespace Packmon

/-- What a row version records of the transaction that wrote it: its start and its id. -/
structure Stamp where
  updatedAt : Time
  xid : ℕ
  deriving DecidableEq

/-- The transaction id column of a row version, which has 32 bits. -/
def Stamp.xmin (t : Stamp) : ℤ := (t.xid % 2 ^ 32 : ℕ)

/-! ## Comparing transaction ids -/

/-- The distance modulo `2 ^ 32` from the watermark `arg` to the transaction id `column`; the
remainder of the database has the sign of its left operand. -/
def syncXIDDistance (column arg : ℤ) : ℤ :=
  ((column - arg).tmod 4294967296 + 4294967296).tmod 4294967296

/-- The number of transaction ids from the watermark to the next id of the statement, or
`outOfRange` when that is negative or above `2 ^ 31 - 1`. -/
def syncXIDWindowWidth (xmax arg outOfRange : ℤ) : ℤ :=
  if 0 ≤ xmax - arg ∧ xmax - arg ≤ 2147483647 then xmax - arg else outOfRange

/-- The row version was written at or after the watermark. -/
def syncXIDAtOrAfter (xmax : ℕ) (t : Stamp) (arg : ℕ) : Bool :=
  syncXIDDistance t.xmin arg < syncXIDWindowWidth xmax arg 4294967296

/-- The row version was written before the watermark. -/
def syncXIDBefore (xmax : ℕ) (t : Stamp) (arg : ℕ) : Bool :=
  syncXIDDistance t.xmin arg ≥ syncXIDWindowWidth xmax arg 0

section Compare

variable {xmax xmax' arg arg' : ℕ} {t : Stamp}

lemma syncXIDDistance_xmin (t : Stamp) (arg : ℕ) :
    syncXIDDistance t.xmin arg = ((t.xid : ℤ) - arg) % 4294967296 := by
  unfold syncXIDDistance Stamp.xmin
  rw [Int.tmod_eq_emod, Int.tmod_eq_emod]
  split_ifs <;> omega

/-- In a window of sensible width the distance decides. -/
lemma syncXIDAtOrAfter_iff : syncXIDAtOrAfter xmax t arg = true ↔
    (arg ≤ xmax → xmax - arg ≤ 2147483647 →
      ((t.xid : ℤ) - arg) % 4294967296 < xmax - arg) := by
  unfold syncXIDAtOrAfter syncXIDWindowWidth
  rw [syncXIDDistance_xmin, decide_eq_true_eq]
  split_ifs with hwidth <;> omega

@[inherit_doc syncXIDAtOrAfter_iff]
lemma syncXIDBefore_iff : syncXIDBefore xmax t arg = true ↔
    (arg ≤ xmax → xmax - arg ≤ 2147483647 →
      (xmax : ℤ) - arg ≤ ((t.xid : ℤ) - arg) % 4294967296) := by
  unfold syncXIDBefore syncXIDWindowWidth
  rw [syncXIDDistance_xmin, decide_eq_true_eq]
  split_ifs with hwidth <;> omega

/-- A row version with an id from the watermark on is recognised. -/
lemma syncXIDAtOrAfter_of_le (hlow : arg ≤ t.xid) (hhigh : t.xid < xmax) :
    syncXIDAtOrAfter xmax t arg = true := by
  rw [syncXIDAtOrAfter_iff]
  omega

/-- The two conditions leave no gap, also when the second is asked later. -/
lemma syncXIDAtOrAfter_of_not_before (hle : xmax ≤ xmax')
    (h : ¬syncXIDBefore xmax t arg = true) : syncXIDAtOrAfter xmax' t arg = true := by
  rw [syncXIDBefore_iff] at h
  rw [syncXIDAtOrAfter_iff]
  omega

end Compare

/-! ## The conditions in 64-bit arithmetic -/

/-- A value of the database type for 64-bit integers; an operation beyond its range is an error. -/
def bigint (z : ℤ) : Option ℤ :=
  if -9223372036854775808 ≤ z ∧ z < 9223372036854775808 then some z else none

/-- `syncXIDDistance` as the database evaluates it. -/
def syncXIDDistanceSQL (column arg : ℤ) : Option ℤ := do
  let column ← bigint column
  let arg ← bigint arg
  let difference ← bigint (column - arg)
  let remainder ← bigint (difference.tmod 4294967296)
  let shifted ← bigint (remainder + 4294967296)
  bigint (shifted.tmod 4294967296)

/-- `syncXIDWindowWidth` as the database evaluates it. -/
def syncXIDWindowWidthSQL (xmax arg outOfRange : ℤ) : Option ℤ := do
  let xmax ← bigint xmax
  let arg ← bigint arg
  let width ← bigint (xmax - arg)
  bigint (if 0 ≤ width ∧ width ≤ 2147483647 then width else outOfRange)

/-- `syncXIDAtOrAfter` as the database evaluates it. -/
def syncXIDAtOrAfterSQL (xmax : ℕ) (t : Stamp) (arg : ℕ) : Option Bool := do
  let distance ← syncXIDDistanceSQL t.xmin arg
  let width ← syncXIDWindowWidthSQL xmax arg 4294967296
  return distance < width

/-- `syncXIDBefore` as the database evaluates it. -/
def syncXIDBeforeSQL (xmax : ℕ) (t : Stamp) (arg : ℕ) : Option Bool := do
  let distance ← syncXIDDistanceSQL t.xmin arg
  let width ← syncXIDWindowWidthSQL xmax arg 0
  return distance ≥ width

section SQL

variable {xmax arg : ℕ} {t : Stamp}

lemma bigint_bind {α : Type} {z : ℤ} (hlow : -9223372036854775808 ≤ z)
    (hhigh : z < 9223372036854775808) (f : ℤ → Option α) : (bigint z >>= f) = f z := by
  unfold bigint
  rw [if_pos ⟨hlow, hhigh⟩]
  rfl

lemma bigint_eq_some {z : ℤ} (hlow : -9223372036854775808 ≤ z)
    (hhigh : z < 9223372036854775808) : bigint z = some z :=
  if_pos ⟨hlow, hhigh⟩

/-- A remainder stays below the modulus on both sides. -/
lemma tmod_bounds (z : ℤ) :
    -4294967296 < z.tmod 4294967296 ∧ z.tmod 4294967296 < 4294967296 := by
  have h := Int.tmod_eq_emod (a := z) (b := 4294967296)
  split_ifs at h <;> omega

/-- A column of 32 bits and a watermark of 63 leave every intermediate value in range. -/
lemma syncXIDDistanceSQL_eq (t : Stamp) (harg : arg < 9223372036854775808) :
    syncXIDDistanceSQL t.xmin arg = some (syncXIDDistance t.xmin arg) := by
  have hcolumn : 0 ≤ t.xmin ∧ t.xmin < 4294967296 := by
    unfold Stamp.xmin
    omega
  obtain ⟨hlow, hhigh⟩ := tmod_bounds (t.xmin - arg)
  obtain ⟨hlow', hhigh'⟩ := tmod_bounds ((t.xmin - arg).tmod 4294967296 + 4294967296)
  unfold syncXIDDistanceSQL syncXIDDistance
  rw [bigint_bind (by omega) (by omega), bigint_bind (by omega) (by omega),
    bigint_bind (by omega) (by omega), bigint_bind (by omega) (by omega),
    bigint_bind (by omega) (by omega)]
  exact bigint_eq_some (by omega) (by omega)

/-- Two values of 63 bits leave the width in range. -/
lemma syncXIDWindowWidthSQL_eq (hxmax : xmax < 9223372036854775808)
    (harg : arg < 9223372036854775808) {outOfRange : ℤ} (hlow : 0 ≤ outOfRange)
    (hhigh : outOfRange ≤ 4294967296) :
    syncXIDWindowWidthSQL xmax arg outOfRange = some (syncXIDWindowWidth xmax arg outOfRange) := by
  unfold syncXIDWindowWidthSQL syncXIDWindowWidth
  rw [bigint_bind (by omega) (by omega), bigint_bind (by omega) (by omega),
    bigint_bind (by omega) (by omega)]
  refine bigint_eq_some ?_ ?_ <;> split_ifs <;> omega

lemma syncXIDAtOrAfterSQL_eq (t : Stamp) (hxmax : xmax < 2 ^ 63) (harg : arg < 2 ^ 63) :
    syncXIDAtOrAfterSQL xmax t arg = some (syncXIDAtOrAfter xmax t arg) := by
  unfold syncXIDAtOrAfterSQL
  rw [syncXIDDistanceSQL_eq t harg,
    syncXIDWindowWidthSQL_eq hxmax harg (by decide) (by decide)]
  rfl

lemma syncXIDBeforeSQL_eq (t : Stamp) (hxmax : xmax < 2 ^ 63) (harg : arg < 2 ^ 63) :
    syncXIDBeforeSQL xmax t arg = some (syncXIDBefore xmax t arg) := by
  unfold syncXIDBeforeSQL
  rw [syncXIDDistanceSQL_eq t harg,
    syncXIDWindowWidthSQL_eq hxmax harg (by decide) (by decide)]
  rfl

/-- In a window that is not of sensible width both conditions hold. -/
lemma both_of_outOfRange (xmax arg : ℕ) (t : Stamp)
    (h : ¬(arg ≤ xmax ∧ xmax - arg ≤ 2147483647)) :
    syncXIDAtOrAfter xmax t arg = true ∧ syncXIDBefore xmax t arg = true :=
  ⟨syncXIDAtOrAfter_iff.mpr fun hle hwidth => absurd ⟨hle, hwidth⟩ h,
    syncXIDBefore_iff.mpr fun hle hwidth => absurd ⟨hle, hwidth⟩ h⟩

/-- No transaction falls between two deltas: what the snapshot bound of one excludes, the since half
of a later one selects; a row version from the watermark on is always selected; outside a window of
sensible width both conditions hold; and no intermediate value leaves the range of 64 bits. -/
theorem syncXID_no_gap (arg x : ℕ) (harg : arg < 2 ^ 63) (t : Stamp) (hx : t.xid = x) :
    (∀ n₁ n₂ : ℕ, x < n₁ → n₁ ≤ n₂ → n₂ < 2 ^ 63 → syncXIDBeforeSQL n₁ t arg = some false →
        syncXIDAtOrAfterSQL n₂ t arg = some true) ∧
      (arg ≤ x → ∀ n : ℕ, x < n → n < 2 ^ 63 → syncXIDAtOrAfterSQL n t arg = some true) ∧
      (∀ n : ℕ, n < 2 ^ 63 → ¬((0 : ℤ) ≤ n - arg ∧ (n : ℤ) - arg ≤ 2 ^ 31 - 1) →
        syncXIDAtOrAfterSQL n t arg = some true ∧ syncXIDBeforeSQL n t arg = some true) ∧
      ∀ n : ℕ, n < 2 ^ 63 →
        syncXIDAtOrAfterSQL n t arg ≠ none ∧ syncXIDBeforeSQL n t arg ≠ none := by
  subst hx
  refine ⟨fun n₁ n₂ _ hle hbound hexcluded => ?_, fun hlow n hhigh hbound => ?_,
    fun n hbound hwidth => ?_, fun n hbound => ?_⟩
  · rw [syncXIDBeforeSQL_eq t (by omega) harg] at hexcluded
    rw [syncXIDAtOrAfterSQL_eq t hbound harg]
    have hnot : ¬syncXIDBefore n₁ t arg = true := by
      rw [Option.some.inj hexcluded]
      exact Bool.false_ne_true
    exact congrArg some (syncXIDAtOrAfter_of_not_before hle hnot)
  · rw [syncXIDAtOrAfterSQL_eq t hbound harg]
    exact congrArg some (syncXIDAtOrAfter_of_le hlow hhigh)
  · rw [syncXIDAtOrAfterSQL_eq t hbound harg, syncXIDBeforeSQL_eq t hbound harg]
    obtain ⟨hafter, hbefore⟩ := both_of_outOfRange n arg t (by omega)
    exact ⟨congrArg some hafter, congrArg some hbefore⟩
  · rw [syncXIDAtOrAfterSQL_eq t hbound harg, syncXIDBeforeSQL_eq t hbound harg]
    exact ⟨Option.some_ne_none _, Option.some_ne_none _⟩

/-- A row version written at the watermark, of the second epoch, that the snapshot bound of one delta
excludes and the next delta selects. -/
theorem syncXID_no_gap_second_epoch :
    syncXIDBeforeSQL (2 ^ 32 + 9) ⟨0, 2 ^ 32 + 7⟩ (2 ^ 32 + 5) = some false ∧
      syncXIDAtOrAfterSQL (2 ^ 32 + 50) ⟨0, 2 ^ 32 + 7⟩ (2 ^ 32 + 5) = some true := by
  have hexcluded : syncXIDBeforeSQL (2 ^ 32 + 9) ⟨0, 2 ^ 32 + 7⟩ (2 ^ 32 + 5) = some false := by
    decide
  exact ⟨hexcluded, (syncXID_no_gap (2 ^ 32 + 5) (2 ^ 32 + 7) (by decide) ⟨0, 2 ^ 32 + 7⟩ rfl).1
    (2 ^ 32 + 9) (2 ^ 32 + 50) (by decide) (by decide) (by decide) hexcluded⟩

end SQL

/-! ## The filters of one request -/

/-- The since window of a request and the snapshot it is bounded by; a transaction id of `0` is
absent. -/
structure SyncWindow where
  since : Option Time := none
  sinceXID : ℕ := 0
  snapshot : Time
  snapshotXID : ℕ := 0
  deriving DecidableEq

namespace Stamp

/-- The since half of the filter; an export without a since window takes every row. -/
def changedSince (w : SyncWindow) (xmax : ℕ) (t : Stamp) : Bool :=
  match w.since with
  | none => true
  | some since =>
    decide (since ≤ t.updatedAt) || (decide (0 < w.sinceXID) && syncXIDAtOrAfter xmax t w.sinceXID)

/-- The snapshot half of the filter; only a delta is bounded by the transaction id. -/
def upToSnapshot (w : SyncWindow) (xmax : ℕ) (t : Stamp) : Bool :=
  decide (t.updatedAt ≤ w.snapshot) &&
    (w.since.isNone || decide (w.snapshotXID = 0) || syncXIDBefore xmax t w.snapshotXID)

end Stamp

end Packmon

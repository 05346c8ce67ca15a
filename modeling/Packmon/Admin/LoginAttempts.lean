import Mathlib.Algebra.Order.Ring.Int
import Mathlib.Logic.Function.Basic
import Mathlib.Tactic.Common

/-!
# Failed logins

The table of failed logins of the administration: a record for each client address and one for the
account, which all addresses share.  A record counts failures and is locked at the fifth; a failure a
quarter of an hour after the last one starts again.  Each function here is one critical section of the
program, with the clock it reads in nanoseconds.
-/

namespace Packmon.Admin

def loginMaxAttempts : ℕ := 5

/-- A quarter of an hour. -/
def loginLockoutDuration : ℕ := 15 * 60 * 1000000000

lemma loginLockoutDuration_pos : 0 < loginLockoutDuration := by decide

def adminLoginAccountKey : String := "account:admin"

/-- A record; it is locked as long as it counts the maximum. -/
structure LoginAttempt where
  count : ℕ
  lockedAt : Option ℕ
  lastFailedAt : Option ℕ
  lockoutAuditedAt : Option ℕ
  locked_iff : lockedAt.isSome ↔ loginMaxAttempts ≤ count

/-- A record without failures. -/
def LoginAttempt.fresh : LoginAttempt := ⟨0, none, none, none, by decide⟩

/-- The records by key, each with the address it is stored at. -/
structure LoginAttempts where
  entries : String → Option (ℕ × LoginAttempt)
  allocated : ℕ

def LoginAttempts.empty : LoginAttempts := ⟨fun _ => none, 0⟩

/-- One more failure; the lock keeps the time it was set at. -/
def LoginAttempt.fail (a : LoginAttempt) (now : ℕ) : LoginAttempt where
  count := a.count + 1
  lockedAt := if loginMaxAttempts ≤ a.count + 1 then a.lockedAt.or (some now) else a.lockedAt
  lastFailedAt := some now
  lockoutAuditedAt := a.lockoutAuditedAt
  locked_iff := by
    split_ifs with h
    · simp [h]
    · simp only [h, iff_false, Bool.not_eq_true, Option.isSome_eq_false_iff, Option.isNone_iff_eq_none]
      cases hlocked : a.lockedAt with
      | none => rfl
      | some _ => exact absurd (a.locked_iff.mp (by simp [hlocked])) (by omega)

def LoginAttempt.setAudited (a : LoginAttempt) (at' : Option ℕ) : LoginAttempt :=
  { a with lockoutAuditedAt := at' }

/-- A record that is not locked and did not fail for a quarter of an hour. -/
def LoginAttempt.isOver (a : LoginAttempt) (now : ℕ) : Bool :=
  a.lockedAt.isNone && a.lastFailedAt.any fun last => loginLockoutDuration ≤ now - last

/-- The locks of a record whose audit is to be given back if it is not written. -/
structure LockoutAuditMark where
  key : String
  address : ℕ
  previous : Option ℕ
  claimedAt : ℕ
  deriving DecidableEq

namespace LoginAttempts

variable (t : LoginAttempts)

def set (key : String) (entry : Option (ℕ × LoginAttempt)) : LoginAttempts :=
  { t with entries := Function.update t.entries key entry }

/-- A lock that ran out is dropped. -/
def isAttemptLocked (key : String) (now : ℕ) : Bool × LoginAttempts :=
  match t.entries key with
  | none => (false, t)
  | some (_, a) =>
    match a.lockedAt with
    | none => (false, t)
    | some lockedAt =>
      if a.count < loginMaxAttempts then (false, t)
      else if now - lockedAt < loginLockoutDuration then (true, t)
      else (false, t.set key none)

def isLockedOut (ip : String) (now : ℕ) : Bool × LoginAttempts :=
  let own := t.isAttemptLocked ip now
  if own.1 then own else own.2.isAttemptLocked adminLoginAccountKey now

def recordFailedAttemptLocked (key : String) (now : ℕ) : LoginAttempts :=
  match t.entries key with
  | none => { t.set key (some (t.allocated, LoginAttempt.fresh.fail now)) with allocated := t.allocated + 1 }
  | some (address, a) =>
    let a := if a.isOver now then LoginAttempt.fresh else a
    t.set key (some (address, a.fail now))

def recordFailedAttemptFor (ip : String) (includeAccount : Bool) (now : ℕ) : LoginAttempts :=
  let own := t.recordFailedAttemptLocked ip now
  if includeAccount then own.recordFailedAttemptLocked adminLoginAccountKey now else own

def recordFailedAttempt (ip : String) (now : ℕ) : LoginAttempts := t.recordFailedAttemptFor ip true now

/-- The audit of one lock, unless it was claimed since the lock was set. -/
def claimAudit (key : String) (now : ℕ) : List LockoutAuditMark × LoginAttempts :=
  let locked := t.isAttemptLocked key now
  match t.entries key with
  | none => ([], t)
  | some (address, a) =>
    if locked.1 then
      if a.lockoutAuditedAt.all fun audited => a.lockedAt.any (audited < ·) then
        ([⟨key, address, a.lockoutAuditedAt, now⟩],
          locked.2.set key (some (address, a.setAudited (some now))))
      else ([], locked.2)
    else ([], locked.2)

def claimLockoutAudit (ip : String) (now : ℕ) : List LockoutAuditMark × LoginAttempts :=
  let own := t.claimAudit ip now
  let account := own.2.claimAudit adminLoginAccountKey now
  (own.1 ++ account.1, account.2)

/-- One mark is given back, unless the record was replaced or marked again. -/
def releaseMark (mark : LockoutAuditMark) : LoginAttempts :=
  match t.entries mark.key with
  | none => t
  | some (address, a) =>
    if address = mark.address ∧ a.lockoutAuditedAt = some mark.claimedAt then
      t.set mark.key (some (address, a.setAudited mark.previous))
    else t

def releaseLockoutAudit (claim : List LockoutAuditMark) : LoginAttempts := claim.foldl releaseMark t

def resetAttempts (ip : String) : LoginAttempts := (t.set ip none).set adminLoginAccountKey none

/-- A record that the periodic cleanup drops. -/
def isExpired (now : ℕ) (a : LoginAttempt) : Bool :=
  if loginMaxAttempts ≤ a.count then a.lockedAt.any (· + loginLockoutDuration < now)
  else a.lastFailedAt.all (· + loginLockoutDuration < now)

def cleanupExpiredLoginAttempts (now : ℕ) : LoginAttempts :=
  { t with entries := fun key => (t.entries key).filter fun entry => !isExpired now entry.2 }

/-! ## The record of the account -/

/-- The record that all addresses share. -/
def account : Option LoginAttempt := (t.entries adminLoginAccountKey).map Prod.snd

/-- The account is not locked. -/
def Unlocked : Prop := ∀ a ∈ t.account, a.count < loginMaxAttempts

/-- The account has counted so many failures, the last and the lock after a given time. -/
def Streak (start count now : ℕ) : Prop :=
  ∃ a ∈ t.account, count ≤ a.count ∧ (∃ last ∈ a.lastFailedAt, start ≤ last ∧ last ≤ now) ∧
    ∀ lockedAt ∈ a.lockedAt, start ≤ lockedAt

/-- The lock of a record, or its last failure where it has no lock, is a quarter of an hour old. -/
def IsOld (a : LoginAttempt) (now : ℕ) : Prop :=
  match a.lockedAt with
  | some lockedAt => lockedAt + loginLockoutDuration ≤ now
  | none => ∀ last ∈ a.lastFailedAt, last + loginLockoutDuration ≤ now

/-- Two records differ in the audit of the lock at most. -/
def SameFailures (a b : LoginAttempt) : Prop :=
  b.count = a.count ∧ b.lockedAt = a.lockedAt ∧ b.lastFailedAt = a.lastFailedAt

/-- No failure of the account is added, and none is dropped that is not old. -/
structure Aged (now : ℕ) (t t' : LoginAttempts) : Prop where
  of_account : ∀ b ∈ t'.account, ∃ a ∈ t.account, SameFailures a b
  kept : ∀ a ∈ t.account, ¬ IsOld a now → ∃ b ∈ t'.account, SameFailures a b

section Account

variable {t} {t' t'' : LoginAttempts} {key : String} {start count now before : ℕ} {a b : LoginAttempt}

@[simp] lemma account_set_self (entry : Option (ℕ × LoginAttempt)) :
    (t.set adminLoginAccountKey entry).account = entry.map Prod.snd := by
  simp [account, set]

lemma account_set_of_ne (h : key ≠ adminLoginAccountKey) (entry : Option (ℕ × LoginAttempt)) :
    (t.set key entry).account = t.account := by
  simp [account, set, Function.update_of_ne h.symm]

lemma account_of_entry {address : ℕ} (h : t.entries adminLoginAccountKey = some (address, a)) :
    t.account = some a := by
  simp [account, h]

lemma SameFailures.isOld_iff (h : SameFailures a b) : IsOld b now ↔ IsOld a now := by
  unfold IsOld
  rw [h.2.1, h.2.2]

lemma Aged.of_eq (h : t'.account = t.account) : Aged now t t' :=
  ⟨fun b hb => ⟨b, h ▸ hb, rfl, rfl, rfl⟩, fun a ha _ => ⟨a, h ▸ ha, rfl, rfl, rfl⟩⟩

lemma Aged.trans (h : Aged now t t') (h' : Aged now t' t'') : Aged now t t'' := by
  constructor
  · intro c hc
    obtain ⟨b, hb, hbc⟩ := h'.of_account c hc
    obtain ⟨a, ha, hab⟩ := h.of_account b hb
    exact ⟨a, ha, hbc.1.trans hab.1, hbc.2.1.trans hab.2.1, hbc.2.2.trans hab.2.2⟩
  · intro a ha hold
    obtain ⟨b, hb, hab⟩ := h.kept a ha hold
    obtain ⟨c, hc, hbc⟩ := h'.kept b hb (fun hb => hold (hab.isOld_iff.mp hb))
    exact ⟨c, hc, hbc.1.trans hab.1, hbc.2.1.trans hab.2.1, hbc.2.2.trans hab.2.2⟩

/-- An old record is dropped. -/
lemma Aged.drop {address : ℕ} (h : t.entries key = some (address, a)) (hold : IsOld a now) :
    Aged now t (t.set key none) := by
  by_cases hkey : key = adminLoginAccountKey
  · subst hkey
    refine ⟨by simp, ?_⟩
    intro b hb hnew
    obtain rfl : a = b := by simpa [account_of_entry h] using hb
    exact absurd hold hnew
  · exact .of_eq (account_set_of_ne hkey none)

/-- The audit of a lock is marked. -/
lemma Aged.mark {address : ℕ} (h : t.entries key = some (address, a)) (audited : Option ℕ) :
    Aged now t (t.set key (some (address, a.setAudited audited))) := by
  by_cases hkey : key = adminLoginAccountKey
  · subst hkey
    have hsame : SameFailures a (a.setAudited audited) := ⟨rfl, rfl, rfl⟩
    constructor
    · intro b hb
      obtain rfl : a.setAudited audited = b := by simpa using hb
      exact ⟨a, by simp [account_of_entry h], hsame⟩
    · intro b hb _
      obtain rfl : a = b := by simpa [account_of_entry h] using hb
      exact ⟨a.setAudited audited, by simp, hsame⟩
  · exact .of_eq (account_set_of_ne hkey _)

lemma Unlocked.aged (h : t.Unlocked) (haged : Aged now t t') : t'.Unlocked := by
  intro b hb
  obtain ⟨a, ha, hsame⟩ := haged.of_account b hb
  rw [hsame.1]
  exact h a ha

/-- A streak that began less than a quarter of an hour ago is not dropped. -/
lemma Streak.aged (h : t.Streak start count before) (haged : Aged now t t') (hbefore : before ≤ now)
    (hnow : now < start + loginLockoutDuration) : t'.Streak start count now := by
  obtain ⟨a, ha, hcount, ⟨last, hlast, hstart, hle⟩, hlocked⟩ := h
  have hnew : ¬ IsOld a now := by
    unfold IsOld
    cases hlock : a.lockedAt with
    | some lockedAt =>
      have := hlocked lockedAt hlock
      simp only
      omega
    | none =>
      intro hold
      have := hold last hlast
      omega
  obtain ⟨b, hb, hsame⟩ := haged.kept a ha hnew
  refine ⟨b, hb, hsame.1 ▸ hcount, ⟨last, hsame.2.2 ▸ hlast, hstart, hle.trans hbefore⟩, ?_⟩
  rw [hsame.2.1]
  exact hlocked

/-! ## What the functions do to it -/

variable (t)

/-- A lock is dropped only when it is over, and a record that is not locked is not. -/
lemma isAttemptLocked_spec (key : String) (now : ℕ) :
    Aged now t (t.isAttemptLocked key now).2 ∧
      ((t.isAttemptLocked key now).1 = false →
        ∀ entry ∈ (t.isAttemptLocked key now).2.entries key, entry.2.count < loginMaxAttempts) := by
  unfold isAttemptLocked
  cases hentry : t.entries key with
  | none => exact ⟨.of_eq rfl, by simp [hentry]⟩
  | some entry =>
    obtain ⟨address, a⟩ := entry
    cases hlock : a.lockedAt with
    | none =>
      have hcount : ¬ loginMaxAttempts ≤ a.count := by
        rw [← a.locked_iff, hlock]
        simp
      simp only [hlock]
      exact ⟨.of_eq rfl, by simp [hentry]; omega⟩
    | some lockedAt =>
      have hcount : loginMaxAttempts ≤ a.count := a.locked_iff.mp (by simp [hlock])
      simp only [hlock, if_neg (not_lt.mpr hcount)]
      split_ifs with hrecent
      · exact ⟨.of_eq rfl, by simp⟩
      · refine ⟨.drop hentry ?_, by simp [set]⟩
        have hpos := loginLockoutDuration_pos
        simp only [IsOld, hlock]
        omega

lemma aged_isLockedOut (ip : String) (now : ℕ) : Aged now t (t.isLockedOut ip now).2 := by
  unfold isLockedOut
  dsimp only
  split_ifs with hown
  · exact (isAttemptLocked_spec t ip now).1
  · exact (isAttemptLocked_spec t ip now).1.trans (isAttemptLocked_spec _ _ now).1

/-- Who is not locked out finds an account that is not locked. -/
lemma unlocked_of_isLockedOut {ip : String} {now : ℕ} (h : (t.isLockedOut ip now).1 = false) :
    (t.isLockedOut ip now).2.Unlocked := by
  unfold isLockedOut at h ⊢
  dsimp only at h ⊢
  split_ifs at h ⊢ with hown
  · rw [h] at hown
    exact absurd hown (by simp)
  · intro a ha
    obtain ⟨entry, hentry, rfl⟩ := Option.map_eq_some_iff.mp ha
    exact (isAttemptLocked_spec _ _ now).2 h entry hentry

lemma aged_claimAudit (key : String) (now : ℕ) : Aged now t (t.claimAudit key now).2 := by
  have haged := (isAttemptLocked_spec t key now).1
  unfold claimAudit
  dsimp only
  cases hentry : t.entries key with
  | none => exact .of_eq rfl
  | some entry =>
    obtain ⟨address, a⟩ := entry
    dsimp only
    split_ifs with hlocked hclaim
    · -- the record is locked, so it is still there
      have hkept : (t.isAttemptLocked key now).2 = t := by
        unfold isAttemptLocked at hlocked ⊢
        simp only [hentry] at hlocked ⊢
        cases hlock : a.lockedAt with
        | none => simp
        | some lockedAt =>
          simp only [hlock] at hlocked ⊢
          split_ifs at hlocked ⊢
          · simp_all
      rw [hkept]
      exact .mark hentry _
    · exact haged
    · exact haged

lemma aged_claimLockoutAudit (ip : String) (now : ℕ) : Aged now t (t.claimLockoutAudit ip now).2 :=
  (aged_claimAudit t ip now).trans (aged_claimAudit _ _ now)

lemma aged_releaseLockoutAudit (claim : List LockoutAuditMark) (now : ℕ) :
    Aged now t (t.releaseLockoutAudit claim) := by
  unfold releaseLockoutAudit
  induction claim generalizing t with
  | nil => exact .of_eq rfl
  | cons mark claim ih =>
    refine Aged.trans ?_ (ih _)
    unfold releaseMark
    cases hentry : t.entries mark.key with
    | none => exact .of_eq rfl
    | some entry =>
      obtain ⟨address, a⟩ := entry
      dsimp only
      split_ifs with hmark
      · exact .mark hentry _
      · exact .of_eq rfl

/-- What the cleanup drops is old. -/
lemma isOld_of_isExpired {a : LoginAttempt} {now : ℕ} (h : isExpired now a) : IsOld a now := by
  unfold isExpired at h
  unfold IsOld
  by_cases hcount : loginMaxAttempts ≤ a.count
  · rw [if_pos hcount] at h
    cases hlock : a.lockedAt with
    | none => exact absurd (a.locked_iff.mpr hcount) (by simp [hlock])
    | some lockedAt =>
      rw [hlock, Option.any_some] at h
      exact (of_decide_eq_true h).le
  · rw [if_neg hcount] at h
    cases hlock : a.lockedAt with
    | some lockedAt => exact absurd (a.locked_iff.mp (by simp [hlock])) hcount
    | none =>
      intro last hlast
      rw [hlast, Option.all_some] at h
      exact (of_decide_eq_true h).le

lemma aged_cleanup (now : ℕ) : Aged now t (t.cleanupExpiredLoginAttempts now) := by
  have haccount : (t.cleanupExpiredLoginAttempts now).account =
      t.account.filter fun a => !isExpired now a := by
    simp only [account, cleanupExpiredLoginAttempts]
    cases t.entries adminLoginAccountKey with
    | none => rfl
    | some entry => cases hexpired : isExpired now entry.2 <;> simp [Option.filter, hexpired]
  constructor
  · intro b hb
    rw [haccount] at hb
    exact ⟨b, (Option.mem_filter_iff.mp hb).1, rfl, rfl, rfl⟩
  · intro a ha hnew
    refine ⟨a, ?_, rfl, rfl, rfl⟩
    rw [haccount]
    refine Option.mem_filter_iff.mpr ⟨ha, ?_⟩
    cases hexpired : isExpired now a with
    | false => rfl
    | true => exact absurd (isOld_of_isExpired hexpired) hnew

/-! ## Failures -/

lemma account_record_of_ne {key : String} (h : key ≠ adminLoginAccountKey) (now : ℕ) :
    (t.recordFailedAttemptLocked key now).account = t.account := by
  unfold recordFailedAttemptLocked
  cases t.entries key with
  | none => exact account_set_of_ne h _
  | some entry => exact account_set_of_ne h _

/-- The account counts one more failure, or the first one again. -/
lemma account_record (now : ℕ) :
    (t.recordFailedAttemptLocked adminLoginAccountKey now).account =
      some (((t.account.filter fun a => !a.isOver now).getD LoginAttempt.fresh).fail now) := by
  unfold recordFailedAttemptLocked
  cases hentry : t.entries adminLoginAccountKey with
  | none =>
    have haccount : t.account = none := by simp [account, hentry]
    rw [haccount]
    exact account_set_self (t := t) _
  | some entry =>
    rw [account_of_entry hentry]
    dsimp only
    rw [account_set_self]
    cases hover : entry.2.isOver now <;> simp [Option.filter, hover]

variable {t}

/-- The first failure of an account that is not locked starts a streak. -/
lemma Unlocked.streak_record (h : t.Unlocked) (hstart : start ≤ now) :
    (t.recordFailedAttemptLocked adminLoginAccountKey now).Streak start 1 now := by
  refine ⟨_, account_record t now, by simp [LoginAttempt.fail], ⟨now, rfl, hstart, le_rfl⟩, ?_⟩
  have hlock : ((t.account.filter fun a => !a.isOver now).getD LoginAttempt.fresh).lockedAt = none := by
    cases hfilter : t.account.filter fun a => !a.isOver now with
    | none => rfl
    | some a =>
      have hcount := h a (Option.mem_filter_iff.mp hfilter).1
      cases hlocked : a.lockedAt with
      | none => simpa using hlocked
      | some _ => exact absurd (a.locked_iff.mp (by simp [hlocked])) (by omega)
  intro lockedAt hlocked
  simp only [LoginAttempt.fail, hlock, Option.none_or] at hlocked
  split_ifs at hlocked
  · obtain rfl : now = lockedAt := by simpa using hlocked
    exact hstart
  · simp at hlocked

/-- A failure less than a quarter of an hour after the last one goes on with the streak. -/
lemma Streak.record (h : t.Streak start count before) (hbefore : before ≤ now)
    (hnow : now < start + loginLockoutDuration) :
    (t.recordFailedAttemptLocked adminLoginAccountKey now).Streak start (count + 1) now := by
  obtain ⟨a, ha, hcount, ⟨last, hlast, hstart, hle⟩, hlocked⟩ := h
  have hover : a.isOver now = false := by
    have hrecent : ¬ loginLockoutDuration ≤ now - last := by omega
    rw [Option.mem_def] at hlast
    unfold LoginAttempt.isOver
    rw [hlast, Option.any_some, decide_eq_false hrecent, Bool.and_false]
  have hfilter : (t.account.filter fun a => !a.isOver now) = some a :=
    Option.mem_filter_iff.mpr ⟨ha, by simp [hover]⟩
  refine ⟨_, account_record t now, ?_, ⟨now, rfl, by omega, le_rfl⟩, ?_⟩
  · rw [hfilter]
    exact Nat.succ_le_succ hcount
  · rw [hfilter]
    intro lockedAt hlock
    simp only [LoginAttempt.fail, Option.getD_some] at hlock
    cases halready : a.lockedAt with
    | some already =>
      have := hlocked already halready
      simp [halready] at hlock
      omega
    | none =>
      simp [halready] at hlock
      omega

/-- Nothing was counted yet, or there is a streak. -/
def Counted (t : LoginAttempts) (start count now : ℕ) : Prop := count = 0 ∨ t.Streak start count now

lemma Counted.aged (h : t.Counted start count before) (haged : Aged now t t') (hbefore : before ≤ now)
    (hnow : now < start + loginLockoutDuration) : t'.Counted start count now :=
  h.imp id fun h => h.aged haged hbefore hnow

/-- A streak counts at least as many. -/
lemma Streak.of_succ (h : t.Streak start (count + 1) now) : t.Streak start count now := by
  obtain ⟨a, ha, hcount, hrest⟩ := h
  exact ⟨a, ha, by omega, hrest⟩

lemma Counted.record (h : t.Counted start count before) (hunlocked : t.Unlocked) (hbefore : before ≤ now)
    (hstart : start ≤ now) (hnow : now < start + loginLockoutDuration) :
    (t.recordFailedAttemptLocked adminLoginAccountKey now).Streak start (count + 1) now := by
  obtain rfl | hstreak := h
  · exact hunlocked.streak_record hstart
  · exact hstreak.record hbefore hnow

/-- A record of another key says nothing about the account. -/
lemma Counted.record_of_ne (h : t.Counted start count before) (hkey : key ≠ adminLoginAccountKey)
    (hbefore : before ≤ now) (hnow : now < start + loginLockoutDuration) :
    (t.recordFailedAttemptLocked key now).Counted start count now :=
  h.aged (.of_eq (account_record_of_ne t hkey now)) hbefore hnow

/-- A failure that counts for the account goes on with the streak. -/
lemma Counted.recordFailedAttempt (h : t.Counted start count before) (hunlocked : t.Unlocked)
    (ip : String) (hbefore : before ≤ now) (hstart : start ≤ now)
    (hnow : now < start + loginLockoutDuration) :
    (t.recordFailedAttempt ip now).Counted start (count + 1) now := by
  refine .inr ?_
  by_cases hip : ip = adminLoginAccountKey
  · -- the failure is counted twice
    subst hip
    exact ((h.record hunlocked hbefore hstart hnow).record le_rfl hnow).of_succ
  · have hkept : (t.recordFailedAttemptLocked ip now).Unlocked :=
      hunlocked.aged (.of_eq (account_record_of_ne t hip now) : Aged now _ _)
    exact (h.record_of_ne hip hbefore hnow).record hkept le_rfl hstart hnow

/-- A failure that counts for the address alone does not end the streak. -/
lemma Counted.recordFailedAttemptFor_false (h : t.Counted start count before) (hunlocked : t.Unlocked)
    (ip : String) (hbefore : before ≤ now) (hstart : start ≤ now)
    (hnow : now < start + loginLockoutDuration) :
    (t.recordFailedAttemptFor ip false now).Counted start count now := by
  by_cases hip : ip = adminLoginAccountKey
  · subst hip
    exact .inr (h.record hunlocked hbefore hstart hnow).of_succ
  · exact h.record_of_ne hip hbefore hnow

/-- A success clears the account. -/
lemma unlocked_resetAttempts (t : LoginAttempts) (ip : String) : (t.resetAttempts ip).Unlocked := by
  intro a ha
  simp [resetAttempts] at ha

end Account

end LoginAttempts

end Packmon.Admin

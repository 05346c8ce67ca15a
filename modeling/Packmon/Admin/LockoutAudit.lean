import Packmon.Admin.AuditMarks
import Packmon.Admin.Lockout

/-!
# One row for a lock

The critical sections of the table of failed logins are taken by any requests in any order, whatever the
requests are for; `audit_run_of_run` says that logins and password changes are such requests.  Every step
either leaves the mark of a record alone or is one of a claim, a write and a release (`AuditEffect`), and
from that a mark has one owner at most (`Accounted`): a request that owes the row, or the row.
-/

namespace Packmon.Admin

open Interleaving (Config exec run count)
open LockoutAuditMark (IsOf)
open LoginAttempts

/-- A request between its critical sections; it may have claimed locks, and the row may not have been
written. -/
inductive AuditThread where
  | idle
  | claimed (claim : List LockoutAuditMark)
  | unwritten (claim : List LockoutAuditMark)

/-- What a request does next.  The cleanup reads the clock before its critical section. -/
inductive TableAction where
  | isLockedOut (ip : String)
  | recordFailedAttemptFor (ip : String) (includeAccount : Bool)
  | claimLockoutAudit (ip : String)
  | auditLog (ok : Bool)
  | releaseLockoutAudit
  | resetAttempts (ip : String)
  | cleanupExpiredLoginAttempts (readAt : ℕ)
  deriving DecidableEq

structure TableEvent where
  time : ℕ
  action : TableAction

/-- One critical section of the table, or one write to the audit log. -/
def lockoutStep (e : TableEvent) (t : LoginAttempts) : AuditThread → Option (LoginAttempts × AuditThread)
  | .idle =>
    match e.action with
    | .isLockedOut ip => some ((t.isLockedOut ip e.time).2, .idle)
    | .recordFailedAttemptFor ip includeAccount =>
      some (t.recordFailedAttemptFor ip includeAccount e.time, .idle)
    | .claimLockoutAudit ip =>
      let claim := t.claimLockoutAudit ip e.time
      some (claim.2, if claim.1.isEmpty then .idle else .claimed claim.1)
    | .resetAttempts ip => some (t.resetAttempts ip, .idle)
    | .cleanupExpiredLoginAttempts readAt => some (t.cleanupExpiredLoginAttempts readAt, .idle)
    | .auditLog _ => none
    | .releaseLockoutAudit => none
  | .claimed claim =>
    match e.action with
    | .auditLog ok => some (t, if ok then .idle else .unwritten claim)
    | _ => none
  | .unwritten claim =>
    match e.action with
    | .releaseLockoutAudit => some (t.releaseLockoutAudit claim, .idle)
    | _ => none

/-- The locks that a request has claimed and not given back, as long as no row is written for them. -/
def AuditThread.marks : AuditThread → List LockoutAuditMark
  | .idle => []
  | .claimed claim => claim
  | .unwritten claim => claim

/-- The request owes the audit of a record. -/
def AuditThread.Owes (key : String) (address : ℕ) (th : AuditThread) : Prop :=
  ∃ mark ∈ th.marks, IsOf key address mark

instance (key : String) (address : ℕ) (th : AuditThread) : Decidable (th.Owes key address) :=
  inferInstanceAs (Decidable (∃ mark ∈ th.marks, IsOf key address mark))

/-- A row is written for the lock of a record. -/
def isWrite (key : String) (address : ℕ) (e : TableEvent) (_ : LoginAttempts) (th : AuditThread) : Bool :=
  e.action = .auditLog true && decide (th.Owes key address)

/-- The lock of a record is claimed. -/
def isClaim (key : String) (address : ℕ) (e : TableEvent) (t : LoginAttempts) (_ : AuditThread) : Bool :=
  match e.action with
  | .claimLockoutAudit ip => (t.claimLockoutAudit ip e.time).1.any fun mark => IsOf key address mark
  | _ => false

/-- What a step does to the mark of one record. -/
inductive AuditEffect (key : String) (address : ℕ) (e : TableEvent) (t : LoginAttempts) (th : AuditThread)
    (t' : LoginAttempts) (th' : AuditThread) : Prop where
  /-- The mark stays, its record is dropped, or the record is a new one. -/
  | quiet (audit : t'.auditOf key address = none ∨ t'.auditOf key address = t.auditOf key address ∨
      t.allocated ≤ address ∧ t'.auditOf key address = some none)
      (marks : ∀ mark, IsOf key address mark → (mark ∈ th'.marks ↔ mark ∈ th.marks))
      (written : isWrite key address e t th = false) (claimed : isClaim key address e t th = false)
  /-- The mark is set. -/
  | claim (free : t.auditOf key address = some none)
      (audit : t'.auditOf key address = none ∨ t'.auditOf key address = some (some e.time))
      (marks : ∀ mark ∈ th'.marks, mark.claimedAt = e.time)
      (written : isWrite key address e t th = false) (claimed : isClaim key address e t th = true)
  /-- The row is written. -/
  | write (audit : t' = t) (owes : th.Owes key address) (marks : th'.marks = [])
      (written : isWrite key address e t th = true) (claimed : isClaim key address e t th = false)
  /-- The mark is taken away. -/
  | release (audit : t'.auditOf key address = t.auditOf key address ∨ t'.auditOf key address = some none)
      (owes : th.Owes key address) (marks : th'.marks = [])
      (written : isWrite key address e t th = false) (claimed : isClaim key address e t th = false)

section Effect

variable {key : String} {address : ℕ} {e : TableEvent} {t t' : LoginAttempts} {th th' : AuditThread}

lemma AuditEffect.of_quiet (h : Quiet e.time t t') (hwrite : e.action ≠ .auditLog true)
    (hclaim : ∀ ip, e.action ≠ .claimLockoutAudit ip) : AuditEffect key address e t .idle t' .idle := by
  refine .quiet (h.audit key address) (fun _ _ => Iff.rfl) (by simp [isWrite, hwrite]) ?_
  unfold isClaim
  split
  · exact absurd ‹_› (hclaim _)
  · rfl

/-- Whatever a step does, the records go on; new marks are on records that are there. -/
lemma lockoutStep_effect (hsound : t.Sound e.time) (hprevious : ∀ mark ∈ th.marks, mark.previous = none)
    (h : lockoutStep e t th = some (t', th')) :
    Continues e.time t t' ∧
      (∀ mark ∈ th'.marks, mark ∈ th.marks ∨ mark.previous = none ∧ mark.address < t.allocated) ∧
      ∀ key address, AuditEffect key address e t th t' th' := by
  obtain ⟨now, action⟩ := e
  have hquiet : ∀ {t' : LoginAttempts}, Quiet now t t' → action ≠ .auditLog true →
      (∀ ip, action ≠ .claimLockoutAudit ip) →
      Continues now t t' ∧
        (∀ mark ∈ AuditThread.idle.marks, mark ∈ AuditThread.idle.marks ∨
          mark.previous = none ∧ mark.address < t.allocated) ∧
        ∀ key address, AuditEffect key address ⟨now, action⟩ t .idle t' .idle :=
    fun hquiet hwrite hclaim => ⟨hquiet.toContinues, by simp [AuditThread.marks],
      fun key address => .of_quiet hquiet hwrite hclaim⟩
  cases th with
  | idle =>
    cases action with
    | isLockedOut ip =>
      obtain ⟨rfl, rfl⟩ : (t.isLockedOut ip now).2 = t' ∧ AuditThread.idle = th' := by
        simpa [lockoutStep] using h
      exact hquiet (.isLockedOut hsound ip) (by simp) (by simp)
    | recordFailedAttemptFor ip includeAccount =>
      obtain ⟨rfl, rfl⟩ : t.recordFailedAttemptFor ip includeAccount now = t' ∧ AuditThread.idle = th' := by
        simpa [lockoutStep] using h
      exact hquiet (.recordFailedAttemptFor hsound ip includeAccount) (by simp) (by simp)
    | resetAttempts ip =>
      obtain ⟨rfl, rfl⟩ : t.resetAttempts ip = t' ∧ AuditThread.idle = th' := by simpa [lockoutStep] using h
      exact hquiet (.resetAttempts hsound ip) (by simp) (by simp)
    | cleanupExpiredLoginAttempts readAt =>
      obtain ⟨rfl, rfl⟩ : t.cleanupExpiredLoginAttempts readAt = t' ∧ AuditThread.idle = th' := by
        simpa [lockoutStep] using h
      exact hquiet (.cleanup hsound readAt) (by simp) (by simp)
    | auditLog ok => simp [lockoutStep] at h
    | releaseLockoutAudit => simp [lockoutStep] at h
    | claimLockoutAudit ip =>
      have hclaims := claims_claimLockoutAudit hsound ip
      obtain ⟨rfl, hmarks⟩ : (t.claimLockoutAudit ip now).2 = t' ∧
          th'.marks = (t.claimLockoutAudit ip now).1 := by
        simp only [lockoutStep, Option.some.injEq, Prod.mk.injEq] at h
        obtain ⟨rfl, rfl⟩ := h
        refine ⟨rfl, ?_⟩
        split_ifs with hempty
        · rw [List.isEmpty_iff.mp hempty]
          rfl
        · rfl
      rw [hmarks]
      refine ⟨hclaims.toContinues, ?_, ?_⟩
      · intro mark hmark
        obtain ⟨hprevious, -, haddress⟩ := hclaims.marks mark hmark
        exact .inr ⟨hprevious, haddress⟩
      · intro key address
        by_cases hclaimed : ∃ mark ∈ (t.claimLockoutAudit ip now).1, IsOf key address mark
        · obtain ⟨hfree, haudit⟩ := hclaims.claimed key address hclaimed
          refine .claim hfree haudit ?_ (by simp [isWrite]) (by simpa [isClaim] using hclaimed)
          rw [hmarks]
          exact fun mark hmark => (hclaims.marks mark hmark).2.1
        · have hnone : ∀ mark ∈ (t.claimLockoutAudit ip now).1, ¬ IsOf key address mark :=
            fun mark hmark hof => hclaimed ⟨mark, hmark, hof⟩
          refine .quiet ((hclaims.unclaimed key address hnone).imp_right .inl) ?_ (by simp [isWrite])
            (by simpa [isClaim] using hnone)
          intro mark hof
          rw [hmarks]
          exact ⟨fun hmark => absurd hof (hnone mark hmark), by simp [AuditThread.marks]⟩
  | claimed claim =>
    cases action with
    | auditLog ok =>
      obtain ⟨rfl, rfl⟩ : t = t' ∧ (if ok then AuditThread.idle else .unwritten claim) = th' := by
        simpa [lockoutStep] using h
      refine ⟨.refl hsound, ?_, ?_⟩
      · intro mark hmark
        cases ok with
        | true => simp [AuditThread.marks] at hmark
        | false => exact .inl hmark
      · intro key address
        cases ok with
        | false => exact .quiet (.inr (.inl rfl)) (fun _ _ => Iff.rfl) (by simp [isWrite]) rfl
        | true =>
          by_cases howes : (AuditThread.claimed claim).Owes key address
          · exact .write rfl howes rfl (by simp [isWrite, howes]) rfl
          · refine .quiet (.inr (.inl rfl)) ?_ (by simp [isWrite, howes]) rfl
            intro mark hof
            exact ⟨by simp [AuditThread.marks], fun hmark => absurd ⟨mark, hmark, hof⟩ howes⟩
    | _ => simp [lockoutStep] at h
  | unwritten claim =>
    cases action with
    | releaseLockoutAudit =>
      obtain ⟨rfl, rfl⟩ : t.releaseLockoutAudit claim = t' ∧ AuditThread.idle = th' := by
        simpa [lockoutStep] using h
      obtain ⟨hcontinues, hrelease⟩ := release_spec hsound hprevious
      refine ⟨hcontinues, by simp [AuditThread.marks], ?_⟩
      intro key address
      by_cases howes : (AuditThread.unwritten claim).Owes key address
      · exact .release ((hrelease key address).imp_right And.left) howes rfl (by simp [isWrite]) rfl
      · have hsame := (hrelease key address).resolve_right fun hfree => howes hfree.2
        refine .quiet (.inr (.inl hsame)) ?_ (by simp [isWrite]) rfl
        intro mark hof
        exact ⟨by simp [AuditThread.marks], fun hmark => absurd ⟨mark, hmark, hof⟩ howes⟩
    | _ => simp [lockoutStep] at h

end Effect

/-! ## One owner -/

section Runs

variable {ι : Type} [DecidableEq ι]

/-- The mark of a record has one owner at most: a request that owes the row, or a row that was written. -/
structure Accounted (key : String) (address : ℕ) (c : Config LoginAttempts AuditThread ι)
    (now written : ℕ) : Prop where
  sound : c.shared.Sound now
  marks : ∀ i, ∀ mark ∈ (c.thread i).marks, mark.previous = none ∧ mark.address < c.shared.allocated
  unborn : c.shared.allocated ≤ address → written = 0
  free : c.shared.auditOf key address = some none → written = 0 ∧ ∀ i, ¬ (c.thread i).Owes key address
  claimedAt : ∀ i, ∀ mark ∈ (c.thread i).marks, IsOf key address mark →
    ∀ auditedAt, c.shared.auditOf key address = some (some auditedAt) → auditedAt = mark.claimedAt
  single : ∀ i j, (c.thread i).Owes key address → (c.thread j).Owes key address → i = j
  settled : written ≠ 0 → ∀ i, ¬ (c.thread i).Owes key address
  le : written ≤ 1

variable {key : String} {address now written : ℕ} {c c' : Config LoginAttempts AuditThread ι}
  {schedule : List (ι × TableEvent)} {i : ι} {e : TableEvent}

/-- Requests start on an empty table. -/
def atRest (ι : Type) : Config LoginAttempts AuditThread ι := ⟨.empty, fun _ => .idle⟩

omit [DecidableEq ι] in
lemma accounted_atRest (key : String) (address : ℕ) : Accounted key address (atRest ι) 0 0 where
  sound := sound_empty 0
  marks := by simp [atRest, AuditThread.marks]
  unborn _ := rfl
  free := by simp [atRest, auditOf, LoginAttempts.empty]
  claimedAt := by simp [atRest, AuditThread.marks]
  single := by simp [atRest, AuditThread.Owes, AuditThread.marks]
  settled := by simp
  le := Nat.zero_le 1

omit [DecidableEq ι] in
lemma Accounted.mono (h : Accounted key address c now written) {later : ℕ} (hle : now ≤ later) :
    Accounted key address c later written :=
  { h with sound := h.sound.mono hle }

omit [DecidableEq ι] in
/-- A record that is not made yet has no owner. -/
lemma Accounted.not_owes (h : Accounted key address c now written) (hunborn : c.shared.allocated ≤ address)
    (i : ι) : ¬ (c.thread i).Owes key address := by
  rintro ⟨mark, hmark, -, rfl⟩
  exact absurd (h.marks i mark hmark).2 (by omega)

/-- The effect of the step that a thread takes. -/
lemma Accounted.effect (h : Accounted key address c now written) (hnow : now ≤ e.time)
    (hexec : exec lockoutStep c i e = some c') :
    Continues e.time c.shared c'.shared ∧
      (∀ j, ∀ mark ∈ (c'.thread j).marks, mark.previous = none ∧ mark.address < c'.shared.allocated) ∧
      (∀ j, j ≠ i → c'.thread j = c.thread j) ∧
      AuditEffect key address e c.shared (c.thread i) c'.shared (c'.thread i) := by
  obtain ⟨t', th', hstep, rfl⟩ := Interleaving.exec_eq_some.mp hexec
  obtain ⟨hcontinues, hmarks, heffect⟩ :=
    lockoutStep_effect (h.sound.mono hnow) (fun mark hmark => (h.marks i mark hmark).1) hstep
  refine ⟨hcontinues, ?_, fun j hj => Function.update_of_ne hj _ _, ?_⟩
  · intro j mark hmark
    have hle := hcontinues.allocated
    dsimp only at hmark
    by_cases hj : j = i
    · subst hj
      rw [Function.update_self] at hmark
      obtain hold | ⟨hprevious, haddress⟩ := hmarks mark hmark
      · exact ⟨(h.marks j mark hold).1, (h.marks j mark hold).2.trans_le hle⟩
      · exact ⟨hprevious, haddress.trans_le hle⟩
    · rw [Function.update_of_ne hj] at hmark
      exact ⟨(h.marks j mark hmark).1, (h.marks j mark hmark).2.trans_le hle⟩
  · dsimp only
    rw [Function.update_self]
    exact heffect key address

omit [DecidableEq ι] in
/-- Where the owner has settled its claim, there is none. -/
lemma Accounted.not_owes_of_settled (h : Accounted key address c now written)
    (howes : (c.thread i).Owes key address) (hothers : ∀ j, j ≠ i → c'.thread j = c.thread j)
    (hsettled : (c'.thread i).marks = []) :
    written = 0 ∧ ∀ j, ¬ (c'.thread j).Owes key address := by
  constructor
  · by_contra hne
    exact h.settled hne i howes
  · intro j hj
    by_cases hji : j = i
    · subst hji
      obtain ⟨mark, hmark, -⟩ := hj
      rw [hsettled] at hmark
      simp at hmark
    · rw [hothers j hji] at hj
      exact hji (h.single j i hj howes)

/-- One step keeps the account. -/
lemma Accounted.of_exec (h : Accounted key address c now written) (hnow : now ≤ e.time)
    (hexec : exec lockoutStep c i e = some c') :
    Accounted key address c' e.time
      (written + if isWrite key address e c.shared (c.thread i) then 1 else 0) := by
  obtain ⟨hcontinues, hmarks, hothers, heffect⟩ := h.effect hnow hexec
  have hborn : c'.shared.allocated ≤ address → c.shared.allocated ≤ address := hcontinues.allocated.trans
  cases heffect with
  | quiet audit marks noWrite _ =>
    have howes : ∀ j, (c'.thread j).Owes key address ↔ (c.thread j).Owes key address := by
      intro j
      by_cases hj : j = i
      · subst hj
        constructor
        · rintro ⟨mark, hmark, hof⟩
          exact ⟨mark, (marks mark hof).mp hmark, hof⟩
        · rintro ⟨mark, hmark, hof⟩
          exact ⟨mark, (marks mark hof).mpr hmark, hof⟩
      · rw [hothers j hj]
    have hkept : ∀ j, ∀ mark ∈ (c'.thread j).marks, IsOf key address mark → mark ∈ (c.thread j).marks := by
      intro j mark hmark hof
      by_cases hj : j = i
      · subst hj
        exact (marks mark hof).mp hmark
      · rwa [hothers j hj] at hmark
    simp only [noWrite, Bool.false_eq_true, if_false, add_zero]
    refine ⟨hcontinues.sound, hmarks, fun hunborn => h.unborn (hborn hunborn), ?_, ?_, ?_, ?_, h.le⟩
    · intro hfree
      simp only [howes]
      obtain hgone | hsame | ⟨hunborn, -⟩ := audit
      · rw [hgone] at hfree
        simp at hfree
      · exact h.free (hsame ▸ hfree)
      · exact ⟨h.unborn hunborn, h.not_owes hunborn⟩
    · intro j mark hmark hof auditedAt haudit
      obtain hgone | hsame | ⟨-, hmade⟩ := audit
      · rw [hgone] at haudit
        simp at haudit
      · exact h.claimedAt j mark (hkept j mark hmark hof) hof auditedAt (hsame ▸ haudit)
      · rw [hmade] at haudit
        simp at haudit
    · simpa only [howes] using h.single
    · simpa only [howes] using h.settled
  | claim free audit marks noWrite _ =>
    obtain ⟨hwritten, hnone⟩ := h.free free
    have howner : ∀ j, (c'.thread j).Owes key address → j = i := by
      intro j hj
      by_contra hne
      rw [hothers j hne] at hj
      exact hnone j hj
    simp only [noWrite, Bool.false_eq_true, if_false, add_zero]
    refine ⟨hcontinues.sound, hmarks, fun hunborn => h.unborn (hborn hunborn), ?_, ?_, ?_, ?_, h.le⟩
    · intro hfree
      rw [hfree] at audit
      simp at audit
    · intro j mark hmark hof auditedAt haudit
      obtain rfl := howner j ⟨mark, hmark, hof⟩
      obtain hgone | htaken := audit
      · rw [hgone] at haudit
        simp at haudit
      · rw [htaken, Option.some_inj, Option.some_inj] at haudit
        rw [marks mark hmark, haudit]
    · intro j k hj hk
      rw [howner j hj, howner k hk]
    · exact fun hne => absurd hwritten hne
  | write audit owes marks isWrite _ =>
    obtain ⟨hwritten, hnone⟩ := h.not_owes_of_settled owes hothers marks
    simp only [isWrite, if_true, hwritten, zero_add]
    refine ⟨hcontinues.sound, hmarks, ?_, ?_, ?_, ?_, fun _ => hnone, le_rfl⟩
    · exact fun hunborn => absurd owes (h.not_owes (hborn hunborn) i)
    · intro hfree
      rw [audit] at hfree
      exact absurd owes ((h.free hfree).2 i)
    · exact fun j mark hmark hof => absurd ⟨mark, hmark, hof⟩ (hnone j)
    · exact fun j _ hj => absurd hj (hnone j)
  | release audit owes marks noWrite _ =>
    obtain ⟨hwritten, hnone⟩ := h.not_owes_of_settled owes hothers marks
    simp only [noWrite, Bool.false_eq_true, if_false, add_zero]
    refine ⟨hcontinues.sound, hmarks, fun _ => hwritten, fun _ => ⟨hwritten, hnone⟩, ?_, ?_, fun _ => hnone, h.le⟩
    · exact fun j mark hmark hof => absurd ⟨mark, hmark, hof⟩ (hnone j)
    · exact fun j _ hj => absurd hj (hnone j)

/-- Every run keeps the account, by one step after the other. -/
lemma Accounted.of_run (h : Accounted key address c now written)
    (hclock : schedule.Pairwise fun x y => x.2.time ≤ y.2.time) (hnow : ∀ x ∈ schedule, now ≤ x.2.time)
    (hrun : run lockoutStep c schedule = some c') {later : ℕ} (hlater : now ≤ later)
    (hall : ∀ x ∈ schedule, x.2.time ≤ later) :
    Continues later c.shared c'.shared ∧
      Accounted key address c' later (written + count lockoutStep (isWrite key address) c schedule) := by
  induction schedule generalizing c now written with
  | nil =>
    obtain rfl : c = c' := Option.some.inj hrun
    exact ⟨.refl (h.sound.mono hlater), h.mono hlater⟩
  | cons event schedule ih =>
    obtain ⟨i, e⟩ := event
    obtain ⟨next, hexec, hrest⟩ := Interleaving.run_cons_eq_some.mp hrun
    obtain ⟨hfirst, hclock⟩ := List.pairwise_cons.mp hclock
    obtain ⟨he, hall⟩ := List.forall_mem_cons.mp hall
    have hbefore := hnow _ List.mem_cons_self
    obtain ⟨hcontinues, hnext⟩ := ih (h.of_exec hbefore hexec) hclock hfirst hrest he hall
    refine ⟨(h.effect hbefore hexec).1.trans hcontinues, ?_⟩
    simpa only [count, hexec, Option.elim_some, add_assoc] using hnext

/-- A record without a mark gets none as long as its lock is not claimed. -/
lemma Accounted.stays_free (h : Accounted key address c now written) (hborn : address < c.shared.allocated)
    (hfree : ∀ mark ∈ c.shared.auditOf key address, mark = none)
    (hclock : schedule.Pairwise fun x y => x.2.time ≤ y.2.time) (hnow : ∀ x ∈ schedule, now ≤ x.2.time)
    (hrun : run lockoutStep c schedule = some c')
    (hclaims : count lockoutStep (isClaim key address) c schedule = 0) :
    ∀ mark ∈ c'.shared.auditOf key address, mark = none := by
  induction schedule generalizing c now written with
  | nil =>
    obtain rfl : c = c' := Option.some.inj hrun
    exact hfree
  | cons event schedule ih =>
    obtain ⟨i, e⟩ := event
    obtain ⟨next, hexec, hrest⟩ := Interleaving.run_cons_eq_some.mp hrun
    obtain ⟨hfirst, hclock⟩ := List.pairwise_cons.mp hclock
    have hbefore := hnow _ List.mem_cons_self
    simp only [count, hexec, Option.elim_some, Nat.add_eq_zero_iff] at hclaims
    obtain ⟨hclaim, hclaims⟩ := hclaims
    obtain ⟨hcontinues, -, -, heffect⟩ := h.effect hbefore hexec
    refine ih (h.of_exec hbefore hexec) (hborn.trans_le hcontinues.allocated) ?_ hclock hfirst hrest hclaims
    intro mark hmark
    cases heffect with
    | quiet audit _ _ _ =>
      obtain hgone | hsame | ⟨hunborn, -⟩ := audit
      · rw [hgone] at hmark
        simp at hmark
      · exact hfree mark (hsame ▸ hmark)
      · omega
    | claim _ _ _ _ claimed =>
      rw [claimed] at hclaim
      simp at hclaim
    | write audit _ _ _ _ => exact hfree mark (audit ▸ hmark)
    | release audit _ _ _ _ =>
      obtain hsame | hfreed := audit
      · exact hfree mark (hsame ▸ hmark)
      · rw [hfreed] at hmark
        exact (Option.some.inj hmark).symm

/-- The requests at rest have an account at every later time. -/
lemma accounted_of_run (key : String) (address : ℕ) (hrun : run lockoutStep (atRest ι) schedule = some c)
    (hclock : schedule.Pairwise fun x y => x.2.time ≤ y.2.time) (hall : ∀ x ∈ schedule, x.2.time ≤ now) :
    Accounted key address c now (count lockoutStep (isWrite key address) (atRest ι) schedule) := by
  have h := (accounted_atRest (ι := ι) key address).of_run hclock (fun _ _ => Nat.zero_le _) hrun
    (Nat.zero_le now) hall
  simpa only [zero_add] using h.2

omit [DecidableEq ι] in
/-- A clock that does not go back has a reading between the first steps and the rest. -/
lemma exists_reading (first rest : List (ι × TableEvent))
    (hclock : (first ++ rest).Pairwise fun x y => x.2.time ≤ y.2.time) :
    ∃ now, (∀ x ∈ first, x.2.time ≤ now) ∧ ∀ x ∈ rest, now ≤ x.2.time := by
  obtain rfl | ⟨init, last, rfl⟩ := List.eq_nil_or_concat' first
  · exact ⟨0, by simp, fun _ _ => Nat.zero_le _⟩
  · obtain ⟨hfirst, -, hrest⟩ := List.pairwise_append.mp hclock
    obtain ⟨-, -, hlast⟩ := List.pairwise_append.mp hfirst
    refine ⟨last.2.time, ?_, fun x hx => hrest last (by simp) x hx⟩
    intro x hx
    obtain hx | hx := List.mem_append.mp hx
    · exact hlast x hx last List.mem_cons_self
    · rw [List.mem_singleton.mp hx]

/-- A record is locked once: as long as it is there, its lock is the one it had. -/
theorem lockedAt_stays {first rest : List (ι × TableEvent)}
    (hfirst : run lockoutStep (atRest ι) first = some c) (hrest : run lockoutStep c rest = some c')
    (hclock : (first ++ rest).Pairwise fun x y => x.2.time ≤ y.2.time) {a b : LoginAttempt}
    (ha : c.shared.entries key = some (address, a)) (hb : c'.shared.entries key = some (address, b))
    {lockedAt : ℕ} (hlocked : lockedAt ∈ a.lockedAt) : lockedAt ∈ b.lockedAt := by
  obtain ⟨now, hbefore, hafter⟩ := exists_reading _ _ hclock
  obtain ⟨hclock, hclock', -⟩ := List.pairwise_append.mp hclock
  obtain ⟨later, hall, -⟩ := exists_reading rest [] (by rwa [List.append_nil])
  have h := accounted_of_run key address hfirst hclock hbefore
  obtain ⟨hcontinues, -⟩ := h.of_run hclock' hafter hrest (le_max_left now later) fun x hx =>
    (hall x hx).trans (le_max_right now later)
  obtain hnew | ⟨a', ha', hkept⟩ := hcontinues.locked key address b hb
  · exact absurd (h.sound key address a ha).1 (by omega)
  · obtain rfl : a = a' := by simpa [ha] using ha'
    exact hkept lockedAt hlocked

/-- A claim that is given back leaves the record without a mark. -/
lemma Accounted.free_of_release {mark : LockoutAuditMark}
    (h : Accounted mark.key mark.address c now written) (hnow : now ≤ e.time)
    (hmark : mark ∈ (c.thread i).marks) (hrelease : e.action = .releaseLockoutAudit)
    (hexec : exec lockoutStep c i e = some c') :
    ∀ audit ∈ c'.shared.auditOf mark.key mark.address, audit = none := by
  obtain ⟨t', th', hstep, rfl⟩ := Interleaving.exec_eq_some.mp hexec
  cases hthread : c.thread i with
  | idle => simp [hthread, AuditThread.marks] at hmark
  | claimed claim => simp [hthread, lockoutStep, hrelease] at hstep
  | unwritten claim =>
    obtain ⟨rfl, -⟩ : c.shared.releaseLockoutAudit claim = t' ∧ AuditThread.idle = th' := by
      simpa [hthread, lockoutStep, hrelease] using hstep
    have hsound := h.sound.mono hnow
    have hprevious : ∀ mark ∈ claim, mark.previous = none := fun mark hmark =>
      (h.marks i mark (by rwa [hthread])).1
    have hclaim : mark ∈ claim := by rwa [hthread] at hmark
    intro audit haudit
    dsimp only at haudit
    cases hbefore : c.shared.auditOf mark.key mark.address with
    | none =>
      -- a record that is gone does not come back
      obtain hsame | ⟨hfree, -⟩ := (release_spec hsound hprevious).2 mark.key mark.address
      · rw [hsame, hbefore] at haudit
        simp at haudit
      · rw [hfree] at haudit
        exact (Option.some.inj haudit).symm
    | some marked =>
      obtain ⟨a, hentry, rfl⟩ := auditOf_eq_some hbefore
      have hfree := release_frees hsound hprevious hclaim hentry fun auditedAt haudited =>
        h.claimedAt i mark hmark ⟨rfl, rfl⟩ auditedAt (by rw [hbefore, Option.mem_def.mp haudited])
      rw [hfree] at haudit
      exact (Option.some.inj haudit).symm

/-- For each lock of a key at most one row is written, and a lock whose claim was given back is claimed by
the next request that meets it: one from its address, or any one if it is the lock of the account. -/
theorem lockout_audited_once {ι : Type} [DecidableEq ι] (schedule : List (ι × TableEvent))
    (c : Config LoginAttempts AuditThread ι) (hrun : run lockoutStep (atRest ι) schedule = some c)
    (hclock : schedule.Pairwise fun x y => x.2.time ≤ y.2.time) :
    (∀ key address, count lockoutStep (isWrite key address) (atRest ι) schedule ≤ 1) ∧
      ∀ (first later : List (ι × TableEvent)) (i : ι) (e : TableEvent)
        (claimed released : Config LoginAttempts AuditThread ι) (mark : LockoutAuditMark),
        schedule = first ++ (i, e) :: later → run lockoutStep (atRest ι) first = some claimed →
        e.action = .releaseLockoutAudit → mark ∈ (claimed.thread i).marks →
        exec lockoutStep claimed i e = some released →
        count lockoutStep (isClaim mark.key mark.address) released later = 0 →
        ∀ (ip : String) (now : ℕ) (a : LoginAttempt), (∀ x ∈ schedule, x.2.time ≤ now) →
          c.shared.entries mark.key = some (mark.address, a) →
          (c.shared.isAttemptLocked mark.key now).1 = true →
          mark.key = ip ∨ mark.key = adminLoginAccountKey →
          ∃ again ∈ (c.shared.claimLockoutAudit ip now).1, IsOf mark.key mark.address again := by
  constructor
  · intro key address
    obtain ⟨now, hall, -⟩ := exists_reading schedule [] (by rwa [List.append_nil])
    exact (accounted_of_run key address hrun hclock hall).le
  · rintro first later i e claimed released mark rfl hfirst hrelease hmark hexec hclaims ip now a hall hentry
      hlocked hkey
    obtain ⟨between, hbefore, hafter⟩ := exists_reading _ _ hclock
    obtain ⟨hclock', hclockLater, -⟩ := List.pairwise_append.mp hclock
    obtain ⟨hlater, hclockLater⟩ := List.pairwise_cons.mp hclockLater
    have hclaimed := accounted_of_run mark.key mark.address hfirst hclock' hbefore
    have he := hafter (i, e) List.mem_cons_self
    have hreleased := hclaimed.of_exec he hexec
    have hborn : mark.address < released.shared.allocated :=
      (hclaimed.marks i mark hmark).2.trans_le (hclaimed.effect he hexec).1.allocated
    have hrest : run lockoutStep released later = some c := by
      rw [Interleaving.run_append, hfirst, Option.bind_some, Interleaving.run_cons_eq_some] at hrun
      obtain ⟨next, hnext, hrest⟩ := hrun
      obtain rfl := Option.some.inj (hexec.symm.trans hnext)
      exact hrest
    have hfree := hreleased.stays_free hborn (hclaimed.free_of_release he hmark hrelease hexec) hclockLater
      hlater hrest hclaims
    have hsound := (accounted_of_run mark.key mark.address hrun hclock hall).sound
    exact exists_mem_claimLockoutAudit hsound hentry hlocked
      (hfree _ (auditOf_of_entry hentry)) hkey

/-- Five failures from one address, and a claim whose row is not written. -/
def unwrittenClaim : List (Unit × TableEvent) :=
  (List.range 5).map (fun n => ((), ⟨n, .recordFailedAttemptFor "10.0.0.7" true⟩)) ++
    [((), ⟨5, .claimLockoutAudit "10.0.0.7"⟩), ((), ⟨6, .auditLog false⟩)]

/-- The claim is given back. -/
def releasedClaim : List (Unit × TableEvent) := unwrittenClaim ++ [((), ⟨7, .releaseLockoutAudit⟩)]

theorem lockedAt_stays_releasedClaim :
    ∃ c c' b, run lockoutStep (atRest Unit) unwrittenClaim = some c ∧
      run lockoutStep c [((), ⟨7, .releaseLockoutAudit⟩)] = some c' ∧
      c'.shared.entries "10.0.0.7" = some (0, b) ∧ 4 ∈ b.lockedAt := by
  have hfirst := (Option.some_get (x := run lockoutStep (atRest Unit) unwrittenClaim) rfl).symm
  have hclock : releasedClaim.Pairwise (fun x y => x.2.time ≤ y.2.time) := by decide
  refine ⟨_, _, ⟨5, some 4, some 4, none, by decide⟩, hfirst, (Option.some_get rfl).symm, rfl, ?_⟩
  exact @lockedAt_stays _ _ "10.0.0.7" 0 _ _ _ _ hfirst (Option.some_get rfl).symm hclock
    ⟨5, some 4, some 4, some 5, by decide⟩ _ rfl rfl _ rfl

theorem lockout_audited_once_releasedClaim :
    releasedClaim.Pairwise (fun x y => x.2.time ≤ y.2.time) ∧
      ∃ c, run lockoutStep (atRest Unit) releasedClaim = some c ∧
        ∃ again ∈ (c.shared.claimLockoutAudit "10.0.0.7" 8).1, IsOf "10.0.0.7" 0 again := by
  have hclock : releasedClaim.Pairwise (fun x y => x.2.time ≤ y.2.time) := by decide
  refine ⟨hclock, (run lockoutStep (atRest Unit) releasedClaim).get rfl, (Option.some_get _).symm, ?_⟩
  exact (lockout_audited_once releasedClaim _ (Option.some_get _).symm hclock).2 unwrittenClaim [] ()
    ⟨7, .releaseLockoutAudit⟩ ((run lockoutStep (atRest Unit) unwrittenClaim).get rfl) _
    ⟨"10.0.0.7", 0, none, 5⟩ rfl (Option.some_get _).symm rfl (by decide) (Option.some_get rfl).symm rfl
    "10.0.0.7" 8 _ (by decide) rfl (by decide) (.inl rfl)

end Runs

/-! ## Logins and password changes -/

section Requests

variable {checkPassword : String → String → Bool} {now : ℕ} {ok : Bool} {random : String}
  {s s' : AdminState}

/-- What a request owes to the audit log. -/
def Thread.audit : Thread → AuditThread
  | .login _ (.claimed claim) => .claimed claim
  | .change _ (.claimed claim) => .claimed claim
  | _ => .idle

/-- A step of a request as steps of the audit: none, one, or a write that fails and its release. -/
inductive AuditSteps (now : ℕ) (t : LoginAttempts) (th : AuditThread) (t' : LoginAttempts)
    (th' : AuditThread) : Prop where
  | none (table : t' = t) (same : th' = th)
  | one (action : TableAction) (h : lockoutStep ⟨now, action⟩ t th = some (t', th'))
  | failed (claim : List LockoutAuditMark) (claimed : th = .claimed claim)
      (table : t' = t.releaseLockoutAudit claim) (idle : th' = .idle)

/-- The audit of a claim is written, or the claim is given back. -/
lemma lockoutSteps_claimed (s : AdminState) (claim : List LockoutAuditMark) (ok : Bool) :
    AuditSteps now s.attempts (.claimed claim)
      (if ok then s else { s with attempts := s.attempts.releaseLockoutAudit claim }).attempts .idle := by
  cases ok with
  | true => exact .one (.auditLog true) rfl
  | false => exact .failed claim rfl rfl rfl

lemma processLogin_audit {r : LoginRequest} {stage stage' : LoginStage}
    (h : processLogin checkPassword now ok random s r stage = some (s', stage')) :
    AuditSteps now s.attempts (Thread.login r stage).audit s'.attempts (Thread.login r stage').audit := by
  cases stage with
  | arrived =>
    obtain ⟨rfl, rfl⟩ := Prod.mk.inj (Option.some.inj h)
    refine .one (.isLockedOut r.ip) ?_
    cases hlocked : (s.attempts.isLockedOut r.ip now).1 <;> rfl
  | lockedOut =>
    obtain ⟨rfl, rfl⟩ := Prod.mk.inj (Option.some.inj h)
    refine .one (.claimLockoutAudit r.ip) ?_
    cases hclaim : (s.attempts.claimLockoutAudit r.ip now).1 <;> simp [lockoutStep, Thread.audit, hclaim]
  | claimed claim =>
    obtain ⟨rfl, rfl⟩ := Prod.mk.inj (Option.some.inj h)
    exact lockoutSteps_claimed s claim ok
  | badForm =>
    obtain ⟨rfl, rfl⟩ := Prod.mk.inj (Option.some.inj h)
    exact .one (.recordFailedAttemptFor r.ip false) rfl
  | wrongUsername | unconfigured | rejected =>
    obtain ⟨rfl, rfl⟩ := Prod.mk.inj (Option.some.inj h)
    exact .one (.recordFailedAttemptFor r.ip true) rfl
  | audited =>
    obtain ⟨rfl, rfl⟩ := Prod.mk.inj (Option.some.inj h)
    exact .one (.resetAttempts r.ip) rfl
  | admitted | goodForm | comparing auth | created id =>
    obtain ⟨rfl, rfl⟩ := Prod.mk.inj (Option.some.inj h)
    refine .none rfl ?_
    split_ifs <;> rfl
  | reading =>
    obtain ⟨rfl, rfl⟩ := Prod.mk.inj (Option.some.inj h)
    refine .none rfl ?_
    split_ifs
    · rfl
    · cases s.auth <;> rfl
  | accepted auth =>
    rw [processLogin] at h
    split_ifs at h <;> obtain ⟨rfl, rfl⟩ := Prod.mk.inj (Option.some.inj h) <;> exact .none rfl rfl
  | unaudited id =>
    obtain ⟨rfl, rfl⟩ := Prod.mk.inj (Option.some.inj h)
    exact .none rfl rfl
  | finished => exact absurd h (by simp [processLogin])

lemma handlePasswordChange_audit {r : ChangeRequest} {stage stage' : ChangeStage}
    (h : handlePasswordChange checkPassword now ok random s r stage = some (s', stage')) :
    AuditSteps now s.attempts (Thread.change r stage).audit s'.attempts (Thread.change r stage').audit := by
  cases stage with
  | authorised =>
    obtain ⟨rfl, rfl⟩ := Prod.mk.inj (Option.some.inj h)
    refine .one (.isLockedOut r.ip) ?_
    cases hlocked : (s.attempts.isLockedOut r.ip now).1 <;> rfl
  | lockedOut =>
    obtain ⟨rfl, rfl⟩ := Prod.mk.inj (Option.some.inj h)
    refine .one (.claimLockoutAudit r.ip) ?_
    cases hclaim : (s.attempts.claimLockoutAudit r.ip now).1 <;> simp [lockoutStep, Thread.audit, hclaim]
  | claimed claim =>
    obtain ⟨rfl, rfl⟩ := Prod.mk.inj (Option.some.inj h)
    exact lockoutSteps_claimed s claim ok
  | rejected =>
    obtain ⟨rfl, rfl⟩ := Prod.mk.inj (Option.some.inj h)
    exact .one (.recordFailedAttemptFor r.ip true) rfl
  | committed replaced =>
    obtain ⟨rfl, rfl⟩ := Prod.mk.inj (Option.some.inj h)
    exact .one (.resetAttempts r.ip) rfl
  | arrived =>
    obtain ⟨rfl, rfl⟩ := Prod.mk.inj (Option.some.inj h)
    refine .none rfl ?_
    split_ifs <;> rfl
  | comparing auth =>
    obtain ⟨rfl, rfl⟩ := Prod.mk.inj (Option.some.inj h)
    refine .none rfl ?_
    split_ifs <;> rfl
  | admitted =>
    obtain ⟨rfl, rfl⟩ := Prod.mk.inj (Option.some.inj h)
    refine .none rfl ?_
    split_ifs
    · rfl
    · cases s.auth <;> rfl
  | accepted auth newHash =>
    rw [handlePasswordChange] at h
    split at h
    · split_ifs at h <;> obtain ⟨rfl, rfl⟩ := Prod.mk.inj (Option.some.inj h) <;> exact .none rfl rfl
    · obtain ⟨rfl, rfl⟩ := Prod.mk.inj (Option.some.inj h)
      exact .none rfl rfl
  | cleared replaced =>
    rw [handlePasswordChange] at h
    split_ifs at h <;> obtain ⟨rfl, rfl⟩ := Prod.mk.inj (Option.some.inj h) <;> exact .none rfl rfl
  | rotated replaced | finished => exact absurd h (by simp [handlePasswordChange])

lemma step_audit {e : Event} {th th' : Thread} (h : step checkPassword e s th = some (s', th')) :
    AuditSteps e.time s.attempts th.audit s'.attempts th'.audit := by
  obtain rfl | ⟨r, stage, stage', ok, random, rfl, rfl, hstep⟩ |
    ⟨r, stage, stage', ok, random, rfl, rfl, hstep⟩ := step_cases h
  · obtain ⟨now, action⟩ := e
    cases action with
    | next ok random => exact absurd h (by simp [step])
    | cleanupExpiredLoginAttempts =>
      obtain ⟨rfl, rfl⟩ := Prod.mk.inj (Option.some.inj h)
      exact .one (.cleanupExpiredLoginAttempts now) rfl
    | login r | change r | showLoginForm cookie id' token | visit cookie token | logout cookie csrf
      | cleanupExpiredSessions =>
      obtain ⟨rfl, rfl⟩ := Prod.mk.inj (Option.some.inj h)
      exact .none rfl rfl
  · exact processLogin_audit hstep
  · exact handlePasswordChange_audit hstep

variable {ι : Type} [DecidableEq ι]

/-- The table of failed logins and what the requests owe to the audit log. -/
def auditConfig (c : Config AdminState Thread ι) : Config LoginAttempts AuditThread ι :=
  ⟨c.shared.attempts, fun i => (c.thread i).audit⟩

lemma auditConfig_update (c : Config AdminState Thread ι) (s : AdminState) (i : ι) (th : Thread) :
    auditConfig ⟨s, Function.update c.thread i th⟩ =
      ⟨s.attempts, Function.update (auditConfig c).thread i th.audit⟩ := by
  unfold auditConfig
  congr 1
  funext j
  by_cases hj : j = i
  · subst hj
    simp
  · simp [Function.update_of_ne hj]

/-- The step of a request is a run of the audit at the same time. -/
lemma audit_run_of_exec {c c' : Config AdminState Thread ι} {i : ι} {e : Event}
    (h : exec (step checkPassword) c i e = some c') :
    ∃ actions : List TableAction,
      run lockoutStep (auditConfig c) (actions.map fun action => (i, ⟨e.time, action⟩)) = some (auditConfig c') := by
  obtain ⟨s', th', hstep, rfl⟩ := Interleaving.exec_eq_some.mp h
  rw [auditConfig_update]
  cases step_audit hstep with
  | none table same =>
    refine ⟨[], ?_⟩
    rw [table, same]
    exact congrArg some (by rw [show (c.thread i).audit = (auditConfig c).thread i from rfl,
      Function.update_eq_self]; rfl)
  | one action haction =>
    refine ⟨[action], ?_⟩
    have hexec : exec lockoutStep (auditConfig c) i ⟨e.time, action⟩ =
        some ⟨s'.attempts, Function.update (auditConfig c).thread i th'.audit⟩ :=
      Interleaving.exec_eq_some.mpr ⟨_, _, haction, rfl⟩
    rw [List.map_singleton, Interleaving.run_cons_eq_some]
    exact ⟨_, hexec, rfl⟩
  | failed claim claimed table idle =>
    refine ⟨[.auditLog false, .releaseLockoutAudit], ?_⟩
    have hwrite : exec lockoutStep (auditConfig c) i ⟨e.time, .auditLog false⟩ =
        some ⟨c.shared.attempts, Function.update (auditConfig c).thread i (.unwritten claim)⟩ :=
      Interleaving.exec_eq_some.mpr ⟨_, _, by simp [auditConfig, claimed, lockoutStep], rfl⟩
    rw [List.map_cons, List.map_singleton, Interleaving.run_cons_eq_some]
    refine ⟨_, hwrite, Interleaving.run_cons_eq_some.mpr ⟨_, ?_, rfl⟩⟩
    refine Interleaving.exec_eq_some.mpr ⟨s'.attempts, th'.audit, ?_, ?_⟩
    · simp [lockoutStep, table, idle]
    · simp [Function.update_idem]

/-- Every run of logins and password changes is one of requests that audit locks, on the same clock. -/
theorem audit_run_of_run {c c' : Config AdminState Thread ι} {schedule : List (ι × Event)}
    (h : run (step checkPassword) c schedule = some c')
    (hclock : schedule.Pairwise fun x y => x.2.time ≤ y.2.time) :
    ∃ audits : List (ι × TableEvent), run lockoutStep (auditConfig c) audits = some (auditConfig c') ∧
      (audits.Pairwise fun x y => x.2.time ≤ y.2.time) ∧
      ∀ x ∈ audits, ∃ y ∈ schedule, x.1 = y.1 ∧ x.2.time = y.2.time := by
  induction schedule generalizing c with
  | nil =>
    obtain rfl : c = c' := Option.some.inj h
    exact ⟨[], rfl, .nil, by simp⟩
  | cons event schedule ih =>
    obtain ⟨i, e⟩ := event
    obtain ⟨next, hexec, hrest⟩ := Interleaving.run_cons_eq_some.mp h
    obtain ⟨hfirst, hclock⟩ := List.pairwise_cons.mp hclock
    obtain ⟨actions, hactions⟩ := audit_run_of_exec hexec
    obtain ⟨audits, hrun, hsorted, hfrom⟩ := ih hrest hclock
    refine ⟨actions.map (fun action => (i, ⟨e.time, action⟩)) ++ audits, ?_, ?_, ?_⟩
    · rw [Interleaving.run_append, hactions, Option.bind_some, hrun]
    · refine List.pairwise_append.mpr ⟨?_, hsorted, ?_⟩
      · exact List.pairwise_map.mpr (List.pairwise_of_forall (fun _ _ => le_rfl))
      · intro x hx y hy
        obtain ⟨action, -, rfl⟩ := List.mem_map.mp hx
        obtain ⟨z, hz, -, htime⟩ := hfrom y hy
        rw [htime]
        exact hfirst z hz
    · intro x hx
      obtain hx | hx := List.mem_append.mp hx
      · obtain ⟨action, -, rfl⟩ := List.mem_map.mp hx
        exact ⟨(i, e), List.mem_cons_self, rfl, rfl⟩
      · obtain ⟨y, hy, hsame⟩ := hfrom x hx
        exact ⟨y, List.mem_cons_of_mem _ hy, hsame⟩

theorem audit_run_of_run_sixGuesses :
    ∃ c, ∃ audits : List (Fin 6 × TableEvent), run (step plainCheck) raceStart sixGuesses = some c ∧
      run lockoutStep (auditConfig raceStart) audits = some (auditConfig c) := by
  have hrun := (Option.some_get (x := run (step plainCheck) raceStart sixGuesses) (by decide)).symm
  obtain ⟨audits, haudits, -⟩ := audit_run_of_run hrun (by decide)
  exact ⟨_, audits, hrun, haudits⟩

end Requests

end Packmon.Admin

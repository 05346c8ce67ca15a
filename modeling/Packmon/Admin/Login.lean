import Packmon.Admin.LoginAttempts
import Packmon.Admin.Sessions
import Packmon.Library.Interleaving

/-!
# Logins and password changes

The requests of the administration as threads (`processLogin`, `HandlePasswordChange`).  Between two steps
of a request, others may take theirs: each step is one critical section of the table of failed logins or
of the sessions, or one transaction of the store, and the slow comparison of passwords is a step of its
own.

A revision counts the writes of the stored password.  A transaction of the store may fail, and so may the
source of random numbers.  The text of a hash, and which passwords it accepts, are parameters.
-/

namespace Packmon.Admin

open Interleaving (Config)

/-- The stored password. -/
structure AdminAuth where
  passwordHash : String
  passwordIsBootstrap : Bool
  revision : ℕ
  deriving DecidableEq

structure AdminState where
  auth : Option AdminAuth
  attempts : LoginAttempts
  sessions : SessionManager

structure LoginRequest where
  ip : String
  cookie : Option String
  csrf : String
  username : String
  password : String
  deriving DecidableEq

/-- Where a login is; each name says what was done. -/
inductive LoginStage where
  | arrived
  | lockedOut
  | claimed (claim : List LockoutAuditMark)
  | admitted
  | badForm
  | goodForm
  | wrongUsername
  | reading
  | unconfigured
  | comparing (auth : AdminAuth)
  | rejected
  | accepted (auth : AdminAuth)
  | created (id : String)
  | unaudited (id : String)
  | audited
  | finished
  deriving DecidableEq

structure ChangeRequest where
  ip : String
  cookie : Option String
  csrf : String
  currentPassword : String
  newPassword : String
  confirmPassword : String
  deriving DecidableEq

/-- Where a password change is; the later stages know the revision that was replaced. -/
inductive ChangeStage where
  | arrived
  | authorised
  | lockedOut
  | claimed (claim : List LockoutAuditMark)
  | admitted
  | comparing (auth : AdminAuth)
  | rejected
  | accepted (auth : AdminAuth) (newHash : String)
  | committed (replaced : ℕ)
  | cleared (replaced : ℕ)
  | rotated (replaced : ℕ)
  | finished
  deriving DecidableEq

inductive Thread where
  | idle
  | login (r : LoginRequest) (stage : LoginStage)
  | change (r : ChangeRequest) (stage : ChangeStage)
  deriving DecidableEq

/-- What happens at a step.  A step of a request may fail, and draws a random text. -/
inductive Action where
  | login (r : LoginRequest)
  | change (r : ChangeRequest)
  | next (ok : Bool) (random : String)
  | showLoginForm (cookie : Option String) (id token : String)
  | visit (cookie : Option String) (token : String)
  | logout (cookie : Option String) (csrf : String)
  | cleanupExpiredLoginAttempts
  | cleanupExpiredSessions

structure Event where
  time : ℕ
  action : Action

def minAdminPasswordLength : ℕ := 12

def maxAdminPasswordBytes : ℕ := 72

def validateAdminPassword (password : String) : Bool :=
  minAdminPasswordLength ≤ password.length && password.utf8ByteSize ≤ maxAdminPasswordBytes

/-- The transaction of a password change: only the password that was read is replaced. -/
def changeAdminPasswordWithAudit (auth : Option AdminAuth) (newHash expectedOldHash : String) :
    Option AdminAuth :=
  match auth with
  | none => none
  | some auth =>
    if auth.passwordHash = expectedOldHash then some ⟨newHash, false, auth.revision + 1⟩ else none

section Steps

variable (checkPassword : String → String → Bool) (now : ℕ) (ok : Bool) (random : String) (s : AdminState)

def processLogin (r : LoginRequest) : LoginStage → Option (AdminState × LoginStage)
  | .arrived =>
    let locked := s.attempts.isLockedOut r.ip now
    some ({ s with attempts := locked.2 }, if locked.1 then .lockedOut else .admitted)
  | .lockedOut =>
    let claim := s.attempts.claimLockoutAudit r.ip now
    some ({ s with attempts := claim.2 }, if claim.1.isEmpty then .finished else .claimed claim.1)
  | .claimed claim =>
    -- a claim whose audit is not written is given back
    some (if ok then s else { s with attempts := s.attempts.releaseLockoutAudit claim }, .finished)
  | .admitted =>
    let found := s.sessions.get r.cookie now
    some ({ s with sessions := found.2 },
      if found.1.any (validateCSRF r.csrf) then .goodForm else .badForm)
  | .badForm =>
    some ({ s with attempts := s.attempts.recordFailedAttemptFor r.ip false now }, .finished)
  | .goodForm =>
    some ({ s with sessions := s.sessions.delete r.cookie },
      if r.username ≠ "admin" then .wrongUsername else .reading)
  | .wrongUsername => some ({ s with attempts := s.attempts.recordFailedAttempt r.ip now }, .finished)
  | .reading =>
    some (s, if !ok then .finished else
      match s.auth with
      | none => .unconfigured
      | some auth => .comparing auth)
  | .unconfigured => some ({ s with attempts := s.attempts.recordFailedAttempt r.ip now }, .finished)
  | .comparing auth =>
    some (s, if checkPassword auth.passwordHash r.password then .accepted auth else .rejected)
  | .rejected => some ({ s with attempts := s.attempts.recordFailedAttempt r.ip now }, .finished)
  | .accepted auth =>
    if ok then
      some ({ s with sessions :=
        s.sessions.createAdmin random auth.passwordIsBootstrap false (some auth.revision) now },
        .created random)
    else some (s, .finished)
  | .created id => some (s, if ok then .audited else .unaudited id)
  | .unaudited id => some ({ s with sessions := s.sessions.deleteByID id }, .finished)
  | .audited => some ({ s with attempts := s.attempts.resetAttempts r.ip }, .finished)
  | .finished => none

def handlePasswordChange (r : ChangeRequest) : ChangeStage → Option (AdminState × ChangeStage)
  | .arrived =>
    let found := s.sessions.get r.cookie now
    some ({ s with sessions := found.2 },
      if found.1.any fun sess => sess.admin && validateCSRF r.csrf sess then .authorised else .finished)
  | .authorised =>
    let locked := s.attempts.isLockedOut r.ip now
    some ({ s with attempts := locked.2 }, if locked.1 then .lockedOut else .admitted)
  | .lockedOut =>
    let claim := s.attempts.claimLockoutAudit r.ip now
    some ({ s with attempts := claim.2 }, if claim.1.isEmpty then .finished else .claimed claim.1)
  | .claimed claim =>
    some (if ok then s else { s with attempts := s.attempts.releaseLockoutAudit claim }, .finished)
  | .admitted =>
    some (s, if r.newPassword ≠ r.confirmPassword ∨ !validateAdminPassword r.newPassword ∨ !ok
      then .finished
      else match s.auth with
        | none => .finished
        | some auth => .comparing auth)
  | .comparing auth =>
    some (s, if !checkPassword auth.passwordHash r.currentPassword then .rejected
      else if checkPassword auth.passwordHash r.newPassword ∨ !ok then .finished
      else .accepted auth random)
  | .rejected => some ({ s with attempts := s.attempts.recordFailedAttempt r.ip now }, .finished)
  | .accepted auth newHash =>
    match changeAdminPasswordWithAudit s.auth newHash auth.passwordHash, s.auth with
    | some changed, some replaced =>
      if ok then some ({ s with auth := some changed }, .committed replaced.revision)
      else some (s, .finished)
    | _, _ => some (s, .finished)
  | .committed replaced =>
    some ({ s with attempts := s.attempts.resetAttempts r.ip }, .cleared replaced)
  | .cleared replaced =>
    -- a session that cannot be made leaves none
    if ok then
      some ({ s with sessions := s.sessions.createAdmin random false true none now }, .rotated replaced)
    else some ({ s with sessions := s.sessions.deleteAdminSessions }, .finished)
  | .rotated _ => none
  | .finished => none

end Steps

/-- One step of a thread; requests that come without a step of their own find it idle. -/
def step (checkPassword : String → String → Bool) (e : Event) (s : AdminState) :
    Thread → Option (AdminState × Thread)
  | .idle =>
    match e.action with
    | .login r => some (s, .login r .arrived)
    | .change r => some (s, .change r .arrived)
    | .next _ _ => none
    | .showLoginForm cookie id token =>
      some ({ s with sessions := s.sessions.showLoginForm cookie id token e.time }, .idle)
    | .visit cookie token =>
      let found := s.sessions.get cookie e.time
      some ({ s with sessions := cookie.elim found.2 (found.2.makeCSRFToken · token) }, .idle)
    | .logout cookie csrf =>
      let found := s.sessions.get cookie e.time
      some ({ s with sessions :=
        if found.1.any (validateCSRF csrf) then found.2.delete cookie else found.2 }, .idle)
    | .cleanupExpiredLoginAttempts =>
      some ({ s with attempts := s.attempts.cleanupExpiredLoginAttempts e.time }, .idle)
    | .cleanupExpiredSessions =>
      some ({ s with sessions := s.sessions.cleanupExpiredSessions e.time }, .idle)
  | .login r stage =>
    match e.action with
    | .next ok random => (processLogin checkPassword e.time ok random s r stage).map fun result =>
        (result.1, .login r result.2)
    | _ => none
  | .change r stage =>
    match e.action with
    | .next ok random => (handlePasswordChange checkPassword e.time ok random s r stage).map fun result =>
        (result.1, .change r result.2)
    | _ => none

section

variable {checkPassword : String → String → Bool} {e : Event} {s s' : AdminState} {t t' : Thread}

/-- The steps of a login and of a password change are those of their functions. -/
lemma step_cases (h : step checkPassword e s t = some (s', t')) :
    t = .idle ∨
      (∃ r stage stage' ok random, t = .login r stage ∧ t' = .login r stage' ∧
        processLogin checkPassword e.time ok random s r stage = some (s', stage')) ∨
      ∃ r stage stage' ok random, t = .change r stage ∧ t' = .change r stage' ∧
        handlePasswordChange checkPassword e.time ok random s r stage = some (s', stage') := by
  obtain ⟨now, action⟩ := e
  cases t with
  | idle => exact .inl rfl
  | login r stage =>
    cases action with
    | next ok random =>
      obtain ⟨⟨next, stage'⟩, hnext, heq⟩ := Option.map_eq_some_iff.mp h
      obtain ⟨rfl, rfl⟩ := Prod.mk.inj heq
      exact .inr (.inl ⟨r, stage, stage', ok, random, rfl, rfl, hnext⟩)
    | _ => exact absurd h (by simp [step])
  | change r stage =>
    cases action with
    | next ok random =>
      obtain ⟨⟨next, stage'⟩, hnext, heq⟩ := Option.map_eq_some_iff.mp h
      obtain ⟨rfl, rfl⟩ := Prod.mk.inj heq
      exact .inr (.inr ⟨r, stage, stage', ok, random, rfl, rfl, hnext⟩)
    | _ => exact absurd h (by simp [step])

end

end Packmon.Admin

import Packmon.Admin.Lockout

/-!
# Password changes and the sessions of the old password

A password change commits the new password and then removes all sessions of administrators but its own.
A login reads the stored password, compares it and inserts its session in three steps, so one that has
read the old password may insert its session after the others were removed.

After a password change no session of the old password is found if and only if, at the time the sessions
are removed, no login is about to insert one (`passwordChange_revokes_iff`).
-/

namespace Packmon.Admin

open Interleaving (Config run exec)

/-- The login has read this revision of the password and is not refused by it, and its session is still
to come. -/
def LoginStage.holds (checkPassword : String → String → Bool) (revision : ℕ) (r : LoginRequest) :
    LoginStage → Bool
  | .comparing auth => auth.revision = revision && checkPassword auth.passwordHash r.password
  | .accepted auth => auth.revision = revision
  | _ => false

def Thread.holds (checkPassword : String → String → Bool) (revision : ℕ) : Thread → Bool
  | .login r stage => stage.holds checkPassword revision r
  | _ => false

/-- The revision that a password change has replaced, once it is committed. -/
def ChangeStage.replaced : ChangeStage → Option ℕ
  | .committed revision | .cleared revision | .rotated revision => some revision
  | _ => none

def Thread.replaced : Thread → Option ℕ
  | .change _ stage => stage.replaced
  | _ => none

/-- The revision is not the stored one any more. -/
def AdminState.IsPast (s : AdminState) (revision : ℕ) : Prop := ∀ a ∈ s.auth, revision < a.revision

/-! ## What a step does to the stored password and to the sessions -/

section Steps

variable {checkPassword : String → String → Bool} {e : Event} {s s' : AdminState} {t t' : Thread}
  {now revision : ℕ} {ok : Bool} {random : String}

/-- A login does not change the stored password. -/
lemma processLogin_auth {r : LoginRequest} {stage stage' : LoginStage}
    (h : processLogin checkPassword now ok random s r stage = some (s', stage')) : s'.auth = s.auth := by
  cases stage with
  | accepted auth =>
    rw [processLogin] at h
    split_ifs at h
    · obtain ⟨rfl, rfl⟩ := Prod.mk.inj (Option.some.inj h)
      rfl
    · obtain ⟨rfl, rfl⟩ := Prod.mk.inj (Option.some.inj h)
      rfl
  | claimed claim =>
    obtain ⟨rfl, rfl⟩ := Prod.mk.inj (Option.some.inj h)
    split_ifs <;> rfl
  | finished => exact absurd h (by simp [processLogin])
  | _ =>
    obtain ⟨rfl, rfl⟩ := Prod.mk.inj (Option.some.inj h)
    rfl

/-- A login that does not hold a past revision does not get hold of it, nor make a session of it. -/
lemma processLogin_rotated {r : LoginRequest} {stage stage' : LoginStage}
    (h : processLogin checkPassword now ok random s r stage = some (s', stage'))
    (hpast : s.IsPast revision) (hholds : stage.holds checkPassword revision r = false) :
    stage'.holds checkPassword revision r = false ∧
      (s.sessions.Revoked revision → s'.sessions.Revoked revision) := by
  cases stage with
  | arrived | lockedOut | badForm | wrongUsername | unconfigured | rejected | audited =>
    obtain ⟨rfl, rfl⟩ := Prod.mk.inj (Option.some.inj h)
    refine ⟨?_, id⟩
    first | rfl | (split_ifs <;> rfl)
  | claimed claim =>
    obtain ⟨rfl, rfl⟩ := Prod.mk.inj (Option.some.inj h)
    refine ⟨rfl, fun hrevoked => ?_⟩
    split_ifs <;> exact hrevoked
  | admitted =>
    obtain ⟨rfl, rfl⟩ := Prod.mk.inj (Option.some.inj h)
    refine ⟨?_, fun hrevoked => hrevoked.get _ _⟩
    split_ifs <;> rfl
  | goodForm =>
    obtain ⟨rfl, rfl⟩ := Prod.mk.inj (Option.some.inj h)
    refine ⟨?_, fun hrevoked => hrevoked.delete _⟩
    split_ifs <;> rfl
  | reading =>
    obtain ⟨rfl, rfl⟩ := Prod.mk.inj (Option.some.inj h)
    refine ⟨?_, id⟩
    -- the password that is read is the stored one
    split_ifs
    · rfl
    · cases hauth : s.auth with
      | none => rfl
      | some auth =>
        have hlt := hpast auth hauth
        simp [LoginStage.holds, hlt.ne']
  | comparing auth =>
    obtain ⟨rfl, rfl⟩ := Prod.mk.inj (Option.some.inj h)
    refine ⟨?_, id⟩
    split_ifs with hcheck
    · simpa [LoginStage.holds, hcheck] using hholds
    · rfl
  | accepted auth =>
    rw [processLogin] at h
    split_ifs at h
    · obtain ⟨rfl, rfl⟩ := Prod.mk.inj (Option.some.inj h)
      refine ⟨rfl, fun hrevoked => hrevoked.createAdmin ?_ _⟩
      simpa [LoginStage.holds] using hholds
    · obtain ⟨rfl, rfl⟩ := Prod.mk.inj (Option.some.inj h)
      exact ⟨rfl, id⟩
  | created session =>
    obtain ⟨rfl, rfl⟩ := Prod.mk.inj (Option.some.inj h)
    refine ⟨?_, id⟩
    split_ifs <;> rfl
  | unaudited id =>
    obtain ⟨rfl, rfl⟩ := Prod.mk.inj (Option.some.inj h)
    exact ⟨rfl, fun hrevoked => hrevoked.delete (some id)⟩
  | finished => exact absurd h (by simp [processLogin])

/-- A password change replaces the password that is stored, once. -/
lemma handlePasswordChange_auth {r : ChangeRequest} {stage stage' : ChangeStage}
    (h : handlePasswordChange checkPassword now ok random s r stage = some (s', stage')) :
    (s'.auth = s.auth ∧ ∀ replaced, stage'.replaced = some replaced → stage.replaced = some replaced) ∨
      ∃ a a', s.auth = some a ∧ s'.auth = some a' ∧ a'.revision = a.revision + 1 ∧
        stage'.replaced = some a.revision := by
  cases stage with
  | arrived | authorised | lockedOut | comparing auth =>
    obtain ⟨rfl, rfl⟩ := Prod.mk.inj (Option.some.inj h)
    refine .inl ⟨rfl, ?_⟩
    split_ifs <;> simp [ChangeStage.replaced]
  | admitted =>
    obtain ⟨rfl, rfl⟩ := Prod.mk.inj (Option.some.inj h)
    refine .inl ⟨rfl, ?_⟩
    split_ifs
    · simp [ChangeStage.replaced]
    · cases s.auth <;> simp [ChangeStage.replaced]
  | rejected | committed replaced =>
    obtain ⟨rfl, rfl⟩ := Prod.mk.inj (Option.some.inj h)
    exact .inl ⟨rfl, by simp [ChangeStage.replaced]⟩
  | claimed claim =>
    obtain ⟨rfl, rfl⟩ := Prod.mk.inj (Option.some.inj h)
    refine .inl ⟨?_, by simp [ChangeStage.replaced]⟩
    split_ifs <;> rfl
  | accepted auth newHash =>
    rw [handlePasswordChange] at h
    split at h
    case _ changed stored hchanged hstored =>
      split_ifs at h
      · obtain ⟨rfl, rfl⟩ := Prod.mk.inj (Option.some.inj h)
        refine .inr ⟨stored, changed, hstored, rfl, ?_, rfl⟩
        rw [hstored, changeAdminPasswordWithAudit] at hchanged
        split_ifs at hchanged
        obtain rfl := Option.some.inj hchanged
        rfl
      · obtain ⟨rfl, rfl⟩ := Prod.mk.inj (Option.some.inj h)
        exact .inl ⟨rfl, by simp [ChangeStage.replaced]⟩
    case _ =>
      obtain ⟨rfl, rfl⟩ := Prod.mk.inj (Option.some.inj h)
      exact .inl ⟨rfl, by simp [ChangeStage.replaced]⟩
  | cleared replaced =>
    rw [handlePasswordChange] at h
    split_ifs at h
    · obtain ⟨rfl, rfl⟩ := Prod.mk.inj (Option.some.inj h)
      exact .inl ⟨rfl, by simp [ChangeStage.replaced]⟩
    · obtain ⟨rfl, rfl⟩ := Prod.mk.inj (Option.some.inj h)
      exact .inl ⟨rfl, by simp [ChangeStage.replaced]⟩
  | rotated replaced | finished => exact absurd h (by simp [handlePasswordChange])

lemma handlePasswordChange_revoked {r : ChangeRequest} {stage stage' : ChangeStage}
    (h : handlePasswordChange checkPassword now ok random s r stage = some (s', stage'))
    (hrevoked : s.sessions.Revoked revision) : s'.sessions.Revoked revision := by
  cases stage with
  | arrived =>
    obtain ⟨rfl, rfl⟩ := Prod.mk.inj (Option.some.inj h)
    exact hrevoked.get _ _
  | authorised | lockedOut | admitted | comparing auth | rejected | committed replaced =>
    obtain ⟨rfl, rfl⟩ := Prod.mk.inj (Option.some.inj h)
    exact hrevoked
  | claimed claim =>
    obtain ⟨rfl, rfl⟩ := Prod.mk.inj (Option.some.inj h)
    split_ifs <;> exact hrevoked
  | accepted auth newHash =>
    rw [handlePasswordChange] at h
    split at h
    · split_ifs at h
      · obtain ⟨rfl, rfl⟩ := Prod.mk.inj (Option.some.inj h)
        exact hrevoked
      · obtain ⟨rfl, rfl⟩ := Prod.mk.inj (Option.some.inj h)
        exact hrevoked
    · obtain ⟨rfl, rfl⟩ := Prod.mk.inj (Option.some.inj h)
      exact hrevoked
  | cleared replaced =>
    rw [handlePasswordChange] at h
    split_ifs at h
    · obtain ⟨rfl, rfl⟩ := Prod.mk.inj (Option.some.inj h)
      exact hrevoked.createAdmin (by simp) _
    · obtain ⟨rfl, rfl⟩ := Prod.mk.inj (Option.some.inj h)
      exact hrevoked.filter _
  | rotated replaced | finished => exact absurd h (by simp [handlePasswordChange])

lemma step_idle_auth (h : step checkPassword e s .idle = some (s', t')) :
    s'.auth = s.auth ∧ t'.replaced = none := by
  obtain ⟨now, action⟩ := e
  cases action with
  | next ok random => exact absurd h (by simp [step])
  | _ =>
    obtain ⟨rfl, rfl⟩ := Prod.mk.inj (Option.some.inj h)
    exact ⟨rfl, rfl⟩

/-- A step of an idle thread removes and touches sessions of administrators only. -/
lemma step_idle_rotated (h : step checkPassword e s .idle = some (s', t')) :
    t'.holds checkPassword revision = false ∧
      (s.sessions.Revoked revision → s'.sessions.Revoked revision) := by
  obtain ⟨now, action⟩ := e
  cases action with
  | next ok random => exact absurd h (by simp [step])
  | login r | change r | cleanupExpiredLoginAttempts =>
    obtain ⟨rfl, rfl⟩ := Prod.mk.inj (Option.some.inj h)
    exact ⟨rfl, id⟩
  | showLoginForm cookie id token =>
    obtain ⟨rfl, rfl⟩ := Prod.mk.inj (Option.some.inj h)
    exact ⟨rfl, fun hrevoked => hrevoked.showLoginForm cookie token now⟩
  | visit cookie token =>
    obtain ⟨rfl, rfl⟩ := Prod.mk.inj (Option.some.inj h)
    refine ⟨rfl, fun hrevoked => ?_⟩
    cases cookie with
    | none => exact hrevoked.get none now
    | some id => exact (hrevoked.get (some id) now).makeCSRFToken token
  | logout cookie csrf =>
    obtain ⟨rfl, rfl⟩ := Prod.mk.inj (Option.some.inj h)
    refine ⟨rfl, fun hrevoked => ?_⟩
    dsimp only
    split_ifs
    · exact (hrevoked.get cookie now).delete cookie
    · exact hrevoked.get cookie now
  | cleanupExpiredSessions =>
    obtain ⟨rfl, rfl⟩ := Prod.mk.inj (Option.some.inj h)
    exact ⟨rfl, fun hrevoked => hrevoked.filter _⟩

/-- What was replaced is not stored again. -/
lemma step_isPast (h : step checkPassword e s t = some (s', t')) (hpast : s.IsPast revision) :
    s'.IsPast revision := by
  have hkept : s'.auth = s.auth → s'.IsPast revision := by
    intro hauth
    unfold AdminState.IsPast
    rw [hauth]
    exact hpast
  obtain rfl | ⟨r, stage, stage', ok, random, rfl, rfl, hstep⟩ |
    ⟨r, stage, stage', ok, random, rfl, rfl, hstep⟩ := step_cases h
  · exact hkept (step_idle_auth h).1
  · exact hkept (processLogin_auth hstep)
  · obtain ⟨hauth, -⟩ | ⟨a, a', hauth, hauth', hrevision, -⟩ := handlePasswordChange_auth hstep
    · exact hkept hauth
    · intro b hb
      rw [hauth'] at hb
      obtain rfl := Option.some.inj hb
      have := hpast a hauth
      omega

/-- What a password change has replaced is past. -/
lemma step_replaced (h : step checkPassword e s t = some (s', t'))
    (hpast : ∀ revision, t.replaced = some revision → s.IsPast revision)
    (hreplaced : t'.replaced = some revision) : s'.IsPast revision := by
  obtain rfl | ⟨r, stage, stage', ok, random, rfl, rfl, hstep⟩ |
    ⟨r, stage, stage', ok, random, rfl, rfl, hstep⟩ := step_cases h
  · rw [(step_idle_auth h).2] at hreplaced
    exact absurd hreplaced (by simp)
  · exact absurd hreplaced (by simp [Thread.replaced])
  · obtain ⟨-, hbefore⟩ | ⟨a, a', -, hauth', hrevision, hnew⟩ := handlePasswordChange_auth hstep
    · exact step_isPast h (hpast revision (hbefore revision hreplaced))
    · intro b hb
      rw [hauth'] at hb
      obtain rfl := Option.some.inj hb
      obtain rfl : a.revision = revision := Option.some.inj (hnew.symm.trans hreplaced)
      omega

end Steps

/-! ## Runs -/

section Runs

variable {checkPassword : String → String → Bool} {ι : Type} [DecidableEq ι]
  {c c' : Config AdminState Thread ι} {revision : ℕ}

/-- What any password change has replaced is past. -/
def ReplacedPast (c : Config AdminState Thread ι) : Prop :=
  ∀ i revision, (c.thread i).replaced = some revision → c.shared.IsPast revision

lemma ReplacedPast.of_exec {i : ι} {e : Event} (h : ReplacedPast c)
    (hexec : exec (step checkPassword) c i e = some c') : ReplacedPast c' := by
  obtain ⟨s', t', hstep, rfl⟩ := Interleaving.exec_eq_some.mp hexec
  refine (Function.forall_update_iff c.thread fun _ t =>
    ∀ revision, t.replaced = some revision → s'.IsPast revision).mpr ⟨?_, ?_⟩
  · intro revision hreplaced
    exact step_replaced hstep (h i) hreplaced
  · intro j _ revision hreplaced
    exact step_isPast hstep (h j revision hreplaced)

/-- The revision is past, no login holds it, and no session of an administrator comes from it. -/
structure Rotated (checkPassword : String → String → Bool) (revision : ℕ)
    (c : Config AdminState Thread ι) : Prop where
  past : c.shared.IsPast revision
  unheld : ∀ i, (c.thread i).holds checkPassword revision = false
  revoked : c.shared.sessions.Revoked revision

lemma Rotated.of_exec {i : ι} {e : Event} (h : Rotated checkPassword revision c)
    (hexec : exec (step checkPassword) c i e = some c') : Rotated checkPassword revision c' := by
  obtain ⟨s', t', hstep, rfl⟩ := Interleaving.exec_eq_some.mp hexec
  have hstepped : t'.holds checkPassword revision = false ∧ s'.sessions.Revoked revision := by
    have hheld := h.unheld i
    obtain hidle | ⟨r, stage, stage', ok, random, hlogin, rfl, hnext⟩ |
      ⟨r, stage, stage', ok, random, hchange, rfl, hnext⟩ := step_cases hstep
    · rw [hidle] at hstep
      obtain ⟨hholds, hrevoked⟩ := step_idle_rotated hstep
      exact ⟨hholds, hrevoked h.revoked⟩
    · rw [hlogin] at hheld
      obtain ⟨hholds, hrevoked⟩ := processLogin_rotated hnext h.past hheld
      exact ⟨hholds, hrevoked h.revoked⟩
    · exact ⟨rfl, handlePasswordChange_revoked hnext h.revoked⟩
  exact ⟨step_isPast hstep h.past,
    (Function.forall_update_iff c.thread fun _ t => t.holds checkPassword revision = false).mpr
      ⟨hstepped.1, fun j _ => h.unheld j⟩, hstepped.2⟩

/-- Removing the sessions rotates a password that no login holds. -/
lemma Rotated.of_cleared (hpast : c.shared.IsPast revision)
    (hunheld : ∀ i, (c.thread i).holds checkPassword revision = false) {j : ι} {r : ChangeRequest}
    (hj : c.thread j = .change r (.cleared revision)) {now : ℕ} {random : String}
    (hexec : exec (step checkPassword) c j ⟨now, .next true random⟩ = some c') :
    Rotated checkPassword revision c' := by
  obtain ⟨s', t', hstep, rfl⟩ := Interleaving.exec_eq_some.mp hexec
  have hpast' := step_isPast hstep hpast
  rw [hj] at hstep
  obtain ⟨rfl, rfl⟩ := Prod.mk.inj (Option.some.inj hstep)
  exact ⟨hpast',
    (Function.forall_update_iff c.thread fun _ t => t.holds checkPassword revision = false).mpr
      ⟨rfl, fun i _ => hunheld i⟩, SessionManager.revoked_createAdmin_exclusive _ _⟩

/-- A session of the revision is found at some time. -/
def FindsSession (c : Config AdminState Thread ι) (revision now : ℕ) : Prop :=
  ∃ cookie sess, (c.shared.sessions.get cookie now).1 = some sess ∧ sess.admin ∧
    sess.checkedRevision = some revision

/-- An accepted login makes its session, whatever is left of the others. -/
lemma findsSession_of_accepted (checkPassword : String → String → Bool) {i : ι} {r : LoginRequest}
    {auth : AdminAuth}
    (hi : c.thread i = .login r (.accepted auth)) (now : ℕ) :
    ∃ c', exec (step checkPassword) c i ⟨now, .next true "session"⟩ = some c' ∧
      FindsSession c' auth.revision now := by
  refine ⟨_, by rw [exec, hi]; rfl, some "session", ?_⟩
  exact SessionManager.get_createAdmin _ _ _ _

/-- A login that holds a revision gets to a session of it. -/
lemma findsSession_of_holds {i : ι} (hi : (c.thread i).holds checkPassword revision) (now : ℕ) :
    ∃ later : List (ι × Event), (∀ x ∈ later, x.2.time = now) ∧
      ∃ c', run (step checkPassword) c later = some c' ∧ FindsSession c' revision now := by
  cases hthread : c.thread i with
  | idle | change r stage => simp [hthread, Thread.holds] at hi
  | login r stage =>
    rw [hthread] at hi
    cases stage with
    | comparing auth =>
      simp only [Thread.holds, LoginStage.holds, Bool.and_eq_true, decide_eq_true_eq] at hi
      obtain ⟨rfl, hcheck⟩ := hi
      have hcompare : exec (step checkPassword) c i ⟨now, .next true "session"⟩ =
          some ⟨c.shared, Function.update c.thread i (.login r (.accepted auth))⟩ := by
        simp [exec, hthread, step, processLogin, hcheck]
      have haccepted : (⟨c.shared, Function.update c.thread i (.login r (.accepted auth))⟩ :
          Config AdminState Thread ι).thread i = .login r (.accepted auth) := Function.update_self _ _ _
      obtain ⟨c', hexec, hfinds⟩ := findsSession_of_accepted checkPassword haccepted now
      refine ⟨[(i, ⟨now, .next true "session"⟩), (i, ⟨now, .next true "session"⟩)], by simp, c', ?_, hfinds⟩
      rw [run, hcompare, Option.bind_some, run, hexec, Option.bind_some, run]
    | accepted auth =>
      simp only [Thread.holds, LoginStage.holds, decide_eq_true_eq] at hi
      subst hi
      obtain ⟨c', hexec, hfinds⟩ := findsSession_of_accepted checkPassword hthread now
      exact ⟨[(i, ⟨now, .next true "session"⟩)], by simp, c', by rw [run, hexec, Option.bind_some, run],
        hfinds⟩
    | _ => simp [Thread.holds, LoginStage.holds] at hi

end Runs

/-! ## A change and a login -/

section Race

def rotationStart : Config AdminState Thread (Fin 3) :=
  initial 3 (some ⟨"old password", false, 0⟩)
    ⟨fun _ => none, 8 * 60 * 60 * 1000000000, loginLockoutDuration⟩

/-- Some steps of one request. -/
def steps (i : Fin 3) (random : String) (k : ℕ) : List (Fin 3 × Event) :=
  List.replicate k (i, ⟨1, .next true random⟩)

/-- The login form and a login with the first password, up to its session. -/
def beginLogin (i : Fin 3) (form : String) : List (Fin 3 × Event) :=
  [(i, ⟨1, .showLoginForm none form "token"⟩),
    (i, ⟨1, .login ⟨"10.0.0.1", some form, "token", "admin", "old password"⟩⟩)] ++ steps i "" 5

/-- The session, the audit and the failures. -/
def endLogin (i : Fin 3) (session : String) : List (Fin 3 × Event) := steps i session 3

def passwordChange : ChangeRequest :=
  ⟨"10.0.0.1", some "first", "csrf", "old password", "new password", "new password"⟩

/-- An administrator changes the password, up to the time the sessions are removed. -/
def beginChange : List (Fin 3 × Event) :=
  [(1, ⟨1, .visit (some "first") "csrf"⟩), (1, ⟨1, .change passwordChange⟩)] ++ steps 1 "new password" 6

/-- A login, and then a password change. -/
def changeAfterLogin : List (Fin 3 × Event) := beginLogin 0 "form" ++ endLogin 0 "first" ++ beginChange

/-- A second login is accepted before the password change and makes its session after it. -/
def changeDuringLogin : List (Fin 3 × Event) :=
  beginLogin 0 "form" ++ endLogin 0 "first" ++ beginLogin 2 "other form" ++ beginChange ++
    steps 1 "new session" 1 ++ endLogin 2 "old session"

lemma changeAfterLogin_run :
    ∃ c, run (step plainCheck) rotationStart changeAfterLogin = some c ∧
      c.thread 1 = .change passwordChange (.cleared 0) ∧
      ∀ i, (c.thread i).holds plainCheck 0 = false := by
  have hrun : (run (step plainCheck) rotationStart changeAfterLogin).any (fun c =>
      c.thread 1 = .change passwordChange (.cleared 0) ∧
        ∀ i, (c.thread i).holds plainCheck 0 = false) := by
    decide
  obtain ⟨c, hc, hholds⟩ := (Option.any_eq_true _ _).mp hrun
  exact ⟨c, hc, of_decide_eq_true hholds⟩

end Race

/-- From the time a committed password change removes the sessions on, no session of the password it
replaced is found, if and only if no login holds that password then. -/
theorem passwordChange_revokes_iff {checkPassword : String → String → Bool} {n : ℕ}
    {auth : Option AdminAuth} {sessions : SessionManager} {schedule : List (Fin n × Event)}
    {c : Config AdminState Thread (Fin n)}
    (hrun : run (step checkPassword) (initial n auth sessions) schedule = some c)
    {j : Fin n} {r : ChangeRequest} {revision : ℕ}
    (hj : c.thread j = .change r (.cleared revision)) (now : ℕ) (random : String) :
    (∀ (later : List (Fin n × Event)) (c' : Config AdminState Thread (Fin n)) (time : ℕ),
      later.Pairwise (fun x y => x.2.time ≤ y.2.time) → (∀ x ∈ later, now ≤ x.2.time ∧ x.2.time ≤ time) →
      run (step checkPassword) c ((j, ⟨now, .next true random⟩) :: later) = some c' →
      ¬ FindsSession c' revision time) ↔
    ∀ i, (c.thread i).holds checkPassword revision = false := by
  constructor
  · intro hrevoked i
    by_contra hi
    rw [Bool.not_eq_false] at hi
    have hij : i ≠ j := by
      rintro rfl
      rw [hj] at hi
      exact absurd hi (by simp [Thread.holds])
    -- the sessions are removed, and then the login goes on
    obtain ⟨c₁, hexec, hthread⟩ : ∃ c₁, exec (step checkPassword) c j ⟨now, .next true random⟩ = some c₁ ∧
        c₁.thread i = c.thread i :=
      ⟨_, by rw [exec, hj]; rfl, Function.update_of_ne hij _ _⟩
    rw [← hthread] at hi
    obtain ⟨later, htime, c', hlater, hfinds⟩ := findsSession_of_holds hi now
    refine hrevoked later c' now ?_ (fun x hx => ⟨(htime x hx).ge, (htime x hx).le⟩) ?_ hfinds
    · exact List.pairwise_of_forall_mem_list fun x hx y hy => ((htime x hx).trans (htime y hy).symm).le
    · exact Interleaving.run_cons_eq_some.mpr ⟨c₁, hexec, hlater⟩
  · intro hunheld later c' time _ _ hlater
    rintro ⟨cookie, sess, hget, hadmin, hchecked⟩
    have hpast : ReplacedPast c := by
      refine Interleaving.run_invariant (fun _ _ _ _ h hexec => h.of_exec hexec) ?_ hrun
      intro i revision hreplaced
      exact absurd hreplaced (by simp [initial, Thread.replaced])
    obtain ⟨c₁, hexec, hrest⟩ := Interleaving.run_cons_eq_some.mp hlater
    have hrotated := Rotated.of_cleared (hpast j revision (by rw [hj]; rfl)) hunheld hj hexec
    have hrotated' : Rotated checkPassword revision c' :=
      Interleaving.run_invariant (fun _ _ _ _ h hexec => h.of_exec hexec) hrotated hrest
    obtain ⟨id, s, hs, hsadmin, hschecked⟩ := SessionManager.mem_sessions_of_get hget
    exact hrotated'.revoked id s hs (hsadmin.trans hadmin) (hschecked.trans hchecked)

/-- A password change after the login of the administrator revokes all sessions of the old password. -/
theorem passwordChange_revokes_after_login :
    ∃ c : Config AdminState Thread (Fin 3),
      run (step plainCheck) rotationStart changeAfterLogin = some c ∧
      c.thread 1 = .change passwordChange (.cleared 0) ∧
      ∀ (later : List (Fin 3 × Event)) (c' : Config AdminState Thread (Fin 3)) (time : ℕ),
        later.Pairwise (fun x y => x.2.time ≤ y.2.time) → (∀ x ∈ later, 2 ≤ x.2.time ∧ x.2.time ≤ time) →
        run (step plainCheck) c ((1, ⟨2, .next true "new session"⟩) :: later) = some c' →
        ¬ FindsSession c' 0 time := by
  obtain ⟨c, hrun, hthread, hunheld⟩ := changeAfterLogin_run
  exact ⟨c, hrun, hthread, (passwordChange_revokes_iff hrun hthread 2 "new session").mpr hunheld⟩

/-- The password change is complete, and a session of the old password is still found. -/
theorem changeDuringLogin_keeps_session :
    (run (step plainCheck) rotationStart changeDuringLogin).any (fun c =>
      c.thread 1 = .change passwordChange (.rotated 0) ∧
        (c.shared.sessions.get (some "old session") 2).1.any fun sess =>
          sess.admin ∧ sess.checkedRevision = some 0) := by
  decide

end Packmon.Admin

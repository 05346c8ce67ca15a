import Mathlib.Algebra.Order.Ring.Int
import Mathlib.Logic.Function.Basic
import Mathlib.Tactic.Common

/-!
# Sessions of the administration

The sessions a server keeps in memory, by the value of their cookie.  A session is of an administrator
or, before the login, only carries the token of the login form.  Each function is one critical section
of `SessionManager`, with the clock it reads in nanoseconds.
-/

namespace Packmon.Admin

/-- A quarter of an hour. -/
def preAuthSessionTTL : ℕ := 15 * 60 * 1000000000

structure Session where
  admin : Bool
  authenticatedWithBootstrap : Bool
  lastAccessed : ℕ
  expiresAt : ℕ
  csrfToken : String
  /-- A history of the login, which the program does not keep: the revision of the stored password
  it was compared with. -/
  checkedRevision : Option ℕ
  deriving DecidableEq

structure SessionManager where
  sessions : String → Option Session
  maxAge : ℕ
  idleTimeout : ℕ

def validateCSRF (formToken : String) (sess : Session) : Bool :=
  sess.csrfToken ≠ "" && formToken ≠ "" && formToken = sess.csrfToken

namespace SessionManager

variable (sm : SessionManager)

def set (id : String) (sess : Option Session) : SessionManager :=
  { sm with sessions := Function.update sm.sessions id sess }

/-- A session that is past its end or, if it is of an administrator, idle for too long. -/
def isExpired (now : ℕ) (sess : Session) : Bool :=
  sess.expiresAt < now ||
    (sess.admin && 0 < sm.idleTimeout && sm.idleTimeout < now - sess.lastAccessed)

def get (cookie : Option String) (now : ℕ) : Option Session × SessionManager :=
  match cookie with
  | none => (none, sm)
  | some id =>
    match sm.sessions id with
    | none => (none, sm)
    | some sess =>
      if sm.isExpired now sess then (none, sm.set id none)
      else
        let sess := { sess with lastAccessed := now }
        (some sess, sm.set id (some sess))

def deleteAdminSessions : SessionManager :=
  { sm with sessions := fun id => (sm.sessions id).filter fun sess => !sess.admin }

/-- A session of an administrator, after the others are removed where it is to be the only one. -/
def createAdmin (id : String) (authenticatedWithBootstrap exclusive : Bool) (checkedRevision : Option ℕ)
    (now : ℕ) : SessionManager :=
  let sm := if exclusive then sm.deleteAdminSessions else sm
  sm.set id (some ⟨true, authenticatedWithBootstrap, now, now + sm.maxAge, "", checkedRevision⟩)

def createPreAuth (id : String) (now : ℕ) : SessionManager :=
  sm.set id (some ⟨false, false, now, now + min sm.maxAge preAuthSessionTTL, "", none⟩)

/-- A session of a login form that lasts another second is used again. -/
def reusablePreAuthSession (cookie : Option String) (now : ℕ) : Option String × SessionManager :=
  match cookie with
  | none => (none, sm)
  | some id =>
    match sm.sessions id with
    | none => (none, sm)
    | some sess =>
      if id = "" ∨ sess.admin then (none, sm)
      else if sess.expiresAt < now + 1000000000 then (none, sm.set id none)
      else (some id, sm.set id (some { sess with lastAccessed := now }))

/-- The token of a session is made when it is first needed. -/
def makeCSRFToken (id token : String) : SessionManager :=
  { sm with
    sessions := Function.update sm.sessions id ((sm.sessions id).map fun sess =>
      if sess.csrfToken = "" then { sess with csrfToken := token } else sess) }

/-- The login form, unless an administrator asks for it. -/
def showLoginForm (cookie : Option String) (id token : String) (now : ℕ) : SessionManager :=
  let found := sm.get cookie now
  if found.1.any (·.admin) then found.2
  else
    let reused := found.2.reusablePreAuthSession cookie now
    match reused.1 with
    | some id => reused.2.makeCSRFToken id token
    | none => (reused.2.createPreAuth id now).makeCSRFToken id token

def deleteByID (id : String) : SessionManager := sm.set id none

/-- The session a cookie names is destroyed. -/
def delete (cookie : Option String) : SessionManager :=
  match cookie with
  | none => sm
  | some id => sm.deleteByID id

def cleanupExpiredSessions (now : ℕ) : SessionManager :=
  { sm with sessions := fun id => (sm.sessions id).filter fun sess => !sm.isExpired now sess }

/-! ## The password a login was compared with -/

/-- No session of an administrator comes from a login that was compared with this revision. -/
def Revoked (revision : ℕ) : Prop :=
  ∀ id, ∀ sess ∈ sm.sessions id, sess.admin → sess.checkedRevision ≠ some revision

section Revoked

variable {sm} {revision : ℕ} {id : String}

lemma Revoked.set (h : sm.Revoked revision) {sess : Option Session}
    (hsess : ∀ s ∈ sess, s.admin → s.checkedRevision ≠ some revision) :
    (sm.set id sess).Revoked revision := by
  intro other s hs hadmin
  simp only [SessionManager.set] at hs
  by_cases hid : other = id
  · subst hid
    rw [Function.update_self] at hs
    exact hsess s hs hadmin
  · rw [Function.update_of_ne hid] at hs
    exact h other s hs hadmin

lemma Revoked.filter (h : sm.Revoked revision) (p : Session → Bool) :
    Revoked { sm with sessions := fun id => (sm.sessions id).filter p } revision := by
  intro id s hs hadmin
  exact h id s (Option.mem_filter_iff.mp hs).1 hadmin

/-- Looking up a session only changes its last access. -/
lemma Revoked.get (h : sm.Revoked revision) (cookie : Option String) (now : ℕ) :
    (sm.get cookie now).2.Revoked revision := by
  unfold SessionManager.get
  cases cookie with
  | none => exact h
  | some id =>
    cases hsess : sm.sessions id with
    | none => simpa [hsess] using h
    | some sess =>
      simp only [hsess]
      split_ifs with hexpired
      · exact h.set (by simp)
      · refine h.set ?_
        rintro s hs hadmin
        obtain rfl := Option.some.inj hs
        exact h id sess hsess hadmin

/-- A session that is found is kept and has the history of the one that was there. -/
lemma mem_sessions_of_get {cookie : Option String} {now : ℕ} {sess : Session}
    (h : (sm.get cookie now).1 = some sess) :
    ∃ id, ∃ s ∈ sm.sessions id, s.admin = sess.admin ∧ s.checkedRevision = sess.checkedRevision := by
  unfold SessionManager.get at h
  cases cookie with
  | none => simp at h
  | some id =>
    cases hsess : sm.sessions id with
    | none => simp [hsess] at h
    | some s =>
      simp only [hsess] at h
      split_ifs at h with hexpired
      · obtain rfl := Option.some.inj h
        exact ⟨id, s, hsess, rfl, rfl⟩

lemma Revoked.createAdmin (h : sm.Revoked revision) {bootstrap exclusive : Bool} {checked : Option ℕ}
    (hchecked : checked ≠ some revision) (now : ℕ) :
    (sm.createAdmin id bootstrap exclusive checked now).Revoked revision := by
  unfold SessionManager.createAdmin
  have hold : (if exclusive then sm.deleteAdminSessions else sm).Revoked revision := by
    split_ifs
    · exact h.filter _
    · exact h
  refine hold.set ?_
  rintro s hs -
  obtain rfl := Option.some.inj hs
  exact hchecked

/-- Where the new session is to be the only one, nothing is left of the others. -/
lemma revoked_createAdmin_exclusive (bootstrap : Bool) (now : ℕ) :
    (sm.createAdmin id bootstrap true none now).Revoked revision := by
  have hold : sm.deleteAdminSessions.Revoked revision := by
    intro id s hs hadmin
    have := (Option.mem_filter_iff.mp hs).2
    simp [hadmin] at this
  unfold SessionManager.createAdmin
  simp only [if_true]
  refine hold.set ?_
  rintro s hs -
  obtain rfl := Option.some.inj hs
  simp

/-- A new session is found at once. -/
lemma get_createAdmin (bootstrap exclusive : Bool) (checked : Option ℕ) (now : ℕ) :
    ∃ sess, ((sm.createAdmin id bootstrap exclusive checked now).get (some id) now).1 = some sess ∧
      sess.admin ∧ sess.checkedRevision = checked := by
  have hnew : ∀ age, ¬ now + age < now := by
    intro age
    omega
  simp [SessionManager.get, SessionManager.createAdmin, SessionManager.set, isExpired, hnew]

lemma Revoked.createPreAuth (h : sm.Revoked revision) (now : ℕ) :
    (sm.createPreAuth id now).Revoked revision := by
  refine h.set ?_
  rintro s hs hadmin
  obtain rfl := Option.some.inj hs
  simp at hadmin

lemma Revoked.reusablePreAuthSession (h : sm.Revoked revision) (cookie : Option String) (now : ℕ) :
    (sm.reusablePreAuthSession cookie now).2.Revoked revision := by
  unfold SessionManager.reusablePreAuthSession
  cases cookie with
  | none => exact h
  | some id =>
    cases hsess : sm.sessions id with
    | none => simpa [hsess] using h
    | some sess =>
      simp only [hsess]
      split_ifs with hskip hends
      · exact h
      · exact h.set (by simp)
      · refine h.set ?_
        rintro s hs hadmin
        obtain rfl := Option.some.inj hs
        exact h id sess hsess hadmin

lemma Revoked.makeCSRFToken (h : sm.Revoked revision) (token : String) :
    (sm.makeCSRFToken id token).Revoked revision := by
  refine h.set ?_
  rintro s hs hadmin
  obtain ⟨sess, hsess, rfl⟩ := Option.map_eq_some_iff.mp hs
  split_ifs at hadmin ⊢
  · exact h id sess hsess hadmin
  · exact h id sess hsess hadmin

lemma Revoked.showLoginForm (h : sm.Revoked revision) (cookie : Option String) (token : String)
    (now : ℕ) : (sm.showLoginForm cookie id token now).Revoked revision := by
  have hfound := h.get cookie now
  unfold SessionManager.showLoginForm
  dsimp only
  split_ifs with hadmin
  · exact hfound
  · have hreused := hfound.reusablePreAuthSession cookie now
    split
    · exact hreused.makeCSRFToken token
    · exact (hreused.createPreAuth now).makeCSRFToken token

lemma Revoked.delete (h : sm.Revoked revision) (cookie : Option String) :
    (sm.delete cookie).Revoked revision := by
  cases cookie with
  | none => exact h
  | some id => exact h.set (by simp)

end Revoked

end SessionManager

end Packmon.Admin

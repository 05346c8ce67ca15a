import Packmon.Admin.Login

/-!
# The bound on guesses of the password

After five failures the account is locked for a quarter of an hour.  A request looks at the lock, compares
its password and records the failure in three steps, though, and requests that look at the lock before the
others record their failures all get to the comparison.

The bound of five failed comparisons in less than a quarter of an hour holds as long as one request at a
time is past the lock, and for no more than one (`failedComparisons_le_iff`).
-/

namespace Packmon.Admin

open Interleaving (Config run count Along AtMost exec)
open LoginAttempts (Aged)

/-! ## What is counted -/

/-- The request was let past the lock and is not finished. -/
def Thread.inFlight : Thread → Bool
  | .idle => false
  | .login _ stage =>
    match stage with
    | .arrived | .lockedOut | .claimed _ | .finished => false
    | _ => true
  | .change _ stage =>
    match stage with
    | .arrived | .authorised | .lockedOut | .claimed _ | .rotated _ | .finished => false
    | _ => true

/-- A login whose failed comparison is not recorded yet. -/
def Thread.isRejected : Thread → Bool
  | .login _ .rejected => true
  | _ => false

section Counted

variable (checkPassword : String → String → Bool)

/-- A login that is about to fail the comparison with the stored password. -/
def Thread.fails : Thread → Bool
  | .login r (.comparing auth) => !checkPassword auth.passwordHash r.password
  | _ => false

def Event.isIn (first last : ℕ) (e : Event) : Bool := first ≤ e.time && e.time ≤ last

def isFailedComparison (first last : ℕ) (e : Event) (_ : AdminState) (t : Thread) : Bool :=
  t.fails checkPassword && e.isIn first last

/-- A login or a password change succeeds, which clears the failures. -/
def isSuccess (first last : ℕ) (e : Event) (_ : AdminState) (t : Thread) : Bool :=
  match t with
  | .login _ .audited | .change _ (.committed _) => e.isIn first last
  | _ => false

end Counted

/-! ## What a step does to the failures -/

section Effect

variable {checkPassword : String → String → Bool} {e : Event} {s s' : AdminState} {t t' : Thread}

/-- The kinds of steps, by what they do to the record of the account. -/
inductive Effect (checkPassword : String → String → Bool) (e : Event) (s s' : AdminState) (t t' : Thread) :
    Prop where
  | quiet (aged : Aged e.time s.attempts s'.attempts) (flight : t'.inFlight → t.inFlight)
      (rejected : t.isRejected = false) (passed : t.fails checkPassword = false)
  | pass (aged : Aged e.time s.attempts s'.attempts) (unlocked : s'.attempts.Unlocked)
      (rejected : t.isRejected = false) (passed : t.fails checkPassword = false)
  | reject (same : s'.attempts = s.attempts) (flight : t.inFlight) (rejected : t.isRejected = false)
      (rejected' : t'.isRejected)
  | record (ip : String) (attempts : s'.attempts = s.attempts.recordFailedAttempt ip e.time)
      (flight : t.inFlight) (flight' : t'.inFlight = false) (passed : t.fails checkPassword = false)
  | recordForm (ip : String) (attempts : s'.attempts = s.attempts.recordFailedAttemptFor ip false e.time)
      (flight : t.inFlight) (flight' : t'.inFlight = false) (rejected : t.isRejected = false)
      (passed : t.fails checkPassword = false)
  | clear (unlocked : s'.attempts.Unlocked)
      (success : ∀ first last, isSuccess first last e s t = e.isIn first last)
      (flight : t.inFlight) (passed : t.fails checkPassword = false)

/-- Nothing happens to the failures. -/
lemma Effect.of_eq (h : s'.attempts = s.attempts) (hflight : t'.inFlight → t.inFlight)
    (hrejected : t.isRejected = false) (hpassed : t.fails checkPassword = false) :
    Effect checkPassword e s s' t t' :=
  .quiet (.of_eq (by rw [h])) hflight hrejected hpassed

lemma processLogin_effect {now : ℕ} {ok : Bool} {random : String} {r : LoginRequest}
    {stage stage' : LoginStage} {action : Action}
    (h : processLogin checkPassword now ok random s r stage = some (s', stage')) :
    Effect checkPassword ⟨now, action⟩ s s' (.login r stage) (.login r stage') := by
  cases stage with
  | arrived =>
    obtain ⟨rfl, rfl⟩ := Prod.mk.inj (Option.some.inj h)
    cases hlocked : (s.attempts.isLockedOut r.ip now).1 with
    | true => exact .quiet (LoginAttempts.aged_isLockedOut _ _ _) (by simp [Thread.inFlight]) rfl rfl
    | false =>
      exact .pass (LoginAttempts.aged_isLockedOut _ _ _) (LoginAttempts.unlocked_of_isLockedOut _ hlocked)
        rfl rfl
  | lockedOut =>
    obtain ⟨rfl, rfl⟩ := Prod.mk.inj (Option.some.inj h)
    refine .quiet (LoginAttempts.aged_claimLockoutAudit _ _ _) ?_ rfl rfl
    split_ifs <;> simp [Thread.inFlight]
  | claimed claim =>
    obtain ⟨rfl, rfl⟩ := Prod.mk.inj (Option.some.inj h)
    refine .quiet ?_ (by simp [Thread.inFlight]) rfl rfl
    split_ifs
    · exact .of_eq rfl
    · exact LoginAttempts.aged_releaseLockoutAudit _ _ _
  | admitted =>
    obtain ⟨rfl, rfl⟩ := Prod.mk.inj (Option.some.inj h)
    exact .of_eq rfl (fun _ => rfl) rfl rfl
  | badForm =>
    obtain ⟨rfl, rfl⟩ := Prod.mk.inj (Option.some.inj h)
    exact .recordForm r.ip rfl rfl rfl rfl rfl
  | goodForm =>
    obtain ⟨rfl, rfl⟩ := Prod.mk.inj (Option.some.inj h)
    exact .of_eq rfl (fun _ => rfl) rfl rfl
  | wrongUsername | unconfigured | rejected =>
    obtain ⟨rfl, rfl⟩ := Prod.mk.inj (Option.some.inj h)
    exact .record r.ip rfl rfl rfl rfl
  | reading =>
    obtain ⟨rfl, rfl⟩ := Prod.mk.inj (Option.some.inj h)
    exact .of_eq rfl (fun _ => rfl) rfl rfl
  | comparing auth =>
    obtain ⟨rfl, rfl⟩ := Prod.mk.inj (Option.some.inj h)
    cases hcheck : checkPassword auth.passwordHash r.password with
    | true => exact .of_eq rfl (fun _ => rfl) rfl (by simp [Thread.fails, hcheck])
    | false => exact .reject rfl rfl rfl rfl
  | accepted auth =>
    rw [processLogin] at h
    split_ifs at h
    · obtain ⟨rfl, rfl⟩ := Prod.mk.inj (Option.some.inj h)
      exact .of_eq rfl (fun _ => rfl) rfl rfl
    · obtain ⟨rfl, rfl⟩ := Prod.mk.inj (Option.some.inj h)
      exact .of_eq rfl (fun _ => rfl) rfl rfl
  | created id | unaudited id =>
    obtain ⟨rfl, rfl⟩ := Prod.mk.inj (Option.some.inj h)
    exact .of_eq rfl (fun _ => rfl) rfl rfl
  | audited =>
    obtain ⟨rfl, rfl⟩ := Prod.mk.inj (Option.some.inj h)
    exact .clear (LoginAttempts.unlocked_resetAttempts _ _) (fun _ _ => rfl) rfl rfl
  | finished => exact absurd h (by simp [processLogin])

lemma handlePasswordChange_effect {now : ℕ} {ok : Bool} {random : String} {r : ChangeRequest}
    {stage stage' : ChangeStage} {action : Action}
    (h : handlePasswordChange checkPassword now ok random s r stage = some (s', stage')) :
    Effect checkPassword ⟨now, action⟩ s s' (.change r stage) (.change r stage') := by
  cases stage with
  | arrived =>
    obtain ⟨rfl, rfl⟩ := Prod.mk.inj (Option.some.inj h)
    refine .of_eq rfl ?_ rfl rfl
    split_ifs <;> simp [Thread.inFlight]
  | authorised =>
    obtain ⟨rfl, rfl⟩ := Prod.mk.inj (Option.some.inj h)
    cases hlocked : (s.attempts.isLockedOut r.ip now).1 with
    | true => exact .quiet (LoginAttempts.aged_isLockedOut _ _ _) (by simp [Thread.inFlight]) rfl rfl
    | false =>
      exact .pass (LoginAttempts.aged_isLockedOut _ _ _) (LoginAttempts.unlocked_of_isLockedOut _ hlocked)
        rfl rfl
  | lockedOut =>
    obtain ⟨rfl, rfl⟩ := Prod.mk.inj (Option.some.inj h)
    refine .quiet (LoginAttempts.aged_claimLockoutAudit _ _ _) ?_ rfl rfl
    split_ifs <;> simp [Thread.inFlight]
  | claimed claim =>
    obtain ⟨rfl, rfl⟩ := Prod.mk.inj (Option.some.inj h)
    refine .quiet ?_ (by simp [Thread.inFlight]) rfl rfl
    split_ifs
    · exact .of_eq rfl
    · exact LoginAttempts.aged_releaseLockoutAudit _ _ _
  | admitted | comparing auth =>
    obtain ⟨rfl, rfl⟩ := Prod.mk.inj (Option.some.inj h)
    exact .of_eq rfl (fun _ => rfl) rfl rfl
  | rejected =>
    obtain ⟨rfl, rfl⟩ := Prod.mk.inj (Option.some.inj h)
    exact .record r.ip rfl rfl rfl rfl
  | accepted auth newHash =>
    have hsame : s'.attempts = s.attempts := by
      rw [handlePasswordChange] at h
      split at h
      · split_ifs at h <;> obtain ⟨rfl, rfl⟩ := Prod.mk.inj (Option.some.inj h) <;> rfl
      · obtain ⟨rfl, rfl⟩ := Prod.mk.inj (Option.some.inj h)
        rfl
    exact .of_eq hsame (fun _ => rfl) rfl rfl
  | committed replaced =>
    obtain ⟨rfl, rfl⟩ := Prod.mk.inj (Option.some.inj h)
    exact .clear (LoginAttempts.unlocked_resetAttempts _ _) (fun _ _ => rfl) rfl rfl
  | cleared replaced =>
    rw [handlePasswordChange] at h
    split_ifs at h
    · obtain ⟨rfl, rfl⟩ := Prod.mk.inj (Option.some.inj h)
      exact .of_eq rfl (fun _ => rfl) rfl rfl
    · obtain ⟨rfl, rfl⟩ := Prod.mk.inj (Option.some.inj h)
      exact .of_eq rfl (fun _ => rfl) rfl rfl
  | rotated replaced | finished => exact absurd h (by simp [handlePasswordChange])

/-- Every step is of one of the kinds. -/
lemma step_effect (h : step checkPassword e s t = some (s', t')) : Effect checkPassword e s s' t t' := by
  obtain rfl | ⟨r, stage, stage', ok, random, rfl, rfl, hstep⟩ |
    ⟨r, stage, stage', ok, random, rfl, rfl, hstep⟩ := step_cases h
  · obtain ⟨now, action⟩ := e
    cases action with
    | next ok random => exact absurd h (by simp [step])
    | cleanupExpiredLoginAttempts =>
      obtain ⟨rfl, rfl⟩ := Prod.mk.inj (Option.some.inj h)
      exact .quiet (LoginAttempts.aged_cleanup _ _) id rfl rfl
    | login r | change r | showLoginForm cookie id' token | visit cookie token | logout cookie csrf
      | cleanupExpiredSessions =>
      obtain ⟨rfl, rfl⟩ := Prod.mk.inj (Option.some.inj h)
      exact .of_eq rfl id rfl rfl
  · exact processLogin_effect hstep
  · exact handlePasswordChange_effect hstep

end Effect

/-! ## One request at a time -/

section Bound

variable {checkPassword : String → String → Bool} {ι : Type} [DecidableEq ι] [Fintype ι]
  {c c' : Config AdminState Thread ι} {first last before failures : ℕ}

lemma Thread.inFlight_of_isRejected {t : Thread} (h : t.isRejected) : t.inFlight := by
  cases t with
  | idle | change r stage => simp [Thread.isRejected] at h
  | login r stage => cases stage <;> first | rfl | simp [Thread.isRejected] at h

/-- So many comparisons failed in a window up to now.  The account is not locked while a request is past
the lock, and has counted all failures but the one that is about to be recorded. -/
structure Guarded (first last : ℕ) (c : Config AdminState Thread ι) (before failures : ℕ) : Prop where
  le : failures ≤ loginMaxAttempts
  early : before < first → failures = 0
  unlocked : ∀ i, (c.thread i).inFlight → c.shared.attempts.Unlocked
  counted : before ≤ last → ∃ r, c.shared.attempts.Counted first r before ∧
    (failures ≤ r ∨ failures ≤ r + 1 ∧ ∃ i, (c.thread i).isRejected)

omit [DecidableEq ι] in
/-- A step of a request that is past the lock finds all failures counted but its own. -/
lemma Guarded.counted_of_inFlight (h : Guarded first last c before failures)
    (hone : AtMost 1 Thread.inFlight c) {i : ι} (hflight : (c.thread i).inFlight)
    (hrejected : (c.thread i).isRejected = false) (hlast : before ≤ last) :
    ∃ r, c.shared.attempts.Counted first r before ∧ failures ≤ r := by
  obtain ⟨r, hcounted, hle | ⟨-, j, hj⟩⟩ := h.counted hlast
  · exact ⟨r, hcounted, hle⟩
  · obtain rfl := hone.eq (Thread.inFlight_of_isRejected hj) hflight
    rw [hj] at hrejected
    exact absurd hrejected (by simp)

/-- Each step keeps the account guarded. -/
lemma Guarded.of_exec (hwindow : last < first + loginLockoutDuration)
    (h : Guarded first last c before failures) (hone : AtMost 1 Thread.inFlight c) {i : ι} {e : Event}
    (hexec : exec (step checkPassword) c i e = some c') (hbefore : before ≤ e.time)
    (hsuccess : isSuccess first last e c.shared (c.thread i) = false) :
    Guarded first last c' e.time
      (failures + if isFailedComparison checkPassword first last e c.shared (c.thread i) then 1 else 0) := by
  obtain ⟨s', t', hstep, rfl⟩ := Interleaving.exec_eq_some.mp hexec
  have hearly : e.time < first → failures = 0 := fun hlt => h.early (hbefore.trans_lt hlt)
  -- a thread in flight after the step was in flight before it, or has just taken the step
  have hthreads : ∀ j, (Function.update c.thread i t' j).inFlight →
      (j = i ∧ t'.inFlight) ∨ (j ≠ i ∧ (c.thread j).inFlight) := by
    intro j hj
    by_cases hji : j = i
    · subst hji
      rw [Function.update_self] at hj
      exact .inl ⟨rfl, hj⟩
    · rw [Function.update_of_ne hji] at hj
      exact .inr ⟨hji, hj⟩
  -- a rejected login that does not take the step stays rejected
  have hstays : (c.thread i).isRejected = false → (∃ j, (c.thread j).isRejected) →
      ∃ j, (Function.update c.thread i t' j).isRejected := by
    rintro hi ⟨j, hj⟩
    have hji : j ≠ i := by
      rintro rfl
      rw [hi] at hj
      exact absurd hj (by simp)
    exact ⟨j, by rwa [Function.update_of_ne hji]⟩
  cases step_effect hstep with
  | quiet aged flight rejected passed =>
    rw [isFailedComparison, passed, Bool.false_and, if_neg Bool.false_ne_true, add_zero]
    refine ⟨h.le, hearly, ?_, ?_⟩
    · intro j hj
      obtain ⟨-, hflight⟩ | ⟨-, hflight⟩ := hthreads j hj
      · exact (h.unlocked i (flight hflight)).aged aged
      · exact (h.unlocked j hflight).aged aged
    · intro hlast
      obtain ⟨r, hcounted, hle⟩ := h.counted (hbefore.trans hlast)
      refine ⟨r, hcounted.aged aged hbefore (hlast.trans_lt hwindow), ?_⟩
      exact hle.imp_right fun hpending => ⟨hpending.1, hstays rejected hpending.2⟩
  | pass aged unlocked rejected passed =>
    rw [isFailedComparison, passed, Bool.false_and, if_neg Bool.false_ne_true, add_zero]
    refine ⟨h.le, hearly, fun _ _ => unlocked, ?_⟩
    intro hlast
    obtain ⟨r, hcounted, hle⟩ := h.counted (hbefore.trans hlast)
    refine ⟨r, hcounted.aged aged hbefore (hlast.trans_lt hwindow), ?_⟩
    exact hle.imp_right fun hpending => ⟨hpending.1, hstays rejected hpending.2⟩
  | reject same flight rejected rejected' =>
    have hopen := h.unlocked i flight
    have hrejected : ∃ j, (Function.update c.thread i t' j).isRejected :=
      ⟨i, by rwa [Function.update_self]⟩
    refine ⟨?_, ?_, ?_, ?_⟩
    · split_ifs with hin
      · have hlast : e.time ≤ last := by
          have := (Bool.and_eq_true_iff.mp hin).2
          simp only [Event.isIn, Bool.and_eq_true, decide_eq_true_eq] at this
          exact this.2
        obtain ⟨r, hcounted, hle⟩ := h.counted_of_inFlight hone flight rejected (hbefore.trans hlast)
        obtain rfl | ⟨a, ha, hcount, -⟩ := hcounted
        · simp only [Nat.le_zero] at hle
          simp [hle, loginMaxAttempts]
        · have := hopen a ha
          omega
      · exact h.le
    · intro hlt
      have hout : e.isIn first last = false := by simp [Event.isIn, hlt]
      rw [isFailedComparison, hout, Bool.and_false, if_neg Bool.false_ne_true, add_zero]
      exact hearly hlt
    · intro j _
      rw [same]
      exact hopen
    · intro hlast
      obtain ⟨r, hcounted, hle⟩ := h.counted_of_inFlight hone flight rejected (hbefore.trans hlast)
      refine ⟨r, ?_, .inr ⟨?_, hrejected⟩⟩
      · exact hcounted.aged (.of_eq (by rw [same])) hbefore (hlast.trans_lt hwindow)
      · split_ifs <;> omega
  | record ip attempts flight flight' passed =>
    rw [isFailedComparison, passed, Bool.false_and, if_neg Bool.false_ne_true, add_zero]
    refine ⟨h.le, hearly, ?_, ?_⟩
    · intro j hj
      obtain ⟨-, hflight⟩ | ⟨hji, hflight⟩ := hthreads j hj
      · rw [flight'] at hflight
        exact absurd hflight (by simp)
      · exact absurd (hone.eq hflight flight) hji
    · intro hlast
      obtain hlt | hge := lt_or_ge e.time first
      · exact ⟨0, .inl rfl, .inl (hearly hlt).le⟩
      · obtain ⟨r, hcounted, hle⟩ := h.counted (hbefore.trans hlast)
        refine ⟨r + 1, ?_, .inl ?_⟩
        · rw [attempts]
          exact hcounted.recordFailedAttempt (h.unlocked i flight) ip hbefore hge (hlast.trans_lt hwindow)
        · omega
  | recordForm ip attempts flight flight' rejected passed =>
    rw [isFailedComparison, passed, Bool.false_and, if_neg Bool.false_ne_true, add_zero]
    refine ⟨h.le, hearly, ?_, ?_⟩
    · intro j hj
      obtain ⟨-, hflight⟩ | ⟨hji, hflight⟩ := hthreads j hj
      · rw [flight'] at hflight
        exact absurd hflight (by simp)
      · exact absurd (hone.eq hflight flight) hji
    · intro hlast
      obtain hlt | hge := lt_or_ge e.time first
      · exact ⟨0, .inl rfl, .inl (hearly hlt).le⟩
      · obtain ⟨r, hcounted, hle⟩ := h.counted_of_inFlight hone flight rejected (hbefore.trans hlast)
        refine ⟨r, ?_, .inl hle⟩
        rw [attempts]
        exact hcounted.recordFailedAttemptFor_false (h.unlocked i flight) ip hbefore hge
          (hlast.trans_lt hwindow)
  | clear unlocked success flight passed =>
    rw [isFailedComparison, passed, Bool.false_and, if_neg Bool.false_ne_true, add_zero]
    refine ⟨h.le, hearly, fun _ _ => unlocked, ?_⟩
    intro hlast
    have hlt : e.time < first := by
      rw [success] at hsuccess
      simpa [Event.isIn, hlast] using hsuccess
    exact ⟨0, .inl rfl, .inl (hearly hlt).le⟩

/-- A run with one request at a time past the lock fails five comparisons in the window at most. -/
lemma Guarded.count_le (hwindow : last < first + loginLockoutDuration) {schedule : List (ι × Event)}
    (h : Guarded first last c before failures) (hrun : (run (step checkPassword) c schedule).isSome)
    (hsorted : schedule.Pairwise fun x y => x.2.time ≤ y.2.time)
    (hafter : ∀ x ∈ schedule, before ≤ x.2.time)
    (hone : Along (step checkPassword) (AtMost 1 Thread.inFlight) c schedule)
    (hsuccess : count (step checkPassword) (isSuccess first last) c schedule = 0) :
    failures + count (step checkPassword) (isFailedComparison checkPassword first last) c schedule ≤
      loginMaxAttempts := by
  induction schedule generalizing c before failures with
  | nil => exact h.le
  | cons event schedule ih =>
    obtain ⟨i, e⟩ := event
    obtain ⟨c', hrun⟩ := Option.isSome_iff_exists.mp hrun
    obtain ⟨next, hexec, hrest⟩ := Interleaving.run_cons_eq_some.mp hrun
    obtain ⟨hfirst, hsorted⟩ := List.pairwise_cons.mp hsorted
    simp only [Along, count, hexec, Option.elim_some] at hone hsuccess ⊢
    obtain ⟨hnone, hsuccess⟩ := Nat.add_eq_zero_iff.mp hsuccess
    have hquiet : isSuccess first last e c.shared (c.thread i) = false := by
      by_contra hsome
      simp [hsome] at hnone
    have hnext := h.of_exec hwindow hone.1 hexec (hafter _ List.mem_cons_self) hquiet
    rw [← add_assoc]
    exact ih hnext (by simp [hrest]) hsorted hfirst hone.2 hsuccess

end Bound

/-! ## More than one request at a time -/

/-- Everything is at rest, and no failure was recorded. -/
def initial (n : ℕ) (auth : Option AdminAuth) (sessions : SessionManager) :
    Config AdminState Thread (Fin n) :=
  ⟨⟨auth, .empty, sessions⟩, fun _ => .idle⟩

/-- In every run with at most so many requests past the lock at a time, and in every window of less than a
quarter of an hour without a success, the bound holds. -/
def GuessesBounded (k : ℕ) : Prop :=
  ∀ (checkPassword : String → String → Bool) (n : ℕ) (auth : Option AdminAuth)
    (sessions : SessionManager) (schedule : List (Fin n × Event)) (first last : ℕ),
    (run (step checkPassword) (initial n auth sessions) schedule).isSome →
    schedule.Pairwise (fun x y => x.2.time ≤ y.2.time) →
    Along (step checkPassword) (AtMost k Thread.inFlight) (initial n auth sessions) schedule →
    last < first + loginLockoutDuration →
    count (step checkPassword) (isSuccess first last) (initial n auth sessions) schedule = 0 →
    count (step checkPassword) (isFailedComparison checkPassword first last) (initial n auth sessions)
      schedule ≤ loginMaxAttempts

lemma guessesBounded_one : GuessesBounded 1 := by
  intro checkPassword n auth sessions schedule first last hrun hsorted hone hwindow hsuccess
  have hstart : Guarded first last (initial n auth sessions) 0 0 := by
    refine ⟨Nat.zero_le _, fun _ => rfl, ?_, fun _ => ⟨0, .inl rfl, .inl le_rfl⟩⟩
    intro i hflight
    exact absurd hflight (by simp [initial, Thread.inFlight])
  simpa using hstart.count_le hwindow hrun hsorted (fun _ _ => Nat.zero_le _) hone hsuccess

section Race

/-- A guess up to the lock: the login form, the request and the look at the lock. -/
def beginGuess (i : Fin 6) (cookie : String) : List (Fin 6 × Event) :=
  [(i, ⟨1, .showLoginForm none cookie "token"⟩),
    (i, ⟨1, .login ⟨"10.0.0.1", some cookie, "token", "admin", "guess"⟩⟩), (i, ⟨1, .next true ""⟩)]

/-- The rest of it: the form, the user name, the stored password, the comparison and the failure. -/
def endGuess (i : Fin 6) : List (Fin 6 × Event) := List.replicate 5 (i, ⟨1, .next true ""⟩)

/-- Four guesses one after the other, and then two at a time. -/
def sixGuesses : List (Fin 6 × Event) :=
  beginGuess 0 "a" ++ endGuess 0 ++ beginGuess 1 "a" ++ endGuess 1 ++ beginGuess 2 "a" ++ endGuess 2 ++
    beginGuess 3 "a" ++ endGuess 3 ++ beginGuess 4 "a" ++ beginGuess 5 "b" ++ endGuess 4 ++ endGuess 5

/-- A password is accepted that is the text of the hash. -/
def plainCheck (hash password : String) : Bool := hash = password

def raceStart : Config AdminState Thread (Fin 6) :=
  initial 6 (some ⟨"secret", false, 0⟩) ⟨fun _ => none, 8 * 60 * 60 * 1000000000, loginLockoutDuration⟩

/-- At most two requests are past the lock at a time, and all six comparisons fail. -/
lemma sixGuesses_run :
    (run (step plainCheck) raceStart sixGuesses).isSome ∧
      sixGuesses.Pairwise (fun x y => x.2.time ≤ y.2.time) ∧
      Along (step plainCheck) (AtMost 2 Thread.inFlight) raceStart sixGuesses ∧
      count (step plainCheck) (isSuccess 1 1) raceStart sixGuesses = 0 ∧
      count (step plainCheck) (isFailedComparison plainCheck 1 1) raceStart sixGuesses = 6 := by
  decide

end Race

/-- The bound on guesses holds for one request past the lock at a time, and for no more. -/
theorem failedComparisons_le_iff (k : ℕ) : GuessesBounded k ↔ k ≤ 1 := by
  constructor
  · intro hbound
    by_contra hk
    obtain ⟨hrun, hsorted, htwo, hsuccess, hsix⟩ := sixGuesses_run
    have hmany : Along (step plainCheck) (AtMost k Thread.inFlight) raceStart sixGuesses :=
      htwo.imp fun c hc => hc.trans (by omega)
    have hle := hbound plainCheck 6 _ _ sixGuesses 1 1 hrun hsorted hmany (by decide) hsuccess
    exact absurd (hsix.symm.le.trans hle) (by decide)
  · intro hk checkPassword n auth sessions schedule first last hrun hsorted hfew
    exact guessesBounded_one checkPassword n auth sessions schedule first last hrun hsorted
      (hfew.imp fun c hc => hc.trans hk)

/-- Six passwords are compared and fail at one time. -/
theorem sixGuesses_exceed :
    (run (step plainCheck) raceStart sixGuesses).isSome ∧
      sixGuesses.Pairwise (fun x y => x.2.time ≤ y.2.time) ∧
      count (step plainCheck) (isSuccess 1 1) raceStart sixGuesses = 0 ∧
      loginMaxAttempts <
        count (step plainCheck) (isFailedComparison plainCheck 1 1) raceStart sixGuesses := by
  obtain ⟨hrun, hsorted, -, hsuccess, hsix⟩ := sixGuesses_run
  exact ⟨hrun, hsorted, hsuccess, by rw [hsix]; decide⟩

end Packmon.Admin

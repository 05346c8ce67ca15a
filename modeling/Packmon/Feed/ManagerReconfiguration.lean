import Packmon.Feed.ManagerShutdown

/-!
# Reconfiguration of a running feed manager

A call that replaces the registration of a feed tells the loop of the old one to stop and leaves the start of
the new one to a goroutine that waits for the end of the old loop.  So the loops of a feed form a chain: a loop
that runs is the current one, or the current one is not launched and waits for it (`Chained`).

The second critical section of `Start` does not look at the chain: it launches the current registration even if
the loop that the registration waits for is still running.  `reconfiguration_iff` says that this is the only way
two loops of one feed run at once, and that the loops that run come to be those of the last configurations.
-/

namespace Packmon.FeedManager

open FairRuns

variable {s s' : State}

def State.running (s : State) (r : ℕ) : Prop := (s.reg r).loop.isRunning = true

def State.nameOf (s : State) (r : ℕ) : String := (s.reg r).config.name

/-- At most one loop of each feed is running. -/
def AtMostOne (s : State) : Prop := ∀ r r', s.running r → s.running r' → s.nameOf r = s.nameOf r' → r = r'

/-- The loops that run are those of the current registrations that are to run. -/
def Converged (s : State) : Prop :=
  ∀ r, s.running r ↔ s.feeds (s.nameOf r) = some r ∧ managerFeedShouldRun (s.reg r).config = true

/-- The second critical section is about to launch a loop whose predecessor is still running. -/
def EarlyStart (s : State) : Prop :=
  s.ctxDone = false ∧ ∃ name rest r p, s.start = .second (name :: rest) ∧ s.feeds name = some r ∧
    runsIn .enrichment (s.reg r).config = true ∧ (s.reg r).cancel = false ∧ (s.reg r).startAfter = some p ∧
    s.running p

lemma not_running_of_notStarted {r : ℕ} (h : (s.reg r).loop = .notStarted) : ¬ s.running r := by
  simp [State.running, h]

lemma running_ne_notStarted {r : ℕ} (h : s.running r) : (s.reg r).loop ≠ .notStarted :=
  fun hnot => not_running_of_notStarted hnot h

/-! ## Predecessors -/

/-- What a registration records of its predecessor and of its launch. -/
structure Registration.Sound (rf : Registration) : Prop where
  waiting : ∀ p, rf.handover = .waiting p → rf.startAfter = some p
  launched : rf.cancel = true → rf.loop ≠ .notStarted
  runnable : rf.loop ≠ .notStarted → managerFeedShouldRun rf.config = true

lemma Registration.sound_new (config : FeedConfig) (startAfter : Option ℕ) :
    ({ config, startAfter } : Registration).Sound where
  waiting _ h := by cases h
  launched h := by cases h
  runnable h := absurd rfl h

/-- A registration waits for an earlier one of the same feed, whose loop was launched. -/
structure ChainInv (s : State) : Prop where
  fresh : ∀ r, s.next ≤ r → (s.reg r).startAfter = none
  sound : ∀ r, (s.reg r).Sound
  after : ∀ r p, (s.reg r).startAfter = some p → p < r ∧ s.nameOf p = s.nameOf r ∧ (s.reg p).loop ≠ .notStarted

lemma chainInv_init : ChainInv .init where
  fresh _ _ := rfl
  sound _ := Registration.sound_new _ none
  after _ _ h := by cases h

lemma ChainInv.congr (h : ChainInv s) (hreg : s'.reg = s.reg) (hnext : s'.next = s.next) : ChainInv s' where
  fresh := by rw [hreg, hnext]; exact h.fresh
  sound := by rw [hreg]; exact h.sound
  after := by simpa [State.nameOf, hreg] using h.after

/-- One registration moves on: it may stop waiting for its predecessor. -/
lemma ChainInv.update (h : ChainInv s) {r : ℕ} {rf : Registration} (hconfig : rf.config = (s.reg r).config)
    (hafter : rf.startAfter = (s.reg r).startAfter ∨ rf.startAfter = none)
    (hloop : (s.reg r).loop ≠ .notStarted → rf.loop ≠ .notStarted) (hsound : rf.Sound) :
    ChainInv { s with reg := Function.update s.reg r rf } where
  fresh i hi := by
    by_cases hir : i = r
    · subst hir
      rcases hafter with heq | heq
      · simpa [heq] using h.fresh i hi
      · simpa using heq
    · simpa [hir] using h.fresh i hi
  sound i := by
    by_cases hir : i = r
    · subst hir
      simpa using hsound
    · simpa [hir] using h.sound i
  after i p hp := by
    have hname : ∀ j, (Function.update s.reg r rf j).config = (s.reg j).config := by
      intro j
      by_cases hj : j = r
      · subst hj
        simpa using hconfig
      · simp [hj]
    have hold : (s.reg i).startAfter = some p := by
      by_cases hir : i = r
      · subst hir
        rcases hafter with heq | heq <;> simp_all
      · simpa [hir] using hp
    obtain ⟨hlt, hsame, hlaunched⟩ := h.after i p hold
    refine ⟨hlt, by simpa [State.nameOf, hname] using hsame, ?_⟩
    by_cases hpr : p = r
    · subst hpr
      simpa using hloop hlaunched
    · simpa [hpr] using hlaunched

lemma ChainInv.startFeedLocked (h : ChainInv s) {r : ℕ} (hrun : managerFeedShouldRun (s.reg r).config = true)
    (signals wait : Bool) : ChainInv (startFeedLocked r signals wait s) := by
  obtain ⟨-, heq⟩ | ⟨-, -, -, heq⟩ := startFeedLocked_cases r signals wait s
  · rwa [heq]
  · rw [heq]
    have hlaunched : (if wait = true then LoopState.waitingPhase else .initial) ≠ .notStarted := by
      cases wait <;> simp
    exact h.update rfl (.inl rfl) (fun _ => hlaunched) ⟨(h.sound r).waiting, fun _ => hlaunched, fun _ => hrun⟩

lemma ChainInv.addReg (h : ChainInv s) (hw : WellFormed s) {rf : Registration} (hsound : rf.Sound)
    (hafter : ∀ p, rf.startAfter = some p →
      p < s.next ∧ s.nameOf p = rf.config.name ∧ (s.reg p).loop ≠ .notStarted) : ChainInv (s.addReg rf) where
  fresh i hi := by
    have hne : i ≠ s.next := by
      rintro rfl
      exact absurd hi (by simp [State.addReg])
    simpa [State.addReg, hne] using h.fresh i ((Nat.le_succ _).trans hi)
  sound i := by
    by_cases hi : i = s.next
    · subst hi
      simpa [State.addReg] using hsound
    · simpa [State.addReg, hi] using h.sound i
  after i p hp := by
    by_cases hi : i = s.next
    · subst hi
      obtain ⟨hlt, hname, hlaunched⟩ := hafter p (by simpa [State.addReg] using hp)
      simpa [State.addReg, State.nameOf, hlt.ne, hlt] using ⟨hname, hlaunched⟩
    · have hold : (s.reg i).startAfter = some p := by simpa [State.addReg, hi] using hp
      obtain ⟨hlt, hname, hlaunched⟩ := h.after i p hold
      have hp' : p ≠ s.next := by
        rintro rfl
        exact hlaunched (hw.fresh _ le_rfl).1
      simpa [State.addReg, State.nameOf, hi, hp', hlt] using ⟨hname, hlaunched⟩

lemma ChainInv.cancelOld (h : ChainInv s) (config : FeedConfig) : ChainInv (cancelOld config s) := by
  unfold FeedManager.cancelOld
  split
  · rename_i old _
    have hsound := h.sound old
    split_ifs
    · exact h.update rfl (.inl rfl) id ⟨hsound.waiting, hsound.launched, hsound.runnable⟩
    · exact h
  · exact h

/-- The predecessor of a new registration. -/
lemma previousDone_spec (h : ChainInv s) (hw : WellFormed s) {config : FeedConfig} {p : ℕ}
    (hp : previousDone config s = some p) :
    p < s.next ∧ s.nameOf p = config.name ∧ (s.reg p).loop ≠ .notStarted := by
  obtain ⟨old, hold, hprevious⟩ := Option.bind_eq_some_iff.1 hp
  obtain ⟨hlt, hname, -⟩ := hw.feeds _ _ hold
  split_ifs at hprevious with hcancel
  · obtain rfl : old = p := Option.some.inj hprevious
    exact ⟨hlt, hname, (h.sound old).launched hcancel⟩
  · obtain ⟨hbefore, hsame, hlaunched⟩ := h.after old p hprevious
    exact ⟨hbefore.trans hlt, hsame.trans hname, hlaunched⟩

lemma cancelOld_config (config : FeedConfig) (s : State) (r : ℕ) :
    ((cancelOld config s).reg r).config = (s.reg r).config := by
  obtain heq | ⟨-, -, heq⟩ := cancelOld_reg config s r <;> rw [heq]

lemma cancelOld_loop (config : FeedConfig) (s : State) (r : ℕ) :
    ((cancelOld config s).reg r).loop = (s.reg r).loop := by
  obtain heq | ⟨-, -, heq⟩ := cancelOld_reg config s r <;> rw [heq]

lemma ChainInv.replaced (h : ChainInv s) (hw : WellFormed s) (config : FeedConfig) :
    ChainInv (replaced config s) := by
  refine (h.cancelOld config).addReg (hw.cancelOld config) (Registration.sound_new config _) fun p hp => ?_
  rw [cancelOld_next, State.nameOf, cancelOld_config, cancelOld_loop]
  exact previousDone_spec h hw hp

lemma replaced_feeds (config : FeedConfig) (s : State) : (replaced config s).feeds config.name = some s.next := by
  simp [replaced, State.addReg, cancelOld_next]

lemma replaced_feeds_of_ne {config : FeedConfig} {name : String} (h : name ≠ config.name) (s : State) :
    (replaced config s).feeds name = s.feeds name := by
  simp [replaced, State.addReg, cancelOld_feeds, h]

/-- The new registration. -/
lemma replaced_reg_next (config : FeedConfig) (s : State) :
    (replaced config s).reg s.next = { config, startAfter := previousDone config s } := by
  simp [replaced, State.addReg, cancelOld_next]

lemma ChainInv.applyConfig (h : ChainInv s) (hw : WellFormed s) (config : FeedConfig) :
    ChainInv (applyConfig config s) := by
  have hreplaced := h.replaced hw config
  have hreg := replaced_reg_next config s
  obtain ⟨-, heq⟩ | ⟨-, hrun, -, ⟨p, hp, heq⟩ | ⟨-, heq⟩⟩ := applyConfig_cases config s <;> rw [heq]
  · exact hreplaced
  · have hsound : ({ (FeedManager.replaced config s).reg s.next with handover := .waiting p } : Registration).Sound := by
      rw [hreg]
      refine ⟨fun q hq => ?_, fun hcancel => (by cases hcancel), fun hloop => absurd rfl hloop⟩
      cases hq
      exact hp
    exact hreplaced.update rfl (.inl rfl) id hsound
  · exact hreplaced.startFeedLocked (by rw [hreg]; exact hrun) _ _

lemma ChainInv.release (h : ChainInv s) {r : ℕ} {startAfter : Option ℕ}
    (hafter : startAfter = (s.reg r).startAfter ∨ startAfter = none) : ChainInv (s.release r startAfter) := by
  have hsound := h.sound r
  refine h.update rfl hafter id ⟨fun _ hwaiting => ?_, hsound.launched, hsound.runnable⟩
  cases hwaiting

lemma ChainInv.handoverStart (h : ChainInv s) (r : ℕ) : ChainInv (handoverStart r s) := by
  obtain ⟨-, heq⟩ | ⟨hcurrent, heq⟩ := handoverStart_cases r s <;> rw [heq]
  · exact h.release (.inl rfl)
  · refine (h.release (.inr rfl)).startFeedLocked ?_ _ _
    simpa [State.release] using hcurrent.2

lemma shouldRun_of_runsIn {phase : FeedPhase} {config : FeedConfig} (h : runsIn phase config = true) :
    managerFeedShouldRun config = true := by
  simp only [runsIn, Bool.and_eq_true] at h
  exact h.1

lemma ChainInv.step (h : ChainInv s) (hw : WellFormed s) {action : Action}
    (hstep : step action s = some s') : ChainInv s' := by
  cases step_effect hstep with
  | register config =>
    refine h.addReg hw (Registration.sound_new config none) fun p hp => ?_
    cases hp
  | applyConfig config => exact h.applyConfig hw config
  | firstAsk _ _ hrun => exact (h.startFeedLocked (shouldRun_of_runsIn hrun) true false).congr rfl rfl
  | secondAsk _ _ hrun => exact (h.startFeedLocked (shouldRun_of_runsIn hrun) false true).congr rfl rfl
  | @loop r action rf lock heffect =>
    have hlaunched : (s.reg r).loop ≠ .notStarted := running_ne_notStarted heffect.wasRunning
    have hsound : rf.Sound := by
      refine ⟨fun p hp => ?_, fun _ => heffect.isStarted, fun _ => ?_⟩
      · rw [heffect.startAfter]
        exact (h.sound r).waiting p (heffect.handover ▸ hp)
      · rw [heffect.config]
        exact (h.sound r).runnable hlaunched
    exact (h.update heffect.config (.inl heffect.startAfter) (fun _ => heffect.isStarted) hsound).congr rfl rfl
  | handoverStart => exact h.handoverStart _
  | @handoverQuit r p hwaiting hctx => exact h.release (.inl rfl)
  | _ => exact h.congr rfl rfl

/-! ## Chains -/

/-- A loop is the current one of its feed, or the current one waits for it and was not launched. -/
def Linked (s : State) (r : ℕ) : Prop :=
  ∃ c, s.feeds (s.nameOf r) = some c ∧ (r = c ∨ (s.reg c).loop = .notStarted ∧ (s.reg c).startAfter = some r)

def Chained (s : State) : Prop := ∀ r, s.running r → Linked s r

lemma Chained.atMostOne (h : Chained s) : AtMostOne s := by
  intro r r' hr hr' hname
  obtain ⟨c, hc, hlink⟩ := h r hr
  obtain ⟨c', hc', hlink'⟩ := h r' hr'
  obtain rfl : c = c' := by
    rw [hname, hc'] at hc
    exact (Option.some.inj hc).symm
  rcases hlink with rfl | ⟨hnot, hafter⟩ <;> rcases hlink' with rfl | ⟨hnot', hafter'⟩
  · rfl
  · exact absurd hr (not_running_of_notStarted hnot')
  · exact absurd hr' (not_running_of_notStarted hnot)
  · rw [hafter] at hafter'
    exact Option.some.inj hafter'

lemma Chained.congr (h : Chained s) (hreg : s'.reg = s.reg) (hfeeds : s'.feeds = s.feeds) : Chained s' := by
  simpa [Chained, Linked, State.running, State.nameOf, hreg, hfeeds] using h

/-- A registration changes that is neither launched nor the one that a running loop is linked to. -/
lemma Chained.update (h : Chained s) {r : ℕ} {rf : Registration} (hconfig : rf.config = (s.reg r).config)
    (hrunning : rf.loop.isRunning = true → s.running r ∨ s.feeds (s.nameOf r) = some r)
    (hlink : (s.reg r).loop = .notStarted →
      (rf.loop = .notStarted ∧ rf.startAfter = (s.reg r).startAfter) ∨
        ∀ p, (s.reg r).startAfter = some p → ¬ s.running p) :
    Chained { s with reg := Function.update s.reg r rf } := by
  intro i hi
  have hname : ∀ j, (Function.update s.reg r rf j).config = (s.reg j).config := by
    intro j
    by_cases hj : j = r
    · subst hj
      simpa using hconfig
    · simp [hj]
  have hmoved : s.running i ∨ i = r ∧ s.feeds (s.nameOf r) = some r := by
    by_cases hir : i = r
    · subst hir
      have hrf : rf.loop.isRunning = true := by simpa [State.running] using hi
      exact (hrunning hrf).imp_right fun hcurrent => ⟨rfl, hcurrent⟩
    · exact .inl (by simpa [State.running, hir] using hi)
  rcases hmoved with hold | ⟨rfl, hcurrent⟩
  · obtain ⟨c, hc, hor⟩ := h i hold
    refine ⟨c, by simpa [State.nameOf, hname] using hc, hor.imp_right fun hwaits => ?_⟩
    obtain ⟨hnot, hafter⟩ := hwaits
    by_cases hcr : c = r
    · subst hcr
      rcases hlink hnot with ⟨hnot', hafter'⟩ | hnone
      · simpa [hnot', hafter'] using hafter
      · exact absurd hold (hnone i hafter)
    · simpa [hcr] using ⟨hnot, hafter⟩
  · refine ⟨i, ?_, .inl rfl⟩
    rw [State.nameOf, hname]
    exact hcurrent

/-- A current registration is launched whose predecessor is not running. -/
lemma Chained.startFeedLocked (h : Chained s) {r : ℕ} (hcurrent : s.feeds (s.nameOf r) = some r)
    (halone : ∀ p, (s.reg r).startAfter = some p → ¬ s.running p) (signals wait : Bool) :
    Chained (startFeedLocked r signals wait s) := by
  obtain ⟨-, heq⟩ | ⟨-, -, -, heq⟩ := startFeedLocked_cases r signals wait s
  · rwa [heq]
  · rw [heq]
    exact h.update rfl (fun _ => .inr hcurrent) fun _ => .inr halone

/-- The new registration waits for the loop of the feed that is running. -/
lemma previousDone_of_linked (hchain : ChainInv s) (hlaunch : LaunchInv s) (hctx : s.ctxDone = false)
    {config : FeedConfig} {r : ℕ} (hrunning : s.running r) (hlinked : Linked s r) (hname : s.nameOf r = config.name) :
    previousDone config s = some r := by
  obtain ⟨c, hc, hor⟩ := hlinked
  rw [hname] at hc
  rcases hor with rfl | ⟨hnot, hafter⟩
  · have hcancel : (s.reg r).cancel = true := by
      by_contra hcancel
      exact running_ne_notStarted hrunning (hlaunch.cancel hctx r (by simpa using hcancel))
    simp [previousDone, hc, hcancel]
  · have hcancel : (s.reg c).cancel = false := by
      by_contra hcancel
      exact (hchain.sound c).launched (by simpa using hcancel) hnot
    simp [previousDone, hc, hcancel, hafter]

lemma Chained.replaced (h : Chained s) (hw : WellFormed s) (hchain : ChainInv s) (hlaunch : LaunchInv s)
    (hctx : s.ctxDone = false) (config : FeedConfig) : Chained (replaced config s) := by
  intro r hr
  have hne : r ≠ s.next := by
    rintro rfl
    rw [State.running, replaced_reg_next] at hr
    cases hr
  have hreg : ∀ i, i ≠ s.next → (FeedManager.replaced config s).reg i = (cancelOld config s).reg i := by
    intro i hi
    simp [FeedManager.replaced, State.addReg, cancelOld_next, hi]
  have hold : s.running r := by
    rwa [State.running, hreg r hne, cancelOld_loop] at hr
  have hname : (FeedManager.replaced config s).nameOf r = s.nameOf r := by
    rw [State.nameOf, hreg r hne, cancelOld_config, State.nameOf]
  by_cases hsame : s.nameOf r = config.name
  · refine ⟨s.next, ?_, .inr ?_⟩
    · rw [hname, hsame]
      exact replaced_feeds config s
    · rw [replaced_reg_next]
      exact ⟨rfl, previousDone_of_linked hchain hlaunch hctx hold (h r hold) hsame⟩
  · obtain ⟨c, hc, hor⟩ := h r hold
    refine ⟨c, ?_, hor.imp_right fun hwaits => ?_⟩
    · rw [hname, replaced_feeds_of_ne hsame]
      exact hc
    · have hcne : c ≠ s.next := (hw.feeds _ _ hc).1.ne
      rw [hreg c hcne]
      obtain heq | ⟨-, -, heq⟩ := cancelOld_reg config s c <;> rw [heq] <;> exact hwaits

lemma Chained.applyConfig (h : Chained s) (hw : WellFormed s) (hchain : ChainInv s) (hlaunch : LaunchInv s)
    (hctx : s.ctxDone = false) (config : FeedConfig) : Chained (applyConfig config s) := by
  have hreplaced := h.replaced hw hchain hlaunch hctx config
  have hreg := replaced_reg_next config s
  obtain ⟨-, heq⟩ | ⟨-, -, -, ⟨p, hp, heq⟩ | ⟨hnone, heq⟩⟩ := applyConfig_cases config s <;> rw [heq]
  · exact hreplaced
  · refine hreplaced.update rfl (fun hrunning => ?_) fun hnot => .inl ⟨hnot, rfl⟩
    rw [hreg] at hrunning
    cases hrunning
  · refine hreplaced.startFeedLocked ?_ ?_ _ _
    · rw [State.nameOf, hreg]
      exact replaced_feeds config s
    · intro p hp
      rw [hreg, hnone] at hp
      cases hp

/-- The goroutine that hands over launches the loop after its predecessor is done. -/
lemma Chained.handoverStart (h : Chained s) (hchain : ChainInv s) {r p : ℕ}
    (hwaiting : (s.reg r).handover = .waiting p) (hfinished : (s.reg p).loop = .finished) :
    Chained (handoverStart r s) := by
  have hafter : (s.reg r).startAfter = some p := (hchain.sound r).waiting p hwaiting
  have hdone : ∀ q, (s.reg r).startAfter = some q → ¬ s.running q := by
    intro q hq
    rw [hafter] at hq
    cases hq
    simp [State.running, hfinished]
  obtain ⟨-, heq⟩ | ⟨hcurrent, heq⟩ := handoverStart_cases r s <;> rw [heq]
  · exact h.update rfl .inl fun hnot => .inl ⟨hnot, rfl⟩
  · have hrelease : Chained (s.release r none) := h.update rfl .inl fun _ => .inr hdone
    refine hrelease.startFeedLocked ?_ ?_ _ _
    · simp only [State.release, State.nameOf, modifyReg_reg_self]
      exact hcurrent.1
    · simp [State.release]

/-- As long as the context is not cancelled and `Start` launches no loop early, the loops stay chained. -/
lemma Chained.step (h : Chained s) (hinv : Inv s) (hchain : ChainInv s) (hctx : s.ctxDone = false) {action : Action}
    (hstep : step action s = some s') (hearly : action = .startNext → ¬ EarlyStart s) : Chained s' := by
  have hw := hinv.wellFormed
  have hsignal := hinv.signal
  cases step_effect hstep with
  | register config hlocked hstarted =>
    intro r hr
    have hunlaunched := (hsignal.notCalled hstarted).2
    by_cases hne : r = s.next
    · subst hne
      simp [State.running, State.addReg] at hr
    · have hold : s.running r := by simpa [State.running, State.addReg, hne] using hr
      exact absurd hold (not_running_of_notStarted (hinv.launch.cancel hctx r (hunlaunched r).2.1))
  | applyConfig config => exact h.applyConfig hw hchain hinv.launch hctx config
  | @firstAsk name rest signals r hstart hfeeds hrun =>
    obtain ⟨-, hname, -⟩ := hw.feeds _ _ hfeeds
    have hcurrent : s.feeds (s.nameOf r) = some r := by rwa [State.nameOf, hname]
    refine (h.startFeedLocked hcurrent (fun p hp => ?_) true false).congr rfl rfl
    obtain ⟨-, hsame, hlaunched⟩ := hchain.after r p hp
    have hp' : (s.reg p).config.name ∈ name :: rest := by
      rw [State.nameOf, State.nameOf, hname] at hsame
      simp [hsame]
    exact absurd (hinv.launch.cancel hctx p ((hsignal.first _ _ hstart).2 p hp').2.1) hlaunched
  | @secondAsk name rest r hstart hfeeds hrun =>
    obtain ⟨-, hname, -⟩ := hw.feeds _ _ hfeeds
    have hcurrent : s.feeds (s.nameOf r) = some r := by rwa [State.nameOf, hname]
    cases hcancel : (s.reg r).cancel with
    | true =>
      have hkept : FeedManager.startFeedLocked r false true s = s := by simp [FeedManager.startFeedLocked, hcancel]
      rw [hkept]
      exact h.congr rfl rfl
    | false =>
      refine (h.startFeedLocked hcurrent (fun p hp hrunning => ?_) false true).congr rfl rfl
      exact hearly rfl ⟨hctx, name, rest, r, p, hstart, hfeeds, hrun, hcancel, hp, hrunning⟩
  | @loop r action rf lock heffect =>
    refine (h.update heffect.config (fun _ => .inl heffect.wasRunning) fun hnot => ?_).congr rfl rfl
    exact absurd heffect.wasRunning (not_running_of_notStarted hnot)
  | handoverStart hwaiting hfinished => exact h.handoverStart hchain hwaiting hfinished
  | handoverQuit _ hdone => simp [hctx] at hdone
  | _ => exact h.congr rfl rfl

/-! ## Launches that are due -/

/-- `Start` has yet to launch the loop. -/
def StartPending (s : State) (r : ℕ) : Prop :=
  match s.start with
  | .notCalled => True
  | .first feeds _ => runsIn .enrichment (s.reg r).config = true ∨ s.nameOf r ∈ feeds
  | .unlocked _ | .launched => runsIn .enrichment (s.reg r).config = true
  | .second feeds => runsIn .enrichment (s.reg r).config = true ∧ s.nameOf r ∈ feeds
  | .returned => False

/-- The loop of a current registration that is to run was launched, or somebody is going to launch it. -/
def Due (s : State) (r : ℕ) : Prop :=
  s.feeds (s.nameOf r) = some r → managerFeedShouldRun (s.reg r).config = true → (s.reg r).loop = .notStarted →
    StartPending s r ∨ ∃ p, (s.reg r).handover = .waiting p

/-- What is due stays due while `Start` goes on. -/
lemma Due.mono {r : ℕ} (h : Due s r) (hconfig : (s'.reg r).config = (s.reg r).config)
    (hloop : (s'.reg r).loop = (s.reg r).loop) (hhandover : (s'.reg r).handover = (s.reg r).handover)
    (hfeeds : s'.feeds (s.nameOf r) = some r → s.feeds (s.nameOf r) = some r)
    (hpending : s.feeds (s.nameOf r) = some r → managerFeedShouldRun (s.reg r).config = true →
      StartPending s r → StartPending s' r) : Due s' r := by
  intro hcurrent hrun hnot
  rw [State.nameOf, hconfig] at hcurrent
  rw [hconfig] at hrun
  rw [hloop] at hnot
  rw [hhandover]
  have hcurrent' := hfeeds hcurrent
  exact (h hcurrent' hrun hnot).imp_left (hpending hcurrent' hrun)

lemma StartPending.congr {r : ℕ} (h : StartPending s r) (hconfig : (s'.reg r).config = (s.reg r).config)
    (hstart : s'.start = s.start) : StartPending s' r := by
  rw [StartPending, hstart, State.nameOf, hconfig]
  exact h

lemma Due.congr {r : ℕ} (h : Due s r) (hreg : s'.reg r = s.reg r) (hfeeds : s'.feeds = s.feeds)
    (hstart : s'.start = s.start) : Due s' r :=
  h.mono (by rw [hreg]) (by rw [hreg]) (by rw [hreg]) (by rw [hfeeds]; exact id)
    fun _ _ hpending => hpending.congr (by rw [hreg]) hstart

lemma runsIn_of_shouldRun {config : FeedConfig} (h : managerFeedShouldRun config = true) :
    runsIn .vulnerability config = true ∨ runsIn .enrichment config = true := by
  obtain ⟨name, enabled, mode, phase⟩ := config
  cases phase <;> simp [runsIn, h, feedPhase]

/-- A current registration is launched, the others stay. -/
lemma startFeedLocked_loop (hchain : ChainInv s) (hstarted : s.started = true) (hctx : s.ctxDone = false) (r i : ℕ)
    (signals wait : Bool) (hnot : ((startFeedLocked r signals wait s).reg i).loop = .notStarted) :
    i ≠ r ∧ (startFeedLocked r signals wait s).reg i = s.reg i := by
  obtain ⟨hor, heq⟩ | ⟨-, -, -, heq⟩ := startFeedLocked_cases r signals wait s
  · rw [heq] at hnot ⊢
    have hcancel : (s.reg r).cancel = true := by simpa [hstarted, hctx] using hor
    refine ⟨?_, rfl⟩
    rintro rfl
    exact (hchain.sound i).launched hcancel hnot
  · rw [heq] at hnot ⊢
    have hne : i ≠ r := by
      rintro rfl
      cases wait <;> simp at hnot
    exact ⟨hne, modifyReg_reg_of_ne s hne _⟩

lemma Due.replaced {r : ℕ} (h : Due s r) (hne : r ≠ s.next) (config : FeedConfig) : Due (replaced config s) r := by
  have hreg : (FeedManager.replaced config s).reg r = (cancelOld config s).reg r := by
    simp [FeedManager.replaced, State.addReg, cancelOld_next, hne]
  have hconfig : ((FeedManager.replaced config s).reg r).config = (s.reg r).config := by
    rw [hreg, cancelOld_config]
  refine h.mono hconfig (by rw [hreg, cancelOld_loop]) ?_ ?_ fun _ _ hpending => ?_
  · rw [hreg]
    obtain heq | ⟨-, -, heq⟩ := cancelOld_reg config s r <;> rw [heq]
  · by_cases hname : s.nameOf r = config.name
    · rw [hname, replaced_feeds]
      exact fun hnext => absurd (Option.some.inj hnext).symm hne
    · rw [replaced_feeds_of_ne hname]
      exact id
  · exact hpending.congr hconfig (cancelOld_start config s)

lemma Due.applyConfig (h : ∀ r, Due s r) (hw : WellFormed s) (hchain : ChainInv s) (hsignal : SignalInv s)
    (hctx : s.ctxDone = false) (config : FeedConfig) (r : ℕ) : Due (applyConfig config s) r := by
  have hreg := replaced_reg_next config s
  have hold : r ≠ s.next → Due (FeedManager.replaced config s) r := fun hne => (h r).replaced hne config
  obtain ⟨hor, heq⟩ | ⟨hstarted, -, -, ⟨p, hp, heq⟩ | ⟨-, heq⟩⟩ := applyConfig_cases config s
  · by_cases hne : r = s.next
    · intro _ hrun _
      rw [heq, hne, hreg] at hrun
      have hstarted : s.started = false := by simpa [hctx, show managerFeedShouldRun config = true from hrun] using hor
      left
      rw [StartPending, (applyConfig_frame config s).1, (hsignal.notCalled hstarted).1]
      trivial
    · rw [heq]
      exact hold hne
  · rw [heq]
    by_cases hne : r = s.next
    · subst hne
      exact fun _ _ _ => .inr ⟨p, by simp⟩
    · exact (hold hne).congr (modifyReg_reg_of_ne _ hne _) rfl rfl
  · rw [heq]
    intro hcurrent hrun hnot
    have hstarted' : (FeedManager.replaced config s).started = true := (cancelOld_started config s).trans hstarted
    have hctx' : (FeedManager.replaced config s).ctxDone = false := (cancelOld_ctxDone config s).trans hctx
    obtain ⟨hne, hsame⟩ := startFeedLocked_loop (hchain.replaced hw config) hstarted' hctx' _ _ _ _ hnot
    have hdue : Due (FeedManager.startFeedLocked s.next false (decide (feedPhase config = .enrichment))
        (FeedManager.replaced config s)) r := (hold hne).congr hsame (by simp) (by simp)
    exact hdue hcurrent hrun hnot

lemma Due.handoverStart (h : ∀ r, Due s r) (hchain : ChainInv s) (hstarted : s.started = true)
    (hctx : s.ctxDone = false) (i r : ℕ) : Due (handoverStart i s) r := by
  intro hcurrent hrun hnot
  obtain ⟨-, -, -, hfeeds⟩ := handoverStart_frame i s
  -- The registration that is handed over is dropped or launched, so it is another one.
  obtain ⟨hne, hreg⟩ : r ≠ i ∧ (FeedManager.handoverStart i s).reg r = s.reg r := by
    obtain ⟨hdropped, heq⟩ | ⟨-, heq⟩ := handoverStart_cases i s
    · have hne : r ≠ i := by
        rintro rfl
        rw [hfeeds] at hcurrent
        rw [heq] at hcurrent hrun
        simp only [State.release, State.nameOf, modifyReg_reg_self] at hcurrent hrun
        exact hdropped ⟨hcurrent, hrun⟩
      exact ⟨hne, by rw [heq]; exact modifyReg_reg_of_ne s hne _⟩
    · rw [heq] at hnot ⊢
      obtain ⟨hne, hsame⟩ :=
        startFeedLocked_loop (s := s.release i none) (hchain.release (.inr rfl)) hstarted hctx i r _ _ hnot
      exact ⟨hne, hsame.trans (modifyReg_reg_of_ne s hne _)⟩
  exact (h r).congr hreg hfeeds (handoverStart_frame i s).1 hcurrent hrun hnot

/-- `Start` launches the next feed of a critical section, and what is due after it was due before. -/
lemma Due.startFeedLocked (h : ∀ r, Due s r) (hchain : ChainInv s) (hstarted : s.started = true)
    (hctx : s.ctxDone = false) {name : String} {i : ℕ} (hfeeds : s.feeds name = some i) (signals wait : Bool)
    {start : StartState} {r : ℕ}
    (hpending : s.nameOf r ≠ name → StartPending s r → StartPending { s with start } r) :
    Due { startFeedLocked i signals wait s with start } r := by
  intro hcurrent hrun hnot
  obtain ⟨hne, hreg⟩ := startFeedLocked_loop hchain hstarted hctx i r signals wait hnot
  have hother : s.nameOf r ≠ name := by
    rintro rfl
    simp only [State.nameOf, hreg, startFeedLocked_feeds] at hcurrent
    rw [State.nameOf, hcurrent] at hfeeds
    exact hne (Option.some.inj hfeeds)
  have hdue : Due { s with start } r :=
    (h r).mono rfl rfl rfl id fun _ _ => hpending hother
  refine hdue.congr hreg ?_ rfl hcurrent hrun hnot
  exact startFeedLocked_feeds _ _ _ _

lemma Due.step (h : ∀ r, Due s r) (hinv : Inv s) (hchain : ChainInv s) (hctx : s.ctxDone = false) {action : Action}
    (hstep : step action s = some s') (r : ℕ) : Due s' r := by
  have hw := hinv.wellFormed
  have hsignal := hinv.signal
  cases step_effect hstep with
  | register config hlocked hstarted =>
    intro _ _ _
    left
    simp [StartPending, State.addReg, (hsignal.notCalled hstarted).1]
  | applyConfig config => exact Due.applyConfig h hw hchain hsignal hctx config r
  | startCall order hlocked hstarted horder =>
    refine (h r).mono rfl rfl rfl id fun hcurrent _ _ => .inr ?_
    exact horder.mem_iff.2 (hw.feeds _ _ hcurrent).2.2
  | @firstSkip name rest signals hstart hskip =>
    refine (h r).mono rfl rfl rfl id fun hcurrent hrun hpending => ?_
    by_cases hname : s.nameOf r = name
    · rw [hname] at hcurrent
      exact .inl ((runsIn_of_shouldRun hrun).resolve_left (by simp [hskip r hcurrent]))
    · rw [StartPending, hstart] at hpending
      exact hpending.imp_right fun hmem => (List.mem_cons.1 hmem).resolve_left hname
  | @firstAsk name rest signals i hstart hfeeds hrun =>
    refine Due.startFeedLocked h hchain (hsignal.started_of_ne (by simp [hstart])) hctx hfeeds true false ?_
    intro hname hpending
    rw [StartPending, hstart] at hpending
    exact hpending.imp_right fun hmem => (List.mem_cons.1 hmem).resolve_left hname
  | firstEnd hstart =>
    refine (h r).mono rfl rfl rfl id fun _ _ hpending => ?_
    rw [StartPending, hstart] at hpending
    exact hpending.resolve_right (List.not_mem_nil)
  | @secondSkip name rest hstart hskip =>
    refine (h r).mono rfl rfl rfl id fun hcurrent hrun hpending => ?_
    rw [StartPending, hstart] at hpending
    refine ⟨hpending.1, (List.mem_cons.1 hpending.2).resolve_left fun hname => ?_⟩
    rw [hname] at hcurrent
    simp [hskip r hcurrent] at hpending
  | @secondAsk name rest i hstart hfeeds hrun =>
    refine Due.startFeedLocked h hchain (hsignal.started_of_ne (by simp [hstart])) hctx hfeeds false true ?_
    intro hname hpending
    rw [StartPending, hstart] at hpending
    exact ⟨hpending.1, (List.mem_cons.1 hpending.2).resolve_left hname⟩
  | secondEnd hstart =>
    refine (h r).mono rfl rfl rfl id fun _ _ hpending => ?_
    rw [StartPending, hstart] at hpending
    exact absurd hpending.2 List.not_mem_nil
  | launchCollector hstart =>
    refine (h r).mono rfl rfl rfl id fun _ _ hpending => ?_
    rwa [StartPending, hstart] at hpending
  | lockSecond order hstart horder =>
    refine (h r).mono rfl rfl rfl id fun hcurrent _ hpending => ?_
    rw [StartPending, hstart] at hpending
    exact ⟨hpending, horder.mem_iff.2 (hw.feeds _ _ hcurrent).2.2⟩
  | @loop i action rf lock heffect =>
    by_cases hi : r = i
    · subst hi
      intro _ _ hnot
      exact absurd (by simpa using hnot) heffect.isStarted
    · exact (h r).congr (by simp [hi]) rfl rfl
  | @handoverStart i p hwaiting hfinished hlocked =>
    have hstarted : s.started = true := by
      by_contra hnot
      have habsent := ((hsignal.notCalled (Bool.eq_false_iff.2 hnot)).2 i).2.2.2
      simp [hwaiting] at habsent
    exact Due.handoverStart h hchain hstarted hctx i r
  | handoverQuit _ hdone => simp [hctx] at hdone
  | _ => exact (h r).congr rfl rfl rfl

/-! ## Whole runs -/

/-- The calls of the manager, and the end of its context. -/
def IsCall : Action → Prop
  | .cancelContext | .register _ | .applyConfig _ | .startCall _ => True
  | _ => False

/-- A goroutine that hands over finds its predecessor done. -/
def IsHandover : Action → Prop
  | .handoverStart _ => True
  | _ => False

/-- Every loop that runs is the current one of its feed. -/
def ReplacedEnded (s : State) : Prop := ∀ r, s.running r → s.feeds (s.nameOf r) = some r

/-- Once the calls stop and the replaced loops ended, the loops that run come to be those of the last
configurations. -/
def Converges (run : Run step) : Prop :=
  ∀ n, run.Only (fun action => ¬ IsCall action) n → (run.state n).start = .returned →
    (run.state n).ctxDone = false → ReplacedEnded (run.state n) → ∃ m ≥ n, ∀ k ≥ m, Converged (run.state k)

/-- What holds before the context is cancelled. -/
structure Live (s : State) : Prop where
  inv : Inv s
  chain : ChainInv s
  due : s.ctxDone = false → ∀ r, Due s r

lemma live_init : Live .init := ⟨inv_init, chainInv_init, fun _ _ _ _ _ => .inl trivial⟩

lemma ctxDone_eq_false {action : Action} (hstep : step action s = some s') (h : s'.ctxDone = false) :
    s.ctxDone = false := by
  by_contra hnot
  rw [step_ctxDone hstep (Bool.eq_true_of_not_eq_false hnot)] at h
  cases h

lemma Live.step (h : Live s) {action : Action} (hstep : step action s = some s') : Live s' where
  inv := h.inv.step hstep
  chain := h.chain.step h.inv.wellFormed hstep
  due hctx :=
    have hctx' := ctxDone_eq_false hstep hctx
    Due.step (h.due hctx') h.inv h.chain hctx' hstep

lemma live_state {run : Run FeedManager.step} (hinit : run.state 0 = .init) (n : ℕ) : Live (run.state n) :=
  run.persists (P := Live) (fun _ _ _ hstep h => h.step hstep) (Nat.zero_le n) (hinit ▸ live_init)

/-- Without a goroutine to hand over, the loops that run are those of the last configurations. -/
lemma Live.converged (h : Live s) (hctx : s.ctxDone = false) (hreturned : s.start = .returned)
    (hended : ReplacedEnded s) (hquiet : ∀ action s', IsHandover action → FeedManager.step action s ≠ some s') :
    Converged s := by
  intro r
  have hsound := h.chain.sound r
  refine ⟨fun hrunning => ⟨hended r hrunning, hsound.runnable (running_ne_notStarted hrunning)⟩, ?_⟩
  rintro ⟨hcurrent, hrun⟩
  have hlaunched : (s.reg r).loop ≠ .notStarted := by
    intro hnot
    obtain hpending | ⟨p, hwaiting⟩ := h.due hctx r hcurrent hrun hnot
    · rwa [StartPending, hreturned] at hpending
    · -- The predecessor was launched and is not the current one, so it is done.
      obtain ⟨hlt, hname, hlaunched⟩ := h.chain.after r p (hsound.waiting p hwaiting)
      have hdone : (s.reg p).loop = .finished := by
        have hnotRunning : ¬ s.running p := by
          intro hrunning
          have hp := hended p hrunning
          rw [hname, hcurrent] at hp
          exact hlt.ne (Option.some.inj hp).symm
        cases hloop : (s.reg p).loop <;> simp_all [State.running]
      refine hquiet (.handoverStart r) (handoverStart r s) trivial ?_
      simp [FeedManager.step, hwaiting, hdone, State.locked, hreturned]
  have hending : (s.reg r).loop.isEnding ≠ true := by
    intro hending
    have hcancelled := (h.inv.launch.ending r hending).resolve_left (by simp [hctx])
    exact h.inv.launch.current r hcancelled hcurrent
  unfold State.running
  cases hloop : (s.reg r).loop <;> simp_all

/-- The goroutines that wait to hand over. -/
def handovers (s : State) : ℕ := ∑ r ∈ Finset.range s.next, (s.reg r).handover.rank

/-- The calls stopped, and the replaced loops ended. -/
structure Settled (s : State) : Prop where
  live : Live s
  ctxDone : s.ctxDone = false
  returned : s.start = .returned
  ended : ReplacedEnded s

/-- The goroutine that hands over is done, and launches a loop only if it is the current one. -/
lemma handoverStart_reg (i r : ℕ) :
    (r ≠ i → (handoverStart i s).reg r = s.reg r) ∧
      ((handoverStart i s).reg i).handover = .over ∧ (handoverStart i s).nameOf i = s.nameOf i ∧
      ((handoverStart i s).running i → s.running i ∨ s.feeds (s.nameOf i) = some i) := by
  obtain ⟨-, heq⟩ | ⟨hcurrent, heq⟩ := handoverStart_cases i s
  · rw [heq]
    exact ⟨fun hne => modifyReg_reg_of_ne s hne _, by simp [State.release], by simp [State.release, State.nameOf],
      fun hrunning => .inl (by simpa [State.release, State.running] using hrunning)⟩
  · rw [heq]
    obtain ⟨-, hsame⟩ | ⟨-, -, -, hsame⟩ := startFeedLocked_cases i false
      (decide (feedPhase (s.reg i).config = .enrichment)) (s.release i none) <;> rw [hsame]
    · exact ⟨fun hne => modifyReg_reg_of_ne s hne _, by simp [State.release], by simp [State.release, State.nameOf],
        fun _ => .inr hcurrent.1⟩
    · exact ⟨fun hne => by simp [State.release, hne], by simp [State.release], by simp [State.release, State.nameOf],
        fun _ => .inr hcurrent.1⟩

lemma Settled.handoverStart_ended (h : Settled s) (i : ℕ) : ReplacedEnded (handoverStart i s) := by
  intro r hr
  obtain ⟨hother, -, hname, hrunning⟩ := @handoverStart_reg s i r
  rw [(handoverStart_frame i s).2.2.2]
  by_cases hi : r = i
  · subst hi
    rw [hname]
    exact (hrunning hr).elim (h.ended r) id
  · rw [State.running, hother hi] at hr
    rw [State.nameOf, hother hi]
    exact h.ended r hr

lemma handovers_handoverStart (hw : WellFormed s) {i p : ℕ} (hwaiting : (s.reg i).handover = .waiting p) :
    handovers (handoverStart i s) < handovers s := by
  unfold handovers
  rw [(handoverStart_frame i s).2.2.1]
  refine Finset.sum_lt_sum (fun r _ => ?_) ⟨i, Finset.mem_range.2 (handover_waiting_lt hw hwaiting), ?_⟩
  · by_cases hi : r = i
    · rw [hi, (@handoverStart_reg s i r).2.1]
      exact Nat.zero_le _
    · rw [(@handoverStart_reg s i r).1 hi]
  · rw [(@handoverStart_reg s i i).2.1, hwaiting]
    exact Nat.one_pos

/-- Without calls, the manager stays settled, and goroutines that wait to hand over only become fewer. -/
lemma Settled.step (h : Settled s) {action : Action} (hcall : ¬ IsCall action) (hstep : step action s = some s') :
    Settled s' ∧ handovers s' ≤ handovers s ∧ (IsHandover action → handovers s' < handovers s) := by
  have hlive := h.live.step hstep
  have hctx := h.ctxDone
  have hreturned := h.returned
  cases step_effect hstep with
  | syncOneBusy | syncOne | syncOneEnds | receive | propagate | collectorEnd =>
    exact ⟨⟨hlive, hctx, hreturned, h.ended⟩, le_rfl, fun himpossible => himpossible.elim⟩
  | @loop i action rf lock heffect =>
    refine ⟨⟨hlive, hctx, hreturned, fun r hr => ?_⟩, le_of_eq ?_, fun himpossible => himpossible.elim⟩
    · by_cases hi : r = i
      · subst hi
        simpa [State.nameOf, heffect.config] using h.ended r heffect.wasRunning
      · simpa [State.nameOf, hi] using h.ended r (by simpa [State.running, hi] using hr)
    · refine Finset.sum_congr rfl fun r _ => ?_
      by_cases hi : r = i
      · subst hi
        simp [heffect.handover]
      · simp [hi]
  | @handoverStart i p hwaiting =>
    have hlt := handovers_handoverStart h.live.inv.wellFormed hwaiting
    have hctx' : (FeedManager.handoverStart i s).ctxDone = false := by
      obtain ⟨-, heq⟩ | ⟨-, heq⟩ := handoverStart_cases i s <;> rw [heq]
      · exact hctx
      · rw [startFeedLocked_ctxDone]
        exact hctx
    exact ⟨⟨hlive, hctx', (handoverStart_frame i s).1.trans hreturned, h.handoverStart_ended i⟩, hlt.le, fun _ => hlt⟩
  | handoverQuit _ hdone => simp [hctx] at hdone
  | firstSkip hstart | firstAsk hstart | firstEnd hstart | secondSkip hstart | secondAsk hstart | secondEnd hstart
  | launchCollector hstart | lockSecond _ hstart => simp [hreturned] at hstart
  | _ => exact absurd trivial hcall

variable {run : Run FeedManager.step}

lemma converges_of_fair (hinit : run.state 0 = .init)
    (hfair : run.Fair IsHandover fun s => s.ctxDone = false) : Converges run := by
  intro n honly hreturned hctx hended
  have hsettled : Settled (run.state n) := ⟨live_state hinit n, hctx, hreturned, hended⟩
  have hfair' : run.Fair IsHandover Settled := fun k hk => hfair k hk.ctxDone
  obtain ⟨m, hnm, hquiet⟩ := run.eventually_quiet hfair' handovers
    (fun _ _ _ hcall hstep h => (h.step hcall hstep).1) (fun _ _ _ hcall hstep h => (h.step hcall hstep).2.1)
    (fun _ _ _ hcall hstep h => (h.step hcall hstep).2.2) honly hsettled
  refine ⟨m, hnm, fun k hk => ?_⟩
  have hk' : Settled (run.state k) :=
    run.persists_of_only (fun _ _ _ hcall hstep h => (h.step hcall hstep).1) honly (hnm.trans hk) hsettled
  exact hk'.live.converged hk'.ctxDone hk'.returned hk'.ended (hquiet k hk)

/-- Under a cancelled context no loop is launched. -/
lemma running_of_step (hctx : s.ctxDone = true) {action : Action} (hstep : step action s = some s') {r : ℕ}
    (hr : s'.running r) : s.running r ∧ s'.nameOf r = s.nameOf r := by
  cases step_effect hstep with
  | register config =>
    have hne : r ≠ s.next := by
      rintro rfl
      simp [State.running, State.addReg] at hr
    exact ⟨by simpa [State.running, State.addReg, hne] using hr, by simp [State.nameOf, State.addReg, hne]⟩
  | applyConfig config =>
    rw [applyConfig_of_ctxDone hctx] at hr ⊢
    have hne : r ≠ s.next := by
      rintro rfl
      rw [State.running, replaced_reg_next] at hr
      cases hr
    have hreg : (replaced config s).reg r = (cancelOld config s).reg r := by
      simp [replaced, State.addReg, cancelOld_next, hne]
    rw [State.running, hreg, cancelOld_loop] at hr
    rw [State.nameOf, hreg, cancelOld_config]
    exact ⟨hr, rfl⟩
  | firstAsk | secondAsk =>
    rw [startFeedLocked_of_ctxDone hctx] at hr ⊢
    exact ⟨hr, rfl⟩
  | @loop i action rf lock heffect =>
    by_cases hi : r = i
    · subst hi
      exact ⟨heffect.wasRunning, by simp [State.nameOf, heffect.config]⟩
    · exact ⟨by simpa [State.running, hi] using hr, by simp [State.nameOf, hi]⟩
  | @handoverStart i =>
    obtain ⟨startAfter, heq⟩ := handoverStart_of_ctxDone hctx i
    rw [heq] at hr ⊢
    by_cases hi : r = i
    · subst hi
      simpa [State.release, State.running, State.nameOf] using hr
    · simpa [State.release, State.running, State.nameOf, hi] using hr
  | @handoverQuit i =>
    by_cases hi : r = i
    · subst hi
      simpa [State.running, State.nameOf] using hr
    · simpa [State.running, State.nameOf, hi] using hr
  | _ => exact ⟨hr, rfl⟩

lemma AtMostOne.step (h : AtMostOne s) (hctx : s.ctxDone = true) {action : Action}
    (hstep : step action s = some s') : AtMostOne s' := by
  intro r r' hr hr' hname
  obtain ⟨hold, hsame⟩ := running_of_step hctx hstep hr
  obtain ⟨hold', hsame'⟩ := running_of_step hctx hstep hr'
  exact h r r' hold hold' (hsame.symm.trans (hname.trans hsame'))

lemma atMostOne_state (hinit : run.state 0 = .init)
    (hearly : ∀ n, run.label n = some .startNext → ¬ EarlyStart (run.state n)) (n : ℕ) :
    AtMostOne (run.state n) ∧ ((run.state n).ctxDone = false → Chained (run.state n)) := by
  induction n with
  | zero =>
    have hchained : Chained (run.state 0) := by
      intro r hr
      simp [hinit, State.running, State.init] at hr
    exact ⟨hchained.atMostOne, fun _ => hchained⟩
  | succ n ih =>
    cases hlabel : run.label n with
    | none => rwa [run.next_none hlabel]
    | some action =>
      have hstep := run.next_some hlabel
      have hlive := live_state hinit n
      cases hctx : (run.state n).ctxDone with
      | true => exact ⟨ih.1.step hctx hstep, fun hnot => by simp [step_ctxDone hstep hctx] at hnot⟩
      | false =>
        have hchained : Chained (run.state (n + 1)) := by
          refine (ih.2 hctx).step hlive.inv hlive.chain hctx hstep ?_
          rintro rfl
          exact hearly n hlabel
        exact ⟨hchained.atMostOne, fun _ => hchained⟩

/-- An early start makes two loops of one feed run. -/
lemma EarlyStart.not_atMostOne (h : EarlyStart s) (hlive : Live s) (hstep : step .startNext s = some s') :
    ¬ AtMostOne s' := by
  obtain ⟨hctx, name, rest, r, p, hstart, hfeeds, hrun, hcancel, hafter, hrunning⟩ := h
  obtain ⟨hlt, hname, -⟩ := hlive.chain.after r p hafter
  have hstarted := hlive.inv.signal.started_of_ne (by simp [hstart])
  have hlaunch : startFeedLocked r false true s = s.modifyReg r fun rf =>
      { rf with cancel := true, loop := .waitingPhase, signals := false } := by
    simp [startFeedLocked, hcancel, hstarted, hctx]
  have heq : s' = { startFeedLocked r false true s with start := .second rest } := by
    simp only [FeedManager.step, hstart, startSecond, hfeeds] at hstep
    rw [if_pos hrun] at hstep
    exact (Option.some.inj hstep).symm
  intro hone
  refine hlt.ne (hone p r ?_ ?_ ?_)
  · simpa [heq, hlaunch, State.running, State.modifyReg, hlt.ne] using hrunning
  · simp [heq, hlaunch, State.running, State.modifyReg]
  · simpa [heq, hlaunch, State.nameOf, State.modifyReg, hlt.ne] using hname

/-- **Reconfiguration.**  At most one loop of each feed runs, and the loops that run come to be those of the last
configurations, unless the second critical section of `Start` launches a loop whose predecessor is still
running. -/
theorem reconfiguration_iff (run : Run step) (hinit : run.state 0 = .init)
    (hfair : run.Fair IsHandover fun s => s.ctxDone = false) :
    ((∀ n, AtMostOne (run.state n)) ∧ Converges run) ↔
      ∀ n, run.label n = some .startNext → ¬ EarlyStart (run.state n) := by
  constructor
  · rintro ⟨hone, -⟩ n hlabel hearly
    exact hearly.not_atMostOne (live_state hinit n) (run.next_some hlabel) (hone (n + 1))
  · intro hearly
    exact ⟨fun n => (atMostOne_state hinit hearly n).1, converges_of_fair hinit hfair⟩

/-- The configuration of a running feed is replaced, and the new loop is launched after the old one. -/
def replacedAtWork : List Action :=
  [.register osv, .startCall ["osv"], .startNext, .startNext, .launchCollector, .lockSecond ["osv"], .startNext,
    .startNext, .applyConfig osv, .loop 0 (.decide false), .loop 0 .signal, .loop 0 .exit, .loop 0 .markStopped,
    .loop 0 .closeDone, .handoverStart 1]

lemma replacedAtWork_fair : (Run.ofList step .init replacedAtWork).Fair IsHandover fun s => s.ctxDone = false := by
  have hw : WellFormed (play step .init replacedAtWork 15) :=
    (@live_state (Run.ofList step .init replacedAtWork) rfl 15).inv.wellFormed
  have hquiet : ∀ action s', IsHandover action → step action (play step .init replacedAtWork 15) ≠ some s' := by
    intro action s' haction hstep
    cases step_effect hstep with
    | @handoverStart r p hwaiting =>
      have hr : r < 2 := handover_waiting_lt hw hwaiting
      have hnone : ∀ i < 2, ((play step .init replacedAtWork 15).reg i).handover.rank = 0 := by decide
      have hrank := hnone r hr
      rw [hwaiting] at hrank
      cases hrank
    | _ => exact haction
  exact Run.fair_ofList step (a := .handoverStart 1) rfl trivial hquiet _

/-- `Start` goes through the feeds while there is one registration, which waits for none. -/
lemma replacedAtWork_first {n : ℕ} (hlabel : (Run.ofList step .init replacedAtWork).label n = some .startNext) :
    (play step .init replacedAtWork n).next = 1 ∧ ((play step .init replacedAtWork n).reg 0).startAfter = none := by
  by_cases hn : n < 15
  · revert hlabel
    revert n
    decide
  · have hnone : replacedAtWork[n]? = none := List.getElem?_eq_none (not_lt.1 hn)
    simp [Run.ofList, hnone] at hlabel

theorem replacedAtWork_atMostOne :
    (∀ n, AtMostOne ((Run.ofList step .init replacedAtWork).state n)) ∧
      Converges (Run.ofList step .init replacedAtWork) := by
  refine (reconfiguration_iff _ rfl replacedAtWork_fair).2 fun n hlabel hearly => ?_
  obtain ⟨-, name, rest, r, p, -, hfeeds, -, -, hafter, -⟩ := hearly
  obtain ⟨hnext, hnone⟩ := replacedAtWork_first hlabel
  have hw := (@live_state (Run.ofList step .init replacedAtWork) rfl n).inv.wellFormed
  have hr : r < 1 := hnext ▸ (hw.feeds name r hfeeds).1
  obtain rfl : r = 0 := Nat.lt_one_iff.1 hr
  have hsome : ((play step .init replacedAtWork n).reg 0).startAfter = some p := hafter
  simp [hnone] at hsome

/-- A feed of phase 2. -/
def nvd : FeedConfig := ⟨"nvd", true, .self, .enrichment⟩

/-- A feed of phase 2 is replaced twice between the two critical sections of `Start`. -/
def replacedAtStart : List Action :=
  [.register nvd, .startCall ["nvd"], .startNext, .startNext, .applyConfig nvd, .applyConfig nvd, .launchCollector,
    .lockSecond ["nvd"], .startNext]

/-- The second critical section launches the last registration while the loop of the one before is running. -/
theorem replacedAtStart_two_loops :
    (∀ n < 9, (Run.ofList step .init replacedAtStart).label n = replacedAtStart[n]?) ∧
      ¬ AtMostOne ((Run.ofList step .init replacedAtStart).state 9) := by
  refine ⟨by decide, fun hone => ?_⟩
  have hequal : 1 = 2 := hone 1 2 rfl rfl rfl
  cases hequal

end Packmon.FeedManager

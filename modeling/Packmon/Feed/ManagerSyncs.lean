import Packmon.Feed.ManagerShutdown

/-!
# Syncs of the feed manager

Loops of one feed may overlap while a configuration is replaced, and `SyncOne` comes in at any time; the lock
of the feed's name keeps their syncs apart (`syncs_exclusive`).  A feed of phase 2 works only behind phase 1:
by then every loop that `Start` launched for phase 1 has reported its first sync (`enrichment_after_reports`).
-/

namespace Packmon.FeedManager

open FairRuns

variable {s s' : State}

/-! ## What the other goroutines do to a loop -/

/-- A loop is as it was or is launched; one of phase 2 is launched to wait. -/
@[grind]
def Launched (rf rf' : Registration) : Prop :=
  (rf'.loop = rf.loop ∧ rf'.config = rf.config) ∨ rf'.loop = .notStarted ∨ rf'.loop = .waitingPhase ∨
    rf'.loop = .initial ∧ feedPhase rf'.config ≠ .enrichment

@[grind =] lemma reg_modifyReg (s : State) (r i : ℕ) (change : Registration → Registration) :
    (s.modifyReg r change).reg i = if i = r then change (s.reg r) else s.reg i :=
  Function.update_apply ..

@[grind =] lemma reg_addReg (s : State) (rf : Registration) (i : ℕ) :
    (s.addReg rf).reg i = if i = s.next then rf else s.reg i :=
  Function.update_apply ..

lemma launched_of_step {action : Action} (hstep : step action s = some s')
    (haction : ∀ r a, action ≠ .loop r a) (i : ℕ) : Launched (s.reg i) (s'.reg i) := by
  cases step_effect hstep with
  | register config => grind
  | applyConfig config => grind [applyConfig, replaced, cancelOld, cancelOld_next, startFeedLocked]
  | firstAsk hstart hfeeds hrun => grind [startFeedLocked, runsIn]
  | secondAsk => grind [startFeedLocked]
  | loop => exact absurd rfl (haction _ _)
  | handoverStart => grind [handoverStart, startFeedLocked]
  | handoverQuit => grind
  | _ => exact .inl ⟨rfl, rfl⟩

/-- The locks and the state of `Start` are as they were. -/
@[grind]
def SameRest (s s' : State) : Prop :=
  s'.syncLock = s.syncLock ∧ s'.start = s.start ∧ s'.collector = s.collector ∧ s'.phase1Done = s.phase1Done

lemma sameRest_startFeedLocked (r : ℕ) (signals wait : Bool) (s : State) :
    SameRest s (startFeedLocked r signals wait s) := by
  unfold startFeedLocked
  split_ifs <;> exact ⟨rfl, rfl, rfl, rfl⟩

lemma sameRest_applyConfig (config : FeedConfig) (s : State) : SameRest s (applyConfig config s) := by
  have hreplaced : SameRest s (replaced config s) := by
    unfold replaced cancelOld
    split
    · split_ifs <;> exact ⟨rfl, rfl, rfl, rfl⟩
    · exact ⟨rfl, rfl, rfl, rfl⟩
  unfold applyConfig
  split_ifs
  · split
    · exact hreplaced
    · grind [sameRest_startFeedLocked]
  · exact hreplaced

lemma sameRest_handoverStart (r : ℕ) (s : State) : SameRest s (handoverStart r s) := by
  obtain ⟨-, heq⟩ | ⟨-, heq⟩ := handoverStart_cases r s
  · exact heq ▸ ⟨rfl, rfl, rfl, rfl⟩
  · exact heq ▸ sameRest_startFeedLocked r _ _ _

/-! ## The lock of a feed -/

/-- A loop that syncs holds the lock of its feed. -/
def LockHeld (s : State) : Prop :=
  ∀ r first, (s.reg r).loop = .syncing first → s.syncLock (s.reg r).config.name = .loop r

lemma afterSync_ne (first other : Bool) : afterSync first ≠ .syncing other := by
  cases first <;> simp [afterSync]

lemma lockHeld_of_loopStep (h : LockHeld s) {r : ℕ} {action : LoopAction}
    (hstep : loopStep r action s = some s') : LockHeld s' := by
  have hsame (change : Registration → Registration) : (s.modifyReg r change).syncLock = s.syncLock := rfl
  unfold loopStep State.setLoop at hstep
  dsimp only at hstep
  intro i first
  split at hstep
  case h_4 =>
    -- the lock is free, so no other loop of the feed syncs
    split_ifs at hstep
    cases hstep
    simp only [reg_modifyReg, Function.update_apply]
    grind [LockHeld]
  case h_6 =>
    -- the lock that is given back is that of this loop
    cases hstep
    simp only [reg_modifyReg, Function.update_apply]
    grind [LockHeld, afterSync_ne]
  all_goals grind [LockHeld, afterSync_ne]

/-- `SyncOne` and the calls leave the lock that a loop holds alone. -/
lemma syncLock_of_step {action : Action} (hstep : step action s = some s')
    (haction : ∀ r a, action ≠ .loop r a) {name : String} {r : ℕ} (hlock : s.syncLock name = .loop r) :
    s'.syncLock name = .loop r := by
  by_cases hone : ∃ other, action = .syncOne other ∨ action = .syncOneEnds other
  · -- a lock that is taken was free, and one that is given back was that of `SyncOne`
    obtain ⟨other, rfl | rfl⟩ := hone
    all_goals
      simp only [step] at hstep
      split_ifs at hstep <;> cases hstep
    all_goals grind [Function.update_apply]
  · cases step_effect hstep with
    | syncOne name => exact absurd ⟨name, .inl rfl⟩ hone
    | syncOneEnds name => exact absurd ⟨name, .inr rfl⟩ hone
    | loop => exact absurd rfl (haction _ _)
    | register | handoverQuit => exact hlock
    | _ => grind [sameRest_applyConfig, sameRest_startFeedLocked, sameRest_handoverStart]

lemma LockHeld.step (h : LockHeld s) {action : Action} (hstep : step action s = some s') : LockHeld s' := by
  by_cases haction : ∃ r a, action = .loop r a
  · obtain ⟨r, a, rfl⟩ := haction
    exact lockHeld_of_loopStep h hstep
  · have hother : ∀ r a, action ≠ .loop r a := fun r a heq => haction ⟨r, a, heq⟩
    intro r first hsync
    rcases launched_of_step hstep hother r with ⟨hloop, hconfig⟩ | hloop
    · rw [hconfig]
      exact syncLock_of_step hstep hother (h r first (hloop ▸ hsync))
    · grind

variable {run : Run FeedManager.step}

/-- Two loops of one feed never sync at once, and none syncs while `SyncOne` does. -/
theorem syncs_exclusive (hinit : run.state 0 = .init) (n : ℕ) {r : ℕ} {first : Bool}
    (hr : ((run.state n).reg r).loop = .syncing first) :
    (run.state n).syncLock ((run.state n).reg r).config.name ≠ .syncOne ∧
      ∀ r' first', ((run.state n).reg r').loop = .syncing first' →
        ((run.state n).reg r').config.name = ((run.state n).reg r).config.name → r' = r := by
  have hheld : LockHeld (run.state n) :=
    run.persists (P := LockHeld) (fun _ _ _ hstep h => h.step hstep) (Nat.zero_le n)
      (by rw [hinit]; rintro r first ⟨⟩)
  have hlock := hheld r first hr
  refine ⟨by simp [hlock], fun r' first' hr' hname => ?_⟩
  have hlock' := hheld r' first' hr'
  rw [hname, hlock] at hlock'
  exact (SyncLock.loop.inj hlock').symm

/-! ## The phases -/

/-- The loop got past waiting for phase 1, and was not told to end. -/
@[grind]
def LoopState.isWorking : LoopState → Bool
  | .initial | .acquiring _ | .syncing _ | .signalling _ | .idle => true
  | _ => false

/-- Phase 1 is done once the collector is, and the collector starts behind the first critical section. -/
@[grind]
def InOrder (s : State) : Prop :=
  (s.phase1Done = true → s.collector = .finished) ∧ (s.collector ≠ .absent → s.start.rank ≤ 2)

lemma inOrder_of_step (h : InOrder s) (hsignal : SignalInv s) {action : Action} (hstep : step action s = some s') :
    InOrder s' ∧ (s.phase1Done = true → s'.phase1Done = true) := by
  cases step_effect hstep with
  | register | handoverQuit => exact ⟨h, id⟩
  | startCall _ _ hstarted => grind [StartState.rank, (hsignal.notCalled hstarted).1]
  | _ => grind [StartState.rank, sameRest_applyConfig, sameRest_startFeedLocked, sameRest_handoverStart]

lemma isWorking_of_loopStep {r : ℕ} {action : LoopAction} (hstep : loopStep r action s = some s') :
    s'.phase1Done = s.phase1Done ∧ ∀ i, (s'.reg i).config = (s.reg i).config ∧
      ((s'.reg i).loop.isWorking = true → (s.reg i).loop.isWorking = true ∨ s.phase1Done = true) := by
  unfold loopStep State.setLoop at hstep
  dsimp only at hstep
  split at hstep
  case h_4 | h_6 =>
    try split_ifs at hstep
    cases hstep
    simp only [reg_modifyReg]
    grind [afterSync, State.modifyReg]
  all_goals grind [afterSync, State.modifyReg]

/-- A report that is asked for is awaited, and stays where it is once it is given. -/
lemma report_of_step {action : Action} (hstep : step action s = some s') {r : ℕ}
    (hr : (s'.reg r).signals = true) :
    r ∈ pending s' ∨ (s.reg r).signals = true ∧ ((s.reg r).sent ≠ none → (s'.reg r).sent ≠ none) := by
  cases step_effect hstep with
  | register config => grind
  | applyConfig config => grind [applyConfig, replaced, cancelOld, cancelOld_next, startFeedLocked]
  | firstAsk => grind [startFeedLocked, pending, awaited]
  | secondAsk => grind [startFeedLocked]
  | loop lock heffect => grind [heffect.signals, heffect.sent, Function.update_apply]
  | handoverStart => grind [handoverStart, startFeedLocked]
  | handoverQuit => grind
  | _ => exact .inr ⟨hr, id⟩

structure PhaseInv (s : State) : Prop where
  inv : Inv s
  order : InOrder s
  behind : ∀ r, feedPhase (s.reg r).config = .enrichment → (s.reg r).loop.isWorking = true → s.phase1Done = true
  reports : ∀ r, (s.reg r).signals = true → r ∈ pending s ∨ (s.reg r).sent ≠ none

lemma PhaseInv.step (h : PhaseInv s) {action : Action} (hstep : step action s = some s') : PhaseInv s' where
  inv := h.inv.step hstep
  order := (inOrder_of_step h.order h.inv.signal hstep).1
  behind r hphase hworking := by
    have hdone := (inOrder_of_step h.order h.inv.signal hstep).2
    by_cases haction : ∃ i a, action = .loop i a
    · obtain ⟨i, a, rfl⟩ := haction
      obtain ⟨heq, hreg⟩ := isWorking_of_loopStep hstep
      grind [h.behind r]
    · grind [launched_of_step hstep (fun i a heq => haction ⟨i, a, heq⟩) r, h.behind r]
  reports r hr := by
    rcases report_of_step hstep hr with hpending | ⟨hold, hsent⟩
    · exact .inl hpending
    · by_cases hnone : (s.reg r).sent = none
      · exact .inl (mem_pending_of_step h.inv.signal hstep ((h.reports r hold).resolve_right (by simp [hnone])) hnone)
      · exact .inr (hsent hnone)

lemma phaseInv_init : PhaseInv .init where
  inv := inv_init
  order := ⟨nofun, fun h => absurd rfl h⟩
  behind _ _ h := by cases h
  reports _ h := by cases h

/-- A feed of phase 2 works only once every loop that `Start` launched for phase 1 has reported its first
sync. -/
theorem enrichment_after_reports (hinit : run.state 0 = .init) (n : ℕ) {r : ℕ}
    (hphase : feedPhase ((run.state n).reg r).config = .enrichment)
    (hworking : ((run.state n).reg r).loop.isWorking = true) {r' : ℕ}
    (hlaunched : ((run.state n).reg r').signals = true) : ((run.state n).reg r').sent ≠ none := by
  have h : PhaseInv (run.state n) :=
    run.persists (P := PhaseInv) (fun _ _ _ hstep h => h.step hstep) (Nat.zero_le n) (hinit ▸ phaseInv_init)
  have hcollector := h.order.1 (h.behind r hphase hworking)
  have hstart := h.order.2 (by simp [hcollector])
  have hpending : pending (run.state n) = [] := by
    rw [pending, hcollector]
    cases hs : (run.state n).start <;> simp_all [awaited, Collector.awaited, StartState.rank]
  simpa [hpending] using h.reports r' hlaunched

/-- A feed of phase 1 and one of phase 2 sync, one behind the other. -/
def bothPhases : List Action :=
  [.register osv, .register ⟨"nvd", true, .self, .enrichment⟩, .startCall ["osv", "nvd"], .startNext, .startNext,
    .startNext, .launchCollector, .lockSecond ["osv", "nvd"], .startNext, .startNext, .startNext,
    .loop 0 (.decide true), .loop 0 .acquire, .loop 0 .syncEnds, .loop 0 .signal, .receive, .collectorEnd,
    .collectorEnd, .loop 1 .phaseReady, .loop 1 (.decide true), .loop 1 .acquire]

theorem syncs_exclusive_bothPhases :
    ((play step .init bothPhases 13).reg 0).loop = .syncing true ∧
      (play step .init bothPhases 13).syncLock "osv" ≠ .syncOne :=
  ⟨rfl, (@syncs_exclusive (Run.ofList step .init bothPhases) rfl 13 0 true rfl).1⟩

theorem enrichment_after_reports_bothPhases :
    ((play step .init bothPhases 21).reg 1).loop = .syncing true ∧
      ((play step .init bothPhases 21).reg 0).sent ≠ none :=
  ⟨rfl, @enrichment_after_reports (Run.ofList step .init bothPhases) rfl 21 1 rfl rfl 0 rfl⟩

end Packmon.FeedManager

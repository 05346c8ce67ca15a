import Mathlib.Algebra.BigOperators.Group.Finset.Basic
import Mathlib.Algebra.Order.BigOperators.Group.Finset
import Mathlib.Data.Prod.Lex
import Mathlib.Order.WellFounded
import Packmon.Feed.Manager
import Packmon.Library.FairRuns

/-!
# Shutdown of the feed manager

Once the context is cancelled, no loop is launched any more and every goroutine has a way to its end; only
the collector depends on others, on the reports of the loops of phase 1.

`Start` makes a channel for the report of a loop before it launches the loop, and the launch is refused under
a cancelled context: then nobody reports on the channel.  `waitReturns_iff` says that this is the only
way a goroutine blocks forever.
-/

namespace Packmon.FeedManager

open FairRuns

variable {s s' : State}

/-! ## The measure -/

def Handover.rank : Handover → ℕ
  | .waiting _ => 1
  | _ => 0

def Registration.rank (rf : Registration) : ℕ := rf.loop.rank + rf.handover.rank

def Collector.rank : Collector → ℕ
  | .waiting signals _ => 2 + signals.length
  | .propagating => 1
  | _ => 0

def StartState.rank : StartState → ℕ
  | .notCalled => 5
  | .first _ _ => 4
  | .unlocked _ => 3
  | .launched => 2
  | .second _ => 1
  | .returned => 0

def StartState.left : StartState → ℕ
  | .first feeds _ => feeds.length
  | .second feeds => feeds.length
  | _ => 0

/-- What `Start` has yet to do comes first, since it launches the collector. -/
def measure (s : State) : ℕ ×ₗ ℕ :=
  toLex (s.start.rank, s.start.left + s.collector.rank + ∑ r ∈ Finset.range s.next, (s.reg r).rank)

/-- The steps that goroutines and calls take on their own.  A tick is none: a loop whose context is cancelled
ends sooner or later, even if its ticker fires again. -/
def Progress : Action → Prop
  | .startNext | .launchCollector | .lockSecond _ | .handoverStart _ | .handoverQuit _ | .receive
  | .collectorEnd => True
  | .loop _ action => action ≠ .tick
  | _ => False

lemma measure_lt_of_rank (h : s'.start.rank < s.start.rank) : measure s' < measure s :=
  Prod.Lex.toLex_lt_toLex.2 (.inl h)

lemma measure_le_of_eq (hstart : s'.start.rank = s.start.rank)
    (h : s'.start.left + s'.collector.rank + ∑ r ∈ Finset.range s'.next, (s'.reg r).rank ≤
      s.start.left + s.collector.rank + ∑ r ∈ Finset.range s.next, (s.reg r).rank) : measure s' ≤ measure s :=
  Prod.Lex.toLex_le_toLex.2 (.inr ⟨hstart, h⟩)

lemma measure_lt_of_eq (hstart : s'.start.rank = s.start.rank)
    (h : s'.start.left + s'.collector.rank + ∑ r ∈ Finset.range s'.next, (s'.reg r).rank <
      s.start.left + s.collector.rank + ∑ r ∈ Finset.range s.next, (s.reg r).rank) : measure s' < measure s :=
  Prod.Lex.toLex_lt_toLex.2 (.inr ⟨hstart, h⟩)

/-- One registration moves on and everything else stays. -/
lemma measure_modifyReg_lt (h : WellFormed s) {r : ℕ} {change : Registration → Registration}
    (hrank : (change (s.reg r)).rank < (s.reg r).rank) : measure (s.modifyReg r change) < measure s := by
  have hr : r < s.next := by
    by_contra hle
    obtain ⟨hloop, hhandover⟩ := h.fresh r (not_lt.1 hle)
    simp [Registration.rank, hloop, hhandover, LoopState.rank, Handover.rank] at hrank
  refine measure_lt_of_eq rfl (Nat.add_lt_add_left (Finset.sum_lt_sum (fun i _ => ?_) ⟨r, ?_, ?_⟩) _)
  · by_cases hi : i = r
    · subst hi
      simpa using hrank.le
    · rw [modifyReg_reg_of_ne s hi]
  · exact Finset.mem_range.2 hr
  · simpa using hrank

lemma measure_addReg (s : State) {rf : Registration} (hrank : rf.rank = 0) : measure (s.addReg rf) = measure s := by
  have hsum : ∑ r ∈ Finset.range (s.next + 1), (Function.update s.reg s.next rf r).rank =
      ∑ r ∈ Finset.range s.next, (s.reg r).rank := by
    rw [Finset.sum_range_succ, Function.update_self, hrank, Nat.add_zero]
    refine Finset.sum_congr rfl fun r hr => ?_
    rw [Function.update_of_ne (Finset.mem_range.1 hr).ne]
  simp only [measure, State.addReg, hsum]

lemma measure_cancelOld (config : FeedConfig) (s : State) : measure (cancelOld config s) = measure s := by
  unfold cancelOld
  split
  · rename_i old _
    split_ifs
    · have hrank : ∀ r, ((s.modifyReg old fun rf => { rf with cancelled := true }).reg r).rank = (s.reg r).rank := by
        intro r
        by_cases hr : r = old
        · subst hr
          simp [Registration.rank]
        · rw [modifyReg_reg_of_ne s hr]
      simp only [measure, hrank]
      rfl
    · rfl
  · rfl

/-- Under a cancelled context a new registration is not started. -/
lemma applyConfig_of_ctxDone (hctx : s.ctxDone = true) (config : FeedConfig) :
    applyConfig config s = replaced config s := by
  simp [applyConfig, hctx]

lemma handoverStart_of_ctxDone (hctx : s.ctxDone = true) (r : ℕ) :
    ∃ startAfter, handoverStart r s = s.release r startAfter := by
  obtain ⟨-, heq⟩ | ⟨-, heq⟩ := handoverStart_cases r s
  · exact ⟨_, heq⟩
  · have hrelease : (s.release r none).ctxDone = true := hctx
    exact ⟨none, heq.trans (startFeedLocked_of_ctxDone hrelease r _ _)⟩

/-- The context stays cancelled. -/
lemma step_ctxDone {action : Action} (hstep : step action s = some s') (hctx : s.ctxDone = true) :
    s'.ctxDone = true := by
  cases step_effect hstep with
  | applyConfig config =>
    rw [applyConfig_of_ctxDone hctx]
    exact (cancelOld_ctxDone config s).trans hctx
  | firstAsk =>
    rw [startFeedLocked_of_ctxDone hctx]
    exact hctx
  | secondAsk =>
    rw [startFeedLocked_of_ctxDone hctx]
    exact hctx
  | handoverStart =>
    obtain ⟨startAfter, heq⟩ := handoverStart_of_ctxDone hctx _
    rw [heq]
    exact hctx
  | cancelContext => rfl
  | _ => exact hctx

/-- Under a cancelled context progress lowers the measure. -/
lemma measure_lt_of_progress (h : WellFormed s) (hctx : s.ctxDone = true) {action : Action}
    (hstep : step action s = some s') (hprogress : Progress action) : measure s' < measure s := by
  cases step_effect hstep with
  | firstSkip hstart =>
    refine measure_lt_of_eq (by rw [hstart]; rfl) ?_
    simp [hstart, StartState.left]
  | firstAsk hstart =>
    rw [startFeedLocked_of_ctxDone hctx]
    refine measure_lt_of_eq (by rw [hstart]; rfl) ?_
    simp [hstart, StartState.left]
  | firstEnd hstart => exact measure_lt_of_rank (by simp [hstart, StartState.rank])
  | secondSkip hstart =>
    refine measure_lt_of_eq (by rw [hstart]; rfl) ?_
    simp [hstart, StartState.left]
  | secondAsk hstart =>
    rw [startFeedLocked_of_ctxDone hctx]
    refine measure_lt_of_eq (by rw [hstart]; rfl) ?_
    simp [hstart, StartState.left]
  | secondEnd hstart => exact measure_lt_of_rank (by simp [hstart, StartState.rank])
  | launchCollector hstart => exact measure_lt_of_rank (by simp [hstart, StartState.rank])
  | lockSecond order hstart => exact measure_lt_of_rank (by simp [hstart, StartState.rank])
  | @loop r action rf lock heffect =>
    have hrank : rf.rank < (s.reg r).rank := by
      rw [Registration.rank, Registration.rank, heffect.handover]
      exact Nat.add_lt_add_right (heffect.rank.1 hprogress) _
    change measure (s.modifyReg r fun _ => rf) < measure s
    exact measure_modifyReg_lt h hrank
  | handoverStart hwaiting =>
    obtain ⟨startAfter, heq⟩ := handoverStart_of_ctxDone hctx _
    rw [heq]
    refine measure_modifyReg_lt h ?_
    simp [Registration.rank, hwaiting, Handover.rank]
  | handoverQuit hwaiting =>
    refine measure_modifyReg_lt h ?_
    simp [Registration.rank, hwaiting, Handover.rank]
  | receive hcollector =>
    refine measure_lt_of_eq rfl ?_
    simp [hcollector, Collector.rank]
  | propagate hcollector =>
    refine measure_lt_of_eq rfl ?_
    simp [hcollector, Collector.rank]
  | collectorEnd hcollector =>
    refine measure_lt_of_eq rfl ?_
    rcases hcollector with hcollector | hcollector <;> simp [hcollector, Collector.rank]
  | _ => exact absurd hprogress (by simp [Progress])

/-! ## Reports -/

/-- A loop that has to report did so or is on its way. -/
def Registration.Reports (rf : Registration) : Prop :=
  rf.signals = true → rf.sent ≠ none ∨ rf.loop.isPreSignal = true

def Registration.Unlaunched (rf : Registration) : Prop :=
  rf.signals = false ∧ rf.cancel = false ∧ rf.sent = none ∧ rf.handover = .absent

/-- What holds of the reports on first syncs all along. -/
structure SignalInv (s : State) : Prop where
  notCalled : s.started = false → s.start = .notCalled ∧ ∀ r, (s.reg r).Unlaunched
  /-- The feeds that the first critical section has yet to go through were not launched. -/
  first : ∀ feeds signals, s.start = .first feeds signals →
    feeds.Nodup ∧ ∀ r, (s.reg r).config.name ∈ feeds → (s.reg r).Unlaunched
  reports : ∀ r, (s.reg r).Reports

lemma signalInv_init : SignalInv .init where
  notCalled _ := ⟨rfl, fun _ => ⟨rfl, rfl, rfl, rfl⟩⟩
  first _ _ h := by cases h
  reports _ h := by cases h

lemma SignalInv.congr (h : SignalInv s) (hreg : s'.reg = s.reg) (hstarted : s'.started = s.started)
    (hstart : s'.start = s.start) : SignalInv s' where
  notCalled := by rw [hreg, hstarted, hstart]; exact h.notCalled
  first := by rw [hreg, hstart]; exact h.first
  reports := by rw [hreg]; exact h.reports

lemma SignalInv.started_of_ne (h : SignalInv s) (hstart : s.start ≠ .notCalled) : s.started = true := by
  by_contra hnot
  exact hstart (h.notCalled (Bool.eq_false_iff.2 hnot)).1

/-- Outside the first critical section only the reports matter. -/
lemma signalInv_of_reports (hstarted : s.started = true) (hstart : ∀ feeds signals, s.start ≠ .first feeds signals)
    (hreports : ∀ r, (s.reg r).Reports) : SignalInv s where
  notCalled hnot := by simp [hstarted] at hnot
  first feeds signals heq := absurd heq (hstart feeds signals)
  reports := hreports

lemma ne_first_of_locked (h : s.locked = false) (feeds : List String) (signals : List ℕ) :
    s.start ≠ .first feeds signals := by
  intro hstart
  simp [State.locked, hstart] at h

lemma reports_update {rf : Registration} (h : ∀ r, (s.reg r).Reports) (hrf : rf.Reports) (r : ℕ) :
    ∀ i, (Function.update s.reg r rf i).Reports := by
  intro i
  by_cases hi : i = r
  · rwa [hi, Function.update_self]
  · rw [Function.update_of_ne hi]
    exact h i

lemma reports_startFeedLocked (h : ∀ r, (s.reg r).Reports) (r : ℕ) (wait : Bool) :
    ∀ i, ((startFeedLocked r false wait s).reg i).Reports := by
  obtain ⟨-, heq⟩ | ⟨-, -, -, heq⟩ := startFeedLocked_cases r false wait s
  · rwa [heq]
  · rw [heq]
    exact reports_update h (fun hsignals => by simp at hsignals) r

lemma reports_replaced (h : ∀ r, (s.reg r).Reports) (config : FeedConfig) :
    ∀ i, ((replaced config s).reg i).Reports := by
  refine reports_update (s := cancelOld config s) (fun r => ?_) (fun hsignals => by simp at hsignals) _
  obtain heq | ⟨-, -, heq⟩ := cancelOld_reg config s r <;> rw [heq] <;> exact h r

lemma unlaunched_replaced (h : ∀ r, (s.reg r).Unlaunched) (config : FeedConfig) :
    ∀ i, ((replaced config s).reg i).Unlaunched := by
  intro i
  by_cases hi : i = (cancelOld config s).next
  · simp [replaced, State.addReg, hi, Registration.Unlaunched]
  · simp only [replaced, State.addReg, Function.update_of_ne hi]
    obtain heq | ⟨-, -, heq⟩ := cancelOld_reg config s i <;> rw [heq] <;> exact h i

lemma SignalInv.applyConfig (h : SignalInv s) (hlocked : s.locked = false) (config : FeedConfig) :
    SignalInv (applyConfig config s) := by
  have hreports := reports_replaced h.reports config
  have hstart : (replaced config s).start = s.start := cancelOld_start config s
  have hstarted : (replaced config s).started = s.started := cancelOld_started config s
  obtain ⟨-, heq⟩ | ⟨htrue, -, -, ⟨p, -, heq⟩ | ⟨-, heq⟩⟩ := applyConfig_cases config s <;> rw [heq]
  · refine ⟨fun hnot => ?_, fun feeds signals hfirst => ?_, hreports⟩
    · obtain ⟨hcalled, hregs⟩ := h.notCalled (hstarted ▸ hnot)
      exact ⟨hstart.trans hcalled, unlaunched_replaced hregs config⟩
    · exact absurd (hstart ▸ hfirst) (ne_first_of_locked hlocked feeds signals)
  · refine signalInv_of_reports (hstarted.trans htrue) (fun feeds signals hfirst => ?_) ?_
    · exact ne_first_of_locked hlocked feeds signals (hstart ▸ hfirst)
    · refine reports_update hreports ?_ _
      exact hreports s.next
  · refine signalInv_of_reports ?_ (fun feeds signals hfirst => ?_) (reports_startFeedLocked hreports _ _)
    · rw [startFeedLocked_started, hstarted, htrue]
    · rw [startFeedLocked_start, hstart] at hfirst
      exact ne_first_of_locked hlocked feeds signals hfirst

lemma SignalInv.started_of_waiting (h : SignalInv s) {r p : ℕ} (hwaiting : (s.reg r).handover = .waiting p) :
    s.started = true := by
  by_contra hnot
  have hunlaunched := (h.notCalled (Bool.eq_false_iff.2 hnot)).2 r
  rw [hunlaunched.2.2.2] at hwaiting
  cases hwaiting

lemma SignalInv.handoverStart (h : SignalInv s) (hstarted : s.started = true) (hlocked : s.locked = false) (r : ℕ) :
    SignalInv (handoverStart r s) := by
  have hrelease : ∀ startAfter i, ((s.release r startAfter).reg i).Reports := by
    intro startAfter
    refine reports_update h.reports ?_ r
    exact h.reports r
  have hfirst := ne_first_of_locked hlocked
  obtain ⟨-, heq⟩ | ⟨-, heq⟩ := handoverStart_cases r s <;> rw [heq]
  · exact signalInv_of_reports hstarted hfirst (hrelease _)
  · refine signalInv_of_reports ((startFeedLocked_started _ _ _ _).trans hstarted) (fun feeds signals hstart => ?_)
      (reports_startFeedLocked (hrelease none) r _)
    rw [startFeedLocked_start] at hstart
    exact hfirst feeds signals hstart

/-- The next feed of the first critical section is asked to report; its loop is launched unless the context
is cancelled. -/
lemma SignalInv.firstAsk (h : SignalInv s) (hw : WellFormed s) {name : String} {rest : List String}
    {signals signals' : List ℕ} {r : ℕ} (hstart : s.start = .first (name :: rest) signals)
    (hfeeds : s.feeds name = some r) :
    SignalInv { startFeedLocked r true false s with start := .first rest signals' } := by
  obtain ⟨hnodup, hregs⟩ := h.first _ _ hstart
  have hname : (s.reg r).config.name = name := (hw.feeds _ _ hfeeds).2.1
  have hstarted : s.started = true := h.started_of_ne (by simp [hstart])
  obtain ⟨-, heq⟩ | ⟨-, -, -, heq⟩ := startFeedLocked_cases r true false s <;> rw [heq]
  · refine ⟨fun hnot => ?_, fun feeds sig hfirst => ?_, h.reports⟩
    · simp [hstarted] at hnot
    · obtain ⟨rfl, -⟩ := StartState.first.inj hfirst
      exact ⟨hnodup.of_cons, fun i hi => hregs i (List.mem_cons_of_mem _ hi)⟩
  · refine ⟨fun hnot => ?_, fun feeds sig hfirst => ?_, reports_update h.reports (fun _ => .inr rfl) r⟩
    · simp [State.modifyReg, hstarted] at hnot
    · obtain ⟨rfl, -⟩ := StartState.first.inj hfirst
      refine ⟨hnodup.of_cons, fun i hi => ?_⟩
      by_cases hir : i = r
      · -- The feed that was launched is not among the others.
        subst hir
        simp only [modifyReg_reg_self, hname] at hi
        exact absurd hi (List.nodup_cons.1 hnodup).1
      · simp only [modifyReg_reg_of_ne s hir] at hi ⊢
        exact hregs i (List.mem_cons_of_mem _ hi)

lemma SignalInv.loopStep (h : SignalInv s) {r : ℕ} {action : LoopAction} {rf : Registration}
    (heffect : LoopEffect s r action rf) (lock : String → SyncLock) :
    SignalInv { s with reg := Function.update s.reg r rf, syncLock := lock } := by
  have hunlaunched : (s.reg r).Unlaunched → rf.Unlaunched := by
    rintro ⟨hsignals, hcancel, hsent, hhandover⟩
    refine ⟨heffect.signals.trans hsignals, ?_, ?_, heffect.handover.trans hhandover⟩
    · rcases heffect.cancel with heq | ⟨hfalse, -⟩
      · exact heq.trans hcancel
      · exact hfalse
    · rcases heffect.sent with heq | ⟨htrue, -⟩
      · exact heq.trans hsent
      · simp [hsignals] at htrue
  refine ⟨fun hnot => ?_, fun feeds signals hfirst => ?_, reports_update h.reports (fun hsignals => ?_) r⟩
  · obtain ⟨hcalled, hregs⟩ := h.notCalled hnot
    refine ⟨hcalled, fun i => ?_⟩
    by_cases hi : i = r
    · subst hi
      simpa using hunlaunched (hregs i)
    · simpa [hi] using hregs i
  · obtain ⟨hnodup, hregs⟩ := h.first feeds signals hfirst
    refine ⟨hnodup, fun i => ?_⟩
    by_cases hi : i = r
    · subst hi
      simpa [heffect.config] using fun hmem => hunlaunched (hregs i hmem)
    · simpa [hi] using hregs i
  · rw [heffect.signals] at hsignals
    rcases h.reports r hsignals with hsent | hpre
    · left
      rcases heffect.sent with heq | ⟨-, hne⟩
      · rwa [heq]
      · exact hne
    · rcases heffect.preSignal hpre with hpre | hsent
      · exact .inr hpre
      · exact .inl (hsent hsignals)

/-- `Start` moves on without a launch. -/
lemma SignalInv.startAt (h : SignalInv s) (hcalled : s.start ≠ .notCalled) {start : StartState}
    (hfirst : ∀ feeds signals, start = .first feeds signals →
      ∃ feeds' signals', s.start = .first feeds' signals' ∧ feeds <:+ feeds') (collector : Collector) :
    SignalInv { s with start, collector } where
  notCalled hnot := by
    rw [h.started_of_ne hcalled] at hnot
    cases hnot
  first feeds signals heq := by
    obtain ⟨feeds', signals', hstart, hsuffix⟩ := hfirst feeds signals heq
    obtain ⟨hnodup, hregs⟩ := h.first feeds' signals' hstart
    exact ⟨hnodup.sublist hsuffix.sublist, fun r hr => hregs r (hsuffix.subset hr)⟩
  reports := h.reports

lemma SignalInv.handoverQuit (h : SignalInv s) {r p : ℕ} (hwaiting : (s.reg r).handover = .waiting p) :
    SignalInv (s.modifyReg r fun rf => { rf with handover := .over }) where
  notCalled hnot := by
    have hstarted := h.started_of_waiting hwaiting
    rw [show s.started = false from hnot] at hstarted
    cases hstarted
  first feeds signals hfirst := by
    obtain ⟨hnodup, hregs⟩ := h.first feeds signals hfirst
    refine ⟨hnodup, fun i hi => ?_⟩
    by_cases hir : i = r
    · subst hir
      have hunlaunched := hregs i (by simpa using hi)
      rw [hunlaunched.2.2.2] at hwaiting
      cases hwaiting
    · rw [modifyReg_reg_of_ne s hir] at hi ⊢
      exact hregs i hi
  reports := by
    refine reports_update h.reports ?_ r
    exact h.reports r

lemma SignalInv.register (h : SignalInv s) (hstarted : s.started = false) (config : FeedConfig) :
    SignalInv (s.addReg { config }) where
  notCalled _ := by
    obtain ⟨hcalled, hregs⟩ := h.notCalled hstarted
    refine ⟨hcalled, fun i => ?_⟩
    by_cases hi : i = s.next
    · simp [State.addReg, hi, Registration.Unlaunched]
    · simpa [State.addReg, hi] using hregs i
  first feeds signals hfirst := by
    have hcalled : s.start = .first feeds signals := hfirst
    simp [(h.notCalled hstarted).1] at hcalled
  reports := reports_update h.reports (fun hsignals => by simp at hsignals) _

lemma SignalInv.step (h : SignalInv s) (hw : WellFormed s) {action : Action} (hstep : step action s = some s') :
    SignalInv s' := by
  cases step_effect hstep with
  | register config _ hstarted => exact h.register hstarted config
  | applyConfig config hlocked => exact h.applyConfig hlocked config
  | startCall order _ hstarted horder =>
    refine ⟨fun hnot => by simp at hnot, fun feeds signals hfirst => ?_, h.reports⟩
    obtain ⟨rfl, -⟩ := StartState.first.inj hfirst
    exact ⟨horder.nodup_iff.2 hw.nodup, fun r _ => (h.notCalled hstarted).2 r⟩
  | firstSkip hstart =>
    refine h.startAt (by simp [hstart]) (fun feeds signals heq => ?_) s.collector
    obtain ⟨rfl, -⟩ := StartState.first.inj heq
    exact ⟨_, _, hstart, List.suffix_cons _ _⟩
  | firstAsk hstart hfeeds => exact h.firstAsk hw hstart hfeeds
  | firstEnd hstart => exact h.startAt (by simp [hstart]) (fun _ _ heq => by cases heq) s.collector
  | secondSkip hstart => exact h.startAt (by simp [hstart]) (fun _ _ heq => by cases heq) s.collector
  | @secondAsk _ rest r hstart =>
    refine signalInv_of_reports ?_ (fun _ _ heq => by cases heq) (reports_startFeedLocked h.reports r true)
    exact (startFeedLocked_started _ _ _ _).trans (h.started_of_ne (by simp [hstart]))
  | secondEnd hstart => exact h.startAt (by simp [hstart]) (fun _ _ heq => by cases heq) s.collector
  | launchCollector hstart => exact h.startAt (by simp [hstart]) (fun _ _ heq => by cases heq) _
  | lockSecond order hstart => exact h.startAt (by simp [hstart]) (fun _ _ heq => by cases heq) s.collector
  | loop lock heffect => exact h.loopStep heffect lock
  | handoverStart hwaiting _ hlocked => exact h.handoverStart (h.started_of_waiting hwaiting) hlocked _
  | handoverQuit hwaiting => exact h.handoverQuit hwaiting
  | _ => exact h.congr rfl rfl rfl

/-- Under a cancelled context no step raises the measure. -/
lemma measure_le_of_step (h : WellFormed s) (hsignal : SignalInv s) (hctx : s.ctxDone = true) {action : Action}
    (hstep : step action s = some s') : measure s' ≤ measure s := by
  by_cases hprogress : Progress action
  · exact (measure_lt_of_progress h hctx hstep hprogress).le
  cases step_effect hstep with
  | register config => exact (measure_addReg s rfl).le
  | applyConfig config =>
    rw [applyConfig_of_ctxDone hctx, replaced, measure_addReg _ rfl, measure_cancelOld]
  | startCall order _ hstarted =>
    refine (measure_lt_of_rank ?_).le
    simp [(hsignal.notCalled hstarted).1, StartState.rank]
  | @loop r action rf lock heffect =>
    -- Only a tick is left, and it leads nowhere.
    have hrank : rf.rank ≤ (s.reg r).rank := by
      rw [Registration.rank, Registration.rank, heffect.handover]
      exact Nat.add_le_add_right (heffect.rank.2 (by simp [State.feedCtxDone, hctx])) _
    refine measure_le_of_eq rfl (Nat.add_le_add_left (Finset.sum_le_sum fun i _ => ?_) _)
    by_cases hi : i = r
    · subst hi
      simpa using hrank
    · simp [hi]
  | cancelContext => exact le_rfl
  | registerLate => exact le_rfl
  | syncOneBusy => exact le_rfl
  | startCallLate => exact le_rfl
  | syncOne => exact le_rfl
  | syncOneEnds => exact le_rfl
  | _ => exact absurd trivial hprogress

/-! ## Awaited reports -/

def Collector.awaited : Collector → List ℕ
  | .waiting signals _ => signals
  | _ => []

def awaited (start : StartState) (collector : Collector) : List ℕ :=
  match start with
  | .notCalled => []
  | .first _ signals => signals
  | .unlocked signals => signals
  | _ => collector.awaited

/-- The registrations whose reports are awaited, or will be once the collector is launched. -/
def pending (s : State) : List ℕ := awaited s.start s.collector

/-- `Start` asks for the report of a loop of phase 1 that is not launched, since the context is cancelled. -/
def Refuses (s : State) : Prop :=
  s.ctxDone = true ∧ ∃ name rest signals r, s.start = .first (name :: rest) signals ∧ s.feeds name = some r ∧
    runsIn .vulnerability (s.reg r).config = true

/-- A report is awaited that will never come. -/
def Stuck (s : State) : Prop :=
  s.ctxDone = true ∧ ∃ r ∈ pending s, r < s.next ∧ (s.reg r).signals = false ∧ (s.reg r).sent = none

/-- Every report that is awaited was asked of a loop that was launched. -/
def Answered (s : State) : Prop := ∀ r ∈ pending s, (s.reg r).signals = true ∧ r < s.next

lemma next_le_of_step {action : Action} (hstep : step action s = some s') : s.next ≤ s'.next := by
  cases step_effect hstep with
  | register config => exact Nat.le_succ _
  | applyConfig config =>
    rw [(applyConfig_frame config s).2.2]
    exact Nat.le_succ _
  | firstAsk => rw [startFeedLocked_next]
  | secondAsk => rw [startFeedLocked_next]
  | handoverStart => rw [(handoverStart_frame _ s).2.2.1]
  | _ => exact le_rfl

/-- A report that is awaited is awaited until it is received. -/
lemma mem_pending_of_step (hsignal : SignalInv s) {action : Action} (hstep : step action s = some s') {r : ℕ}
    (hr : r ∈ pending s) (hsent : (s.reg r).sent = none) : r ∈ pending s' := by
  cases step_effect hstep with
  | applyConfig config =>
    rw [pending, (applyConfig_frame config s).1, (applyConfig_frame config s).2.1]
    exact hr
  | handoverStart =>
    rw [pending, (handoverStart_frame _ s).1, (handoverStart_frame _ s).2.1]
    exact hr
  | startCall order _ hstarted => simp [pending, (hsignal.notCalled hstarted).1, awaited] at hr
  | firstSkip hstart => simpa [pending, hstart, awaited] using hr
  | firstAsk hstart =>
    rw [pending, hstart] at hr
    exact List.mem_append_left _ hr
  | firstEnd hstart => simpa [pending, hstart, awaited] using hr
  | secondSkip hstart => simpa [pending, hstart, awaited] using hr
  | secondAsk hstart => simpa [pending, hstart, awaited] using hr
  | secondEnd hstart => simpa [pending, hstart, awaited] using hr
  | launchCollector hstart => simpa [pending, hstart, awaited, Collector.awaited] using hr
  | lockSecond order hstart => simpa [pending, hstart, awaited] using hr
  | @receive i rest attempted sent hcollector hsome =>
    have hne : r ≠ i := by
      rintro rfl
      simp [hsent] at hsome
    unfold pending at hr ⊢
    cases hstart : s.start <;> simp_all [awaited, Collector.awaited]
  | propagate hcollector =>
    unfold pending at hr ⊢
    cases hstart : s.start <;> simp_all [awaited, Collector.awaited]
  | collectorEnd hcollector =>
    unfold pending at hr ⊢
    cases hstart : s.start <;> rcases hcollector with hcollector | hcollector <;> simp_all [awaited, Collector.awaited]
  | _ => exact hr

/-- Under a cancelled context what a registration reports does not change, except for a report that was asked
of it. -/
lemma stuck_reg (hctx : s.ctxDone = true) {action : Action} (hstep : step action s = some s') {r : ℕ}
    (hr : r < s.next) (h : (s.reg r).signals = false ∧ (s.reg r).sent = none) :
    (s'.reg r).signals = false ∧ (s'.reg r).sent = none := by
  cases step_effect hstep with
  | register config => simpa [State.addReg, hr.ne] using h
  | applyConfig config =>
    rw [applyConfig_of_ctxDone hctx]
    have hne : r ≠ (cancelOld config s).next := by
      rw [cancelOld_next]
      exact hr.ne
    simp only [replaced, State.addReg, Function.update_of_ne hne]
    obtain heq | ⟨-, -, heq⟩ := cancelOld_reg config s r <;> rw [heq] <;> exact h
  | firstAsk => rwa [startFeedLocked_of_ctxDone hctx]
  | secondAsk => rwa [startFeedLocked_of_ctxDone hctx]
  | @loop i action rf lock heffect =>
    by_cases hi : r = i
    · subst hi
      simp only [Function.update_self]
      refine ⟨heffect.signals.trans h.1, ?_⟩
      rcases heffect.sent with heq | ⟨htrue, -⟩
      · exact heq.trans h.2
      · simp [h.1] at htrue
    · simpa [hi] using h
  | @handoverStart i =>
    obtain ⟨startAfter, heq⟩ := handoverStart_of_ctxDone hctx i
    rw [heq, State.release]
    by_cases hi : r = i
    · subst hi
      simpa using h
    · rwa [modifyReg_reg_of_ne s hi]
  | @handoverQuit i =>
    by_cases hi : r = i
    · subst hi
      simpa using h
    · rwa [modifyReg_reg_of_ne s hi]
  | _ => exact h

lemma Stuck.step (h : Stuck s) (hsignal : SignalInv s) {action : Action} (hstep : step action s = some s') :
    Stuck s' := by
  obtain ⟨hctx, r, hr, hlt, hreg⟩ := h
  exact ⟨step_ctxDone hstep hctx, r, mem_pending_of_step hsignal hstep hr hreg.2,
    hlt.trans_le (next_le_of_step hstep), stuck_reg hctx hstep hlt hreg⟩

/-- A refused launch leaves a report that will never come. -/
lemma Refuses.stuck (h : Refuses s) (hw : WellFormed s) (hsignal : SignalInv s)
    (hstep : step .startNext s = some s') : Stuck s' := by
  obtain ⟨hctx, name, rest, signals, r, hstart, hfeeds, hrun⟩ := h
  obtain ⟨hlt, hname, -⟩ := hw.feeds _ _ hfeeds
  have hunlaunched := (hsignal.first _ _ hstart).2 r (by simp [hname])
  have heq : s' = { s with start := .first rest (signals ++ [r]) } := by
    simp only [step, hstart, startFirst, hfeeds] at hstep
    rw [if_pos hrun, startFeedLocked_of_ctxDone hctx] at hstep
    exact (Option.some.inj hstep).symm
  rw [heq]
  exact ⟨hctx, r, by simp [pending, awaited], hlt, hunlaunched.1, hunlaunched.2.2.1⟩

/-- A loop that has to report is not launched again. -/
lemma startFeedLocked_signals (hlaunch : LaunchInv s) {r : ℕ} (hr : (s.reg r).signals = true) (i : ℕ)
    (signals wait : Bool) : ((startFeedLocked i signals wait s).reg r).signals = true := by
  obtain ⟨-, heq⟩ | ⟨hcancel, -, hctx, heq⟩ := startFeedLocked_cases i signals wait s
  · rwa [heq]
  · rw [heq]
    have hne : r ≠ i := by
      rintro rfl
      exact hlaunch.signals r hr (hlaunch.cancel hctx r hcancel)
    rwa [modifyReg_reg_of_ne s hne]

lemma signals_replaced {r : ℕ} (hlt : r < s.next) (hr : (s.reg r).signals = true) (config : FeedConfig) :
    ((replaced config s).reg r).signals = true := by
  have hne : r ≠ (cancelOld config s).next := by
    rw [cancelOld_next]
    exact hlt.ne
  simp only [replaced, State.addReg, Function.update_of_ne hne]
  obtain heq | ⟨-, -, heq⟩ := cancelOld_reg config s r <;> rw [heq] <;> exact hr

lemma signals_modifyReg {r : ℕ} (hr : (s.reg r).signals = true) (i : ℕ) {change : Registration → Registration}
    (hchange : ∀ rf, (change rf).signals = rf.signals) : ((s.modifyReg i change).reg r).signals = true := by
  by_cases hi : r = i
  · subst hi
    rw [modifyReg_reg_self, hchange]
    exact hr
  · rwa [modifyReg_reg_of_ne s hi]

/-- What a registration was asked for is not taken back. -/
lemma signals_of_step (hw : WellFormed s) (hlaunch : LaunchInv s) {action : Action}
    (hstep : step action s = some s') {r : ℕ} (hlt : r < s.next) (hr : (s.reg r).signals = true) :
    (s'.reg r).signals = true := by
  cases step_effect hstep with
  | register config => simpa [State.addReg, hlt.ne] using hr
  | applyConfig config =>
    have hreplaced := signals_replaced hlt hr config
    obtain ⟨-, heq⟩ | ⟨-, -, -, ⟨p, -, heq⟩ | ⟨-, heq⟩⟩ := applyConfig_cases config s <;> rw [heq]
    · exact hreplaced
    · exact signals_modifyReg hreplaced _ fun _ => rfl
    · exact startFeedLocked_signals (hlaunch.replaced hw config) hreplaced _ _ _
  | firstAsk => exact startFeedLocked_signals hlaunch hr _ _ _
  | secondAsk => exact startFeedLocked_signals hlaunch hr _ _ _
  | loop lock heffect =>
    rename_i i action rf
    by_cases hi : r = i
    · subst hi
      simpa [heffect.signals] using hr
    · simpa [hi] using hr
  | @handoverStart i p hwaiting hfinished hlocked =>
    have hrelease : ∀ startAfter, ((s.release i startAfter).reg r).signals = true :=
      fun _ => signals_modifyReg hr i fun _ => rfl
    obtain ⟨-, heq⟩ | ⟨-, heq⟩ := handoverStart_cases i s <;> rw [heq]
    · exact hrelease _
    · exact startFeedLocked_signals (hlaunch.release i none) (hrelease none) _ _ _
  | handoverQuit => exact signals_modifyReg hr _ fun _ => rfl
  | _ => exact hr

/-- The report that the first critical section asks for is the only one that comes to be awaited. -/
lemma mem_pending_step {action : Action} (hstep : step action s = some s') {r : ℕ} (hr : r ∈ pending s') :
    r ∈ pending s ∨ action = .startNext ∧ ∃ name rest signals, s.start = .first (name :: rest) signals ∧
      s.feeds name = some r ∧ runsIn .vulnerability (s.reg r).config = true ∧
      s' = { startFeedLocked r true false s with start := .first rest (signals ++ [r]) } := by
  cases step_effect hstep with
  | applyConfig config =>
    rw [pending, (applyConfig_frame config s).1, (applyConfig_frame config s).2.1] at hr
    exact .inl hr
  | handoverStart =>
    rw [pending, (handoverStart_frame _ s).1, (handoverStart_frame _ s).2.1] at hr
    exact .inl hr
  | startCall => simp [pending, awaited] at hr
  | firstSkip hstart => exact .inl (by simpa [pending, hstart, awaited] using hr)
  | @firstAsk name rest signals i hstart hfeeds hrun =>
    simp only [pending, awaited, List.mem_append, List.mem_singleton] at hr
    rcases hr with hr | rfl
    · exact .inl (by simpa [pending, hstart, awaited] using hr)
    · exact .inr ⟨rfl, name, rest, signals, hstart, hfeeds, hrun, rfl⟩
  | firstEnd hstart => exact .inl (by simpa [pending, hstart, awaited] using hr)
  | secondSkip hstart => exact .inl (by simpa [pending, hstart, awaited] using hr)
  | secondAsk hstart => exact .inl (by simpa [pending, hstart, awaited] using hr)
  | secondEnd hstart => exact .inl (by simpa [pending, hstart, awaited] using hr)
  | launchCollector hstart => exact .inl (by simpa [pending, hstart, awaited, Collector.awaited] using hr)
  | lockSecond order hstart => exact .inl (by simpa [pending, hstart, awaited] using hr)
  | receive hcollector =>
    left
    unfold pending at hr ⊢
    cases hstart : s.start <;> simp_all [awaited, Collector.awaited]
  | propagate hcollector =>
    left
    unfold pending at hr ⊢
    cases hstart : s.start <;> simp_all [awaited, Collector.awaited]
  | collectorEnd hcollector =>
    left
    unfold pending at hr ⊢
    cases hstart : s.start <;> simp_all [awaited, Collector.awaited]
  | _ => exact .inl hr

/-- Every report is asked of a loop that is launched, as long as no launch is refused. -/
lemma Answered.step (h : Answered s) (hw : WellFormed s) (hlaunch : LaunchInv s) (hsignal : SignalInv s)
    {action : Action} (hstep : step action s = some s') (hrefuse : action = .startNext → ¬ Refuses s) :
    Answered s' := by
  intro r hr
  rcases mem_pending_step hstep hr with hold | ⟨rfl, name, rest, signals, hstart, hfeeds, hrun, rfl⟩
  · obtain ⟨htrue, hlt⟩ := h r hold
    exact ⟨signals_of_step hw hlaunch hstep hlt htrue, hlt.trans_le (next_le_of_step hstep)⟩
  · obtain ⟨hlt, hname, -⟩ := hw.feeds _ _ hfeeds
    have hunlaunched := (hsignal.first _ _ hstart).2 r (by simp [hname])
    refine ⟨?_, by simpa using hlt⟩
    obtain ⟨hor, -⟩ | ⟨-, -, -, heq⟩ := startFeedLocked_cases r true false s
    · rcases hor with hcancel | hstarted | hctx
      · simp [hunlaunched.2.1] at hcancel
      · simp [hsignal.started_of_ne (by simp [hstart])] at hstarted
      · exact absurd ⟨hctx, name, rest, signals, r, hstart, hfeeds, hrun⟩ (hrefuse rfl)
    · rw [heq]
      simp

/-! ## Progress -/

/-- `Start` goes on. -/
lemma exists_start_progress (h : s.start ≠ .notCalled) (hreturned : s.start ≠ .returned) :
    ∃ action s', Progress action ∧ step action s = some s' := by
  cases hstart : s.start with
  | notCalled => exact absurd hstart h
  | first feeds signals => cases feeds <;> exact ⟨.startNext, _, trivial, by simp only [step, hstart]; rfl⟩
  | unlocked signals => exact ⟨.launchCollector, _, trivial, by simp only [step, hstart]; rfl⟩
  | launched =>
    refine ⟨.lockSecond s.names, { s with start := .second s.names }, trivial, ?_⟩
    simp [step, hstart, List.isPerm_iff]
  | second feeds => cases feeds <;> exact ⟨.startNext, _, trivial, by simp only [step, hstart]; rfl⟩
  | returned => exact absurd hstart hreturned

lemma locked_eq_false (h : s.start = .notCalled ∨ s.start = .returned) : s.locked = false := by
  rcases h with h | h <;> simp [State.locked, h]

/-- Under a cancelled context every loop has a way on. -/
lemma exists_loop_progress (hctx : s.ctxDone = true) (hlocked : s.locked = false) {r : ℕ}
    (hrunning : (s.reg r).loop.isRunning = true) : ∃ action s', Progress action ∧ step action s = some s' := by
  have hdone : s.feedCtxDone r = true := by simp [State.feedCtxDone, hctx]
  cases hloop : (s.reg r).loop with
  | notStarted => simp [hloop] at hrunning
  | finished => simp [hloop] at hrunning
  | waitingPhase => exact ⟨.loop r .phaseCancelled, _, by simp [Progress], by simp [step, loopStep, hloop, hdone]; rfl⟩
  | initial => exact ⟨.loop r (.decide false), _, by simp [Progress], by simp [step, loopStep, hloop]; rfl⟩
  | acquiring first => exact ⟨.loop r .giveUp, _, by simp [Progress], by simp [step, loopStep, hloop, hdone]; rfl⟩
  | syncing first => exact ⟨.loop r .syncEnds, _, by simp [Progress], by simp [step, loopStep, hloop]; rfl⟩
  | signalling attempted => exact ⟨.loop r .signal, _, by simp [Progress], by simp [step, loopStep, hloop]; rfl⟩
  | idle => exact ⟨.loop r .exit, _, by simp [Progress], by simp [step, loopStep, hloop, hdone]; rfl⟩
  | ending => exact ⟨.loop r .markStopped, _, by simp [Progress], by simp [step, loopStep, hloop, hlocked]; rfl⟩
  | stopped => exact ⟨.loop r .closeDone, _, by simp [Progress], by simp [step, loopStep, hloop]; rfl⟩

/-- A collector whose reports are all asked of launched loops has a way on, or one of the loops has. -/
lemma exists_collector_progress (hctx : s.ctxDone = true) (hsignal : SignalInv s) (hanswered : Answered s)
    (hstart : s.start = .returned) (hcounted : Counted s .collector) :
    ∃ action s', Progress action ∧ step action s = some s' := by
  obtain ⟨habsent, hfinished⟩ := hcounted
  cases hcollector : s.collector with
  | absent => exact absurd hcollector habsent
  | finished => exact absurd hcollector hfinished
  | propagating => exact ⟨.collectorEnd, _, trivial, by simp only [step, hcollector]; rfl⟩
  | waiting signals attempted =>
    cases signals with
    | nil => cases attempted <;> exact ⟨.collectorEnd, _, trivial, by simp only [step, hcollector]; rfl⟩
    | cons r rest =>
      have hr : r ∈ pending s := by simp [pending, hstart, awaited, hcollector, Collector.awaited]
      cases hsent : (s.reg r).sent with
      | some sent => exact ⟨.receive, _, trivial, by simp only [step, hcollector, hsent]; rfl⟩
      | none =>
        -- The loop did not report yet, so it is still running.
        have hpre := (hsignal.reports r (hanswered r hr).1).resolve_left (not_not.2 hsent)
        have hrunning : (s.reg r).loop.isRunning = true := by
          cases hloop : (s.reg r).loop <;> simp_all
        exact exists_loop_progress hctx (locked_eq_false (.inr hstart)) hrunning

/-- The collector is launched by `Start`. -/
def CollectorInv (s : State) : Prop := s.start = .notCalled → s.collector = .absent

lemma CollectorInv.step (h : CollectorInv s) {action : Action} (hstep : step action s = some s') :
    CollectorInv s' := by
  cases step_effect hstep with
  | applyConfig config =>
    rw [CollectorInv, (applyConfig_frame config s).1, (applyConfig_frame config s).2.1]
    exact h
  | handoverStart =>
    rw [CollectorInv, (handoverStart_frame _ s).1, (handoverStart_frame _ s).2.1]
    exact h
  | receive hcollector => exact fun hstart => absurd (h hstart) (by simp [hcollector])
  | propagate hcollector => exact fun hstart => absurd (h hstart) (by simp [hcollector])
  | collectorEnd hcollector => exact fun hstart => absurd (h hstart) (by rcases hcollector with h | h <;> simp [h])
  | startCall | firstSkip | firstAsk | firstEnd | secondSkip | secondAsk | secondEnd | launchCollector | lockSecond =>
    exact fun hstart => by cases hstart
  | _ => exact h

lemma exists_progress (hctx : s.ctxDone = true) (hsignal : SignalInv s) (hcollector : CollectorInv s)
    (hanswered : Answered s) {g : Goroutine} (hcounted : Counted s g) :
    ∃ action s', Progress action ∧ step action s = some s' := by
  by_cases hstart : s.start = .notCalled ∨ s.start = .returned
  · have hlocked := locked_eq_false hstart
    cases g with
    | loop r => exact exists_loop_progress hctx hlocked hcounted
    | handover r =>
      obtain ⟨p, hwaiting⟩ := hcounted
      exact ⟨.handoverQuit r, _, trivial, by simp only [step, hwaiting, hctx, if_true]; rfl⟩
    | collector =>
      rcases hstart with hstart | hstart
      · exact absurd (hcollector hstart) hcounted.1
      · exact exists_collector_progress hctx hsignal hanswered hstart hcounted
  · rw [not_or] at hstart
    exact exists_start_progress hstart.1 hstart.2

/-! ## Whole runs -/

/-- What every state that is reached keeps. -/
structure Inv (s : State) : Prop where
  wellFormed : WellFormed s
  launch : LaunchInv s
  signal : SignalInv s
  collector : CollectorInv s

lemma inv_init : Inv .init := ⟨wellFormed_init, launchInv_init, signalInv_init, fun _ => rfl⟩

lemma Inv.step (h : Inv s) {action : Action} (hstep : step action s = some s') : Inv s' where
  wellFormed := h.wellFormed.step hstep
  launch := h.launch.step h.wellFormed hstep
  signal := h.signal.step h.wellFormed hstep
  collector := h.collector.step hstep

variable {run : Run FeedManager.step}

lemma inv_state (hinit : run.state 0 = .init) (n : ℕ) : Inv (run.state n) :=
  run.persists (P := Inv) (fun _ _ _ hstep h => h.step hstep) (Nat.zero_le n) (hinit ▸ inv_init)

/-- From some moment on nobody makes progress. -/
lemma eventually_no_progress (hinit : run.state 0 = .init) (hfair : run.Fair Progress fun s => s.ctxDone = true)
    {n : ℕ} (hctx : (run.state n).ctxDone = true) :
    ∃ m ≥ n, ∀ k ≥ m, ∀ action s', Progress action → step action (run.state k) ≠ some s' := by
  have hfair' : run.Fair Progress fun s => s.ctxDone = true ∧ Inv s := fun k hk => hfair k hk.1
  have honly : run.Only (fun _ => True) n := fun _ _ _ _ => trivial
  refine run.eventually_quiet hfair' measure ?_ ?_ ?_ honly ⟨hctx, inv_state hinit n⟩
  · exact fun s s' a _ hstep h => ⟨step_ctxDone hstep h.1, h.2.step hstep⟩
  · exact fun s s' a _ hstep h => measure_le_of_step h.2.wellFormed h.2.signal h.1 hstep
  · exact fun s s' a _ hstep h hprogress => measure_lt_of_progress h.2.wellFormed h.1 hstep hprogress

lemma answered_state (hinit : run.state 0 = .init)
    (hrefuse : ∀ n, run.label n = some .startNext → ¬ Refuses (run.state n)) (n : ℕ) : Answered (run.state n) := by
  induction n with
  | zero =>
    intro r hr
    simp [hinit, pending, awaited, State.init] at hr
  | succ n ih =>
    cases hlabel : run.label n with
    | none => rwa [run.next_none hlabel]
    | some action =>
      have hinv := inv_state hinit n
      refine ih.step hinv.wellFormed hinv.launch hinv.signal (run.next_some hlabel) ?_
      rintro rfl
      exact hrefuse n hlabel

/-- A stuck state in which nobody makes progress has the collector waiting. -/
lemma Stuck.counted (h : Stuck s) (hquiet : ∀ action s', Progress action → FeedManager.step action s ≠ some s') :
    Counted s .collector := by
  obtain ⟨-, r, hr, -⟩ := h
  have hstart : s.start = .returned := by
    by_contra hne
    have hcalled : s.start ≠ .notCalled := by
      intro heq
      simp [pending, heq, awaited] at hr
    obtain ⟨action, s', hprogress, hstep⟩ := exists_start_progress hcalled hne
    exact hquiet action s' hprogress hstep
  rw [pending, hstart] at hr
  refine ⟨?_, ?_⟩ <;> intro heq <;> simp [awaited, heq, Collector.awaited] at hr

/-- `Wait` returns: from some moment on no goroutine is counted in the wait group. -/
def WaitReturns (run : Run step) : Prop := ∃ n, ∀ m ≥ n, ∀ g, ¬ Counted (run.state m) g

/-- **Shutdown.**  After the context is cancelled `Wait` returns, unless `Start` went through a feed of phase 1
after that: it then waits for the report of a loop that it did not launch. -/
theorem waitReturns_iff (run : Run step) (hinit : run.state 0 = .init)
    (hfair : run.Fair Progress fun s => s.ctxDone = true) (hcancel : ∃ n, (run.state n).ctxDone = true) :
    WaitReturns run ↔ ∀ n, run.label n = some .startNext → ¬ Refuses (run.state n) := by
  constructor
  · rintro ⟨m, hm⟩ n hlabel hrefuse
    have hinv := inv_state hinit n
    have hstep := run.next_some hlabel
    have hstuck : Stuck (run.state (n + 1)) := hrefuse.stuck hinv.wellFormed hinv.signal hstep
    have hkeep : ∀ k ≥ n + 1, Stuck (run.state k) := by
      intro k hk
      refine (run.persists (P := fun s => Stuck s ∧ Inv s) ?_ hk ⟨hstuck, inv_state hinit _⟩).1
      exact fun s s' a hstep h => ⟨h.1.step h.2.signal hstep, h.2.step hstep⟩
    obtain ⟨k, hk, hquiet⟩ := eventually_no_progress hinit hfair hstuck.1
    have hmax := hkeep (max k m) (hk.trans (le_max_left k m))
    exact hm _ (le_max_right k m) _ (hmax.counted (hquiet _ (le_max_left k m)))
  · intro hrefuse
    obtain ⟨n, hn⟩ := hcancel
    obtain ⟨m, hnm, hquiet⟩ := eventually_no_progress hinit hfair hn
    refine ⟨m, fun k hk g hcounted => ?_⟩
    have hinv := inv_state hinit k
    have hctx : (run.state k).ctxDone = true :=
      run.persists (P := fun s => s.ctxDone = true) (fun _ _ _ => step_ctxDone) (hnm.trans hk) hn
    obtain ⟨action, s', hprogress, hstep⟩ :=
      exists_progress hctx hinv.signal hinv.collector (answered_state hinit hrefuse k) hcounted
    exact hquiet k hk action s' hprogress hstep

/-- With one registration, nobody makes progress once `Start` returned, the loop does not run and is not handed
over, and the collector is done or waits in vain. -/
lemma no_progress (hw : WellFormed s) (hnext : s.next = 1) (hstart : s.start = .returned)
    (hloop : (s.reg 0).loop.isRunning = false) (hhandover : (s.reg 0).handover = .absent)
    (hcollector : s.collector = .finished ∨ (s.collector = .waiting [0] false ∧ (s.reg 0).sent = none))
    (action : Action) (s' : State) (hprogress : Progress action) : step action s ≠ some s' := by
  have hidle : ∀ r, (s.reg r).loop.isRunning = false ∧ (s.reg r).handover = .absent := by
    intro r
    by_cases hr : r = 0
    · rw [hr]
      exact ⟨hloop, hhandover⟩
    · obtain ⟨hfresh, habsent⟩ := hw.fresh r (by omega)
      exact ⟨by rw [hfresh]; rfl, habsent⟩
  intro hstep
  cases step_effect hstep with
  | loop lock heffect => exact absurd heffect.wasRunning (by rw [(hidle _).1]; exact Bool.false_ne_true)
  | handoverStart hwaiting | handoverQuit hwaiting => simp [(hidle _).2] at hwaiting
  | receive hwaiting hsent =>
    rcases hcollector with h | ⟨h, hnone⟩
    · simp [hwaiting] at h
    · obtain ⟨⟨rfl, -⟩, -⟩ : (_ = 0 ∧ _ = []) ∧ _ = false := by simpa [hwaiting] using h
      simp [hnone] at hsent
  | propagate hpropagate => rcases hcollector with h | ⟨h, -⟩ <;> simp [hpropagate] at h
  | collectorEnd hends => rcases hcollector with h | ⟨h, -⟩ <;> rcases hends with he | he <;> simp [he] at h
  | firstSkip h | firstAsk h | firstEnd h | secondSkip h | secondAsk h | secondEnd h | launchCollector h
  | lockSecond _ h => simp [hstart] at h
  | _ => exact hprogress

/-- A feed of phase 1. -/
def osv : FeedConfig := ⟨"osv", true, .self, .vulnerability⟩

/-- The context is cancelled while the manager works. -/
def cancelledAtWork : List Action :=
  [.register osv, .startCall ["osv"], .startNext, .startNext, .launchCollector, .lockSecond ["osv"], .startNext,
    .startNext, .cancelContext, .loop 0 (.decide true), .loop 0 .signal, .loop 0 .exit, .loop 0 .markStopped,
    .loop 0 .closeDone, .receive, .collectorEnd, .collectorEnd]

lemma cancelledAtWork_fair :
    (Run.ofList step .init cancelledAtWork).Fair Progress fun s => s.ctxDone = true := by
  have hinv : Inv (play step .init cancelledAtWork 17) :=
    @inv_state (Run.ofList step .init cancelledAtWork) rfl 17
  have hquiet := no_progress hinv.wellFormed rfl rfl rfl rfl (.inl rfl)
  exact Run.fair_ofList step (a := .collectorEnd) rfl trivial hquiet _

/-- `Start` goes through the feeds before the context is cancelled. -/
lemma cancelledAtWork_early {n : ℕ} (hlabel : (Run.ofList step .init cancelledAtWork).label n = some .startNext) :
    (play step .init cancelledAtWork n).ctxDone = false := by
  by_cases hn : n < 17
  · revert hlabel
    revert n
    decide
  · have hnone : cancelledAtWork[n]? = none := List.getElem?_eq_none (not_lt.1 hn)
    simp [Run.ofList, hnone] at hlabel

theorem cancelledAtWork_waitReturns : WaitReturns (Run.ofList step .init cancelledAtWork) := by
  refine (waitReturns_iff _ rfl cancelledAtWork_fair ⟨17, rfl⟩).2 fun n hlabel hrefuse => ?_
  have hctx : (play step .init cancelledAtWork n).ctxDone = true := hrefuse.1
  simp [cancelledAtWork_early hlabel] at hctx

/-- The context is cancelled before `Start` is called. -/
def cancelledBeforeStart : List Action :=
  [.register osv, .cancelContext, .startCall ["osv"], .startNext, .startNext, .launchCollector, .lockSecond ["osv"],
    .startNext, .startNext]

/-- A manager that is started with a cancelled context never shuts down: the collector waits for the report of a
loop that was not launched. -/
theorem cancelledBeforeStart_not_waitReturns :
    (Run.ofList step .init cancelledBeforeStart).Fair Progress (fun s => s.ctxDone = true) ∧
      ((Run.ofList step .init cancelledBeforeStart).state 2).ctxDone = true ∧
      ¬ WaitReturns (Run.ofList step .init cancelledBeforeStart) := by
  refine ⟨?_, rfl, ?_⟩
  · have hinv : Inv (play step .init cancelledBeforeStart 9) :=
      @inv_state (Run.ofList step .init cancelledBeforeStart) rfl 9
    have hquiet := no_progress hinv.wellFormed rfl rfl rfl rfl (.inr ⟨rfl, rfl⟩)
    exact Run.fair_ofList step (a := .startNext) rfl trivial hquiet _
  · rintro ⟨n, hn⟩
    have hcounted := hn (max n 9) (le_max_left n 9) .collector
    have hstate : (Run.ofList step .init cancelledBeforeStart).state (max n 9) =
        play step .init cancelledBeforeStart 9 := play_of_length_le step .init cancelledBeforeStart (le_max_right n 9)
    rw [hstate] at hcounted
    exact hcounted ⟨by decide, by decide⟩

end Packmon.FeedManager

import Mathlib.Algebra.Order.Group.Nat
import Mathlib.Data.List.Nodup
import Mathlib.Data.List.Perm.Basic
import Mathlib.Logic.Function.Basic

/-!
# The feed manager

The manager runs one loop for each feed that is enabled and not external.  `Start` launches the loops of
phase 1 in one critical section and those of phase 2 in a second one; between the two it launches a
collector that waits until every loop of phase 1 reported its first sync, and then lets phase 2 begin.
`ApplyConfig` replaces the registration of a feed: it cancels the old loop and hands over to the new one
once the old one is done.

Goroutines and calls take atomic steps in any order.  The critical sections of `Start` go through the feeds
one by one while they hold the lock, since the context may be cancelled in between; every other critical
section is one step.
-/

namespace Packmon.FeedManager

inductive FeedPhase where
  | unset
  | vulnerability
  | enrichment
  deriving DecidableEq

inductive FeedMode where
  | self
  | external
  deriving DecidableEq

structure FeedConfig where
  name : String
  enabled : Bool
  mode : FeedMode
  phase : FeedPhase
  deriving DecidableEq

def managerFeedShouldRun (config : FeedConfig) : Bool := config.enabled && config.mode ≠ .external

def feedPhase (config : FeedConfig) : FeedPhase :=
  if config.phase = .unset then .vulnerability else config.phase

/-- Where the goroutine of a loop is. -/
inductive LoopState where
  | notStarted
  /-- A loop of phase 2 waits for phase 1. -/
  | waitingPhase
  /-- The loop is about to decide on its first sync. -/
  | initial
  /-- The loop waits for the lock of the feed, for its first sync or a later one. -/
  | acquiring (first : Bool)
  | syncing (first : Bool)
  /-- The loop is about to report whether it attempted a first sync. -/
  | signalling (attempted : Bool)
  | idle
  /-- The loop is about to clear its cancel function. -/
  | ending
  /-- The loop is about to close its channel. -/
  | stopped
  | finished
  deriving DecidableEq

/-- Where the goroutine is that starts a loop once another one is done. -/
inductive Handover where
  | absent
  | waiting (previousDone : ℕ)
  | over
  deriving DecidableEq

/-- One registration of a feed.  The channel that its loop closes at the end is known by the registration. -/
structure Registration where
  config : FeedConfig
  /-- A cancel function is stored. -/
  cancel : Bool := false
  /-- The cancel function was called. -/
  cancelled : Bool := false
  startAfter : Option ℕ := none
  loop : LoopState := .notStarted
  /-- The loop has a channel to report its first sync on. -/
  signals : Bool := false
  sent : Option Bool := none
  handover : Handover := .absent
  deriving DecidableEq

/-- Who holds the lock that is shared by the syncs of a feed. -/
inductive SyncLock where
  | free
  | loop (registration : ℕ)
  | syncOne
  deriving DecidableEq

inductive StartState where
  | notCalled
  /-- The first critical section: the feeds that are left, and the registrations whose reports are awaited. -/
  | first (feeds : List String) (signals : List ℕ)
  | unlocked (signals : List ℕ)
  | launched
  /-- The second critical section. -/
  | second (feeds : List String)
  | returned
  deriving DecidableEq

inductive Collector where
  | absent
  | waiting (signals : List ℕ) (attempted : Bool)
  | propagating
  | finished
  deriving DecidableEq

structure State where
  started : Bool
  /-- The context that is given to `Start` is cancelled. -/
  ctxDone : Bool
  next : ℕ
  reg : ℕ → Registration
  feeds : String → Option ℕ
  names : List String
  syncLock : String → SyncLock
  start : StartState
  collector : Collector
  phase1Done : Bool

def State.init : State where
  started := false
  ctxDone := false
  next := 0
  reg _ := { config := ⟨"", false, .self, .unset⟩ }
  feeds _ := none
  names := []
  syncLock _ := .free
  start := .notCalled
  collector := .absent
  phase1Done := false

/-- `Start` holds the lock of the manager. -/
def State.locked (s : State) : Bool :=
  match s.start with
  | .first _ _ | .second _ => true
  | _ => false

def State.feedCtxDone (s : State) (r : ℕ) : Bool := s.ctxDone || (s.reg r).cancelled

def State.modifyReg (s : State) (r : ℕ) (change : Registration → Registration) : State :=
  { s with reg := Function.update s.reg r (change (s.reg r)) }

def State.setLoop (s : State) (r : ℕ) (loop : LoopState) : State := s.modifyReg r fun rf => { rf with loop }

/-! ## Calls -/

/-- The loop is launched unless it was before, and unless the context is missing or cancelled. -/
def startFeedLocked (r : ℕ) (signals waitForPhase1 : Bool) (s : State) : State :=
  if (s.reg r).cancel || !s.started || s.ctxDone then s
  else s.modifyReg r fun rf =>
    { rf with cancel := true, loop := if waitForPhase1 then .waitingPhase else .initial, signals }

/-- A new registration takes the place of the one before. -/
def State.addReg (s : State) (rf : Registration) : State :=
  { s with
    next := s.next + 1
    reg := Function.update s.reg s.next rf
    feeds := Function.update s.feeds rf.config.name (some s.next)
    names := if rf.config.name ∈ s.names then s.names else s.names ++ [rf.config.name] }

/-- After the start of the manager, feeds can no longer be registered. -/
def register (config : FeedConfig) (s : State) : State := if s.started then s else s.addReg { config }

/-- The channel a new registration has to wait for. -/
def previousDone (config : FeedConfig) (s : State) : Option ℕ :=
  (s.feeds config.name).bind fun old => if (s.reg old).cancel then some old else (s.reg old).startAfter

/-- The loop of the registration before is told to stop. -/
def cancelOld (config : FeedConfig) (s : State) : State :=
  match s.feeds config.name with
  | some old => if (s.reg old).cancel then s.modifyReg old fun rf => { rf with cancelled := true } else s
  | none => s

/-- The state once the registration was replaced. -/
def replaced (config : FeedConfig) (s : State) : State :=
  (cancelOld config s).addReg { config, startAfter := previousDone config s }

def applyConfig (config : FeedConfig) (s : State) : State :=
  if s.started && managerFeedShouldRun config && !s.ctxDone then
    match previousDone config s with
    | some p => (replaced config s).modifyReg s.next fun rf => { rf with handover := .waiting p }
    | none => startFeedLocked s.next false (feedPhase config = .enrichment) (replaced config s)
  else replaced config s

/-! ## Steps -/

inductive LoopAction where
  | phaseReady
  | phaseCancelled
  | decide (attempt : Bool)
  | acquire
  | giveUp
  | syncEnds
  | signal
  | tick
  | exit
  | markStopped
  | closeDone
  deriving DecidableEq

inductive Action where
  | cancelContext
  | register (config : FeedConfig)
  | applyConfig (config : FeedConfig)
  | syncOne (name : String)
  | syncOneEnds (name : String)
  /-- The feeds are gone through in any order. -/
  | startCall (order : List String)
  | startNext
  | launchCollector
  | lockSecond (order : List String)
  | loop (r : ℕ) (action : LoopAction)
  | handoverStart (r : ℕ)
  | handoverQuit (r : ℕ)
  | receive
  | collectorEnd
  deriving DecidableEq

/-- A first sync is followed by the report, a later one by the next tick. -/
def afterSync (first : Bool) : LoopState := if first then .signalling true else .idle

def loopStep (r : ℕ) (action : LoopAction) (s : State) : Option State :=
  let rf := s.reg r
  let name := rf.config.name
  match action, rf.loop with
  | .phaseReady, .waitingPhase => if s.phase1Done then some (s.setLoop r .initial) else none
  | .phaseCancelled, .waitingPhase => if s.feedCtxDone r then some (s.setLoop r .ending) else none
  | .decide attempt, .initial =>
    -- A sync that is attempted under a cancelled context bails out at once.
    some (s.setLoop r (if attempt && !s.feedCtxDone r then .acquiring true else .signalling attempt))
  | .acquire, .acquiring first =>
    if s.syncLock name = .free then
      some { s.setLoop r (.syncing first) with syncLock := Function.update s.syncLock name (.loop r) }
    else none
  | .giveUp, .acquiring first => if s.feedCtxDone r then some (s.setLoop r (afterSync first)) else none
  | .syncEnds, .syncing first =>
    some { s.setLoop r (afterSync first) with syncLock := Function.update s.syncLock name .free }
  | .signal, .signalling attempted =>
    some (s.modifyReg r fun rf =>
      { rf with loop := .idle, sent := if rf.signals then some attempted else rf.sent })
  | .tick, .idle => some (s.setLoop r (if s.feedCtxDone r then .idle else .acquiring false))
  | .exit, .idle => if s.feedCtxDone r then some (s.setLoop r .ending) else none
  | .markStopped, .ending =>
    if s.locked then none
    else some (s.modifyReg r fun rf =>
      { rf with loop := .stopped, cancel := rf.cancel && s.feeds name ≠ some r })
  | .closeDone, .stopped => some (s.setLoop r .finished)
  | _, _ => none

/-- A feed that runs and belongs to a phase. -/
def runsIn (phase : FeedPhase) (config : FeedConfig) : Bool :=
  managerFeedShouldRun config && feedPhase config = phase

/-- The next feed of the first critical section of `Start`. -/
def startFirst (name : String) (rest : List String) (signals : List ℕ) (s : State) : State :=
  match s.feeds name with
  | none => { s with start := .first rest signals }
  | some r =>
    if runsIn .vulnerability (s.reg r).config then
      { startFeedLocked r true false s with start := .first rest (signals ++ [r]) }
    else { s with start := .first rest signals }

/-- The next feed of the second critical section of `Start`. -/
def startSecond (name : String) (rest : List String) (s : State) : State :=
  match s.feeds name with
  | none => { s with start := .second rest }
  | some r =>
    if runsIn .enrichment (s.reg r).config then
      { startFeedLocked r false true s with start := .second rest }
    else { s with start := .second rest }

/-- The loop before is done: the new one is started if it was not replaced in the meantime. -/
def handoverStart (r : ℕ) (s : State) : State :=
  let config := (s.reg r).config
  let s := s.modifyReg r fun rf => { rf with handover := .over }
  if s.feeds config.name = some r ∧ managerFeedShouldRun config then
    startFeedLocked r false (feedPhase config = .enrichment) (s.modifyReg r fun rf => { rf with startAfter := none })
  else s

def step : Action → State → Option State
  | .cancelContext, s => some { s with ctxDone := true }
  | .register config, s => if s.locked then none else some (register config s)
  | .applyConfig config, s => if s.locked then none else some (applyConfig config s)
  | .syncOne name, s =>
    if s.locked then none
    else if (s.feeds name).isSome ∧ s.syncLock name = .free then
      some { s with syncLock := Function.update s.syncLock name .syncOne }
    else some s
  | .syncOneEnds name, s =>
    if s.syncLock name = .syncOne then some { s with syncLock := Function.update s.syncLock name .free }
    else none
  | .startCall order, s =>
    if s.locked then none
    else if s.started then some s
    else if order.isPerm s.names then some { s with started := true, start := .first order [] }
    else none
  | .startNext, s =>
    match s.start with
    | .first (name :: rest) signals => some (startFirst name rest signals s)
    | .first [] signals => some { s with start := .unlocked signals }
    | .second (name :: rest) => some (startSecond name rest s)
    | .second [] => some { s with start := .returned }
    | _ => none
  | .launchCollector, s =>
    match s.start with
    | .unlocked signals => some { s with start := .launched, collector := .waiting signals false }
    | _ => none
  | .lockSecond order, s =>
    if s.start = .launched ∧ order.isPerm s.names then some { s with start := .second order } else none
  | .loop r action, s => loopStep r action s
  | .handoverStart r, s =>
    match (s.reg r).handover with
    | .waiting p =>
      if (s.reg p).loop = .finished ∧ s.locked = false then some (handoverStart r s) else none
    | _ => none
  | .handoverQuit r, s =>
    match (s.reg r).handover with
    | .waiting _ =>
      if s.ctxDone then some (s.modifyReg r fun rf => { rf with handover := .over }) else none
    | _ => none
  | .receive, s =>
    match s.collector with
    | .waiting (r :: rest) attempted =>
      (s.reg r).sent.map fun sent => { s with collector := .waiting rest (attempted || sent) }
    | _ => none
  | .collectorEnd, s =>
    match s.collector with
    | .waiting [] true => some { s with collector := .propagating }
    | .waiting [] false => some { s with collector := .finished, phase1Done := true }
    | .propagating => some { s with collector := .finished, phase1Done := true }
    | _ => none

/-! ## Goroutines -/

/-- A loop is between its launch and the end of its goroutine. -/
@[simp] def LoopState.isRunning : LoopState → Bool
  | .notStarted | .finished => false
  | _ => true

/-- The goroutines the manager waits for. -/
inductive Goroutine where
  | loop (r : ℕ)
  | handover (r : ℕ)
  | collector
  deriving DecidableEq

/-- A goroutine is counted in the wait group. -/
def Counted (s : State) : Goroutine → Prop
  | .loop r => (s.reg r).loop.isRunning = true
  | .handover r => ∃ p, (s.reg r).handover = .waiting p
  | .collector => s.collector ≠ .absent ∧ s.collector ≠ .finished

/-! ## Updates of registrations -/

variable {s s' : State}

@[simp] lemma modifyReg_reg (s : State) (r : ℕ) (change : Registration → Registration) :
    (s.modifyReg r change).reg = Function.update s.reg r (change (s.reg r)) := rfl

@[simp] lemma modifyReg_reg_self (s : State) (r : ℕ) (change : Registration → Registration) :
    (s.modifyReg r change).reg r = change (s.reg r) := by
  simp

lemma modifyReg_reg_of_ne (s : State) {r i : ℕ} (h : i ≠ r) (change : Registration → Registration) :
    (s.modifyReg r change).reg i = s.reg i := by
  simp [h]

/-- The launch is refused, or the loop was not launched before and the context is there. -/
lemma startFeedLocked_cases (r : ℕ) (signals waitForPhase1 : Bool) (s : State) :
    (((s.reg r).cancel = true ∨ s.started = false ∨ s.ctxDone = true) ∧
      startFeedLocked r signals waitForPhase1 s = s) ∨
    (s.reg r).cancel = false ∧ s.started = true ∧ s.ctxDone = false ∧
      startFeedLocked r signals waitForPhase1 s = s.modifyReg r fun rf =>
        { rf with cancel := true, loop := if waitForPhase1 then .waitingPhase else .initial, signals } := by
  unfold startFeedLocked
  cases hcancel : (s.reg r).cancel <;> cases hstarted : s.started <;> cases hctx : s.ctxDone <;> simp

@[simp] lemma startFeedLocked_started (r : ℕ) (signals waitForPhase1 : Bool) (s : State) :
    (startFeedLocked r signals waitForPhase1 s).started = s.started := by
  unfold startFeedLocked
  split_ifs <;> rfl

@[simp] lemma startFeedLocked_ctxDone (r : ℕ) (signals waitForPhase1 : Bool) (s : State) :
    (startFeedLocked r signals waitForPhase1 s).ctxDone = s.ctxDone := by
  unfold startFeedLocked
  split_ifs <;> rfl

@[simp] lemma startFeedLocked_next (r : ℕ) (signals waitForPhase1 : Bool) (s : State) :
    (startFeedLocked r signals waitForPhase1 s).next = s.next := by
  unfold startFeedLocked
  split_ifs <;> rfl

@[simp] lemma startFeedLocked_feeds (r : ℕ) (signals waitForPhase1 : Bool) (s : State) :
    (startFeedLocked r signals waitForPhase1 s).feeds = s.feeds := by
  unfold startFeedLocked
  split_ifs <;> rfl

@[simp] lemma startFeedLocked_start (r : ℕ) (signals waitForPhase1 : Bool) (s : State) :
    (startFeedLocked r signals waitForPhase1 s).start = s.start := by
  unfold startFeedLocked
  split_ifs <;> rfl

@[simp] lemma startFeedLocked_collector (r : ℕ) (signals waitForPhase1 : Bool) (s : State) :
    (startFeedLocked r signals waitForPhase1 s).collector = s.collector := by
  unfold startFeedLocked
  split_ifs <;> rfl

lemma startFeedLocked_of_ctxDone (h : s.ctxDone = true) (r : ℕ) (signals waitForPhase1 : Bool) :
    startFeedLocked r signals waitForPhase1 s = s := by
  simp [startFeedLocked, h]

/-! ## What a step of a loop does -/

/-- The loop has yet to report on its first sync. -/
@[simp] def LoopState.isPreSignal : LoopState → Bool
  | .initial | .acquiring true | .syncing true | .signalling _ => true
  | _ => false

/-- The loop is on its way out. -/
@[simp] def LoopState.isEnding : LoopState → Bool
  | .ending | .stopped | .finished => true
  | _ => false

/-- How far a loop is from its end. -/
@[simp] def LoopState.rank : LoopState → ℕ
  | .notStarted => 0
  | .waitingPhase => 9
  | .initial => 8
  | .acquiring true => 7
  | .syncing true => 6
  | .signalling _ => 5
  | .acquiring false => 5
  | .syncing false => 4
  | .idle => 3
  | .ending => 2
  | .stopped => 1
  | .finished => 0

/-- A step of a loop changes its place, its report and its cancel function, and nothing else of the
registration. -/
structure LoopEffect (s : State) (r : ℕ) (action : LoopAction) (rf : Registration) : Prop where
  config : rf.config = (s.reg r).config
  startAfter : rf.startAfter = (s.reg r).startAfter
  handover : rf.handover = (s.reg r).handover
  signals : rf.signals = (s.reg r).signals
  cancelled : rf.cancelled = (s.reg r).cancelled
  wasRunning : (s.reg r).loop.isRunning = true
  isStarted : rf.loop ≠ .notStarted
  /-- Only a tick may lead away from the end, and not under a cancelled context. -/
  rank : (action ≠ .tick → rf.loop.rank < (s.reg r).loop.rank) ∧
    (s.feedCtxDone r = true → rf.loop.rank ≤ (s.reg r).loop.rank)
  cancel : rf.cancel = (s.reg r).cancel ∨
    rf.cancel = false ∧ s.feeds (s.reg r).config.name = some r ∧ (s.reg r).loop = .ending ∧ s.locked = false
  ending : rf.loop.isEnding = true → (s.reg r).loop.isEnding = true ∨ s.feedCtxDone r = true
  sent : rf.sent = (s.reg r).sent ∨ (s.reg r).signals = true ∧ rf.sent ≠ none
  preSignal : (s.reg r).loop.isPreSignal = true → rf.loop.isPreSignal = true ∨
    ((s.reg r).signals = true → rf.sent ≠ none)

/-- Most steps only change the place of the loop. -/
lemma LoopEffect.ofLoop {r : ℕ} {action : LoopAction} {loop : LoopState}
    (hrunning : (s.reg r).loop.isRunning = true) (hstarted : loop ≠ .notStarted)
    (hrank : (action ≠ .tick → loop.rank < (s.reg r).loop.rank) ∧
      (s.feedCtxDone r = true → loop.rank ≤ (s.reg r).loop.rank))
    (hending : loop.isEnding = true → (s.reg r).loop.isEnding = true ∨ s.feedCtxDone r = true)
    (hpre : (s.reg r).loop.isPreSignal = true → loop.isPreSignal = true) :
    LoopEffect s r action { s.reg r with loop } where
  config := rfl
  startAfter := rfl
  handover := rfl
  signals := rfl
  cancelled := rfl
  wasRunning := hrunning
  isStarted := hstarted
  rank := hrank
  cancel := .inl rfl
  ending := hending
  sent := .inl rfl
  preSignal h := .inl (hpre h)

lemma loopStep_effect {r : ℕ} {action : LoopAction} (h : loopStep r action s = some s') :
    ∃ rf lock, s' = { s with reg := Function.update s.reg r rf, syncLock := lock } ∧
      LoopEffect s r action rf := by
  unfold loopStep at h
  dsimp only at h
  split at h
  case h_1 hloop =>
    split_ifs at h
    cases h
    exact ⟨_, _, rfl, .ofLoop (by simp [hloop]) (by simp) (by simp [hloop]) (by simp) (by simp [hloop])⟩
  case h_2 hloop =>
    split_ifs at h with hdone
    cases h
    exact ⟨_, _, rfl, .ofLoop (by simp [hloop]) (by simp) (by simp [hloop]) (by simp [hdone]) (by simp [hloop])⟩
  case h_3 hloop =>
    cases h
    refine ⟨_, _, rfl, ?_⟩
    split_ifs
    · exact .ofLoop (by simp [hloop]) (by simp) (by simp [hloop]) (by simp) (by simp)
    · exact .ofLoop (by simp [hloop]) (by simp) (by simp [hloop]) (by simp) (by simp)
  case h_4 first hloop =>
    split_ifs at h
    cases h
    refine ⟨_, _, rfl, ?_⟩
    cases first <;>
      exact .ofLoop (by simp [hloop]) (by simp) (by simp [hloop]) (by simp) (by simp [hloop])
  case h_5 first hloop =>
    split_ifs at h
    cases h
    refine ⟨_, _, rfl, ?_⟩
    cases first <;>
      exact .ofLoop (by simp [hloop]) (by simp [afterSync]) (by simp [hloop, afterSync]) (by simp [afterSync])
        (by simp [hloop, afterSync])
  case h_6 first hloop =>
    cases h
    refine ⟨_, _, rfl, ?_⟩
    cases first <;>
      exact .ofLoop (by simp [hloop]) (by simp [afterSync]) (by simp [hloop, afterSync]) (by simp [afterSync])
        (by simp [hloop, afterSync])
  case h_7 attempted hloop =>
    cases h
    refine ⟨_, _, rfl, ?_⟩
    constructor
    all_goals cases hsignals : (s.reg r).signals <;> simp [hloop, hsignals]
  case h_8 hloop =>
    cases h
    refine ⟨_, _, rfl, ?_⟩
    split_ifs with hdone
    · exact .ofLoop (by simp [hloop]) (by simp) (by simp [hloop]) (by simp) (by simp [hloop])
    · exact .ofLoop (by simp [hloop]) (by simp) (by simp [hdone]) (by simp) (by simp [hloop])
  case h_9 hloop =>
    split_ifs at h with hdone
    cases h
    exact ⟨_, _, rfl, .ofLoop (by simp [hloop]) (by simp) (by simp [hloop]) (by simp [hdone]) (by simp [hloop])⟩
  case h_10 hloop =>
    split_ifs at h with hlocked
    cases h
    refine ⟨_, _, rfl, ?_⟩
    constructor
    case cancel =>
      by_cases hcurrent : s.feeds (s.reg r).config.name = some r
      · exact .inr (by simp [hcurrent, hloop, hlocked])
      · exact .inl (by simp [hcurrent])
    all_goals simp [hloop]
  case h_11 hloop =>
    cases h
    exact ⟨_, _, rfl, .ofLoop (by simp [hloop]) (by simp) (by simp [hloop]) (by simp [hloop]) (by simp [hloop])⟩
  case h_12 => cases h

/-! ## What a step does -/

/-- Everything a step can do. -/
inductive StepEffect (s : State) : Action → State → Prop where
  | registerLate (config : FeedConfig) : StepEffect s (.register config) s
  | syncOneBusy (name : String) : StepEffect s (.syncOne name) s
  | startCallLate (order : List String) : StepEffect s (.startCall order) s
  | cancelContext : StepEffect s .cancelContext { s with ctxDone := true }
  | syncOne (name : String) (lock : String → SyncLock) : StepEffect s (.syncOne name) { s with syncLock := lock }
  | syncOneEnds (name : String) (lock : String → SyncLock) :
    StepEffect s (.syncOneEnds name) { s with syncLock := lock }
  | register (config : FeedConfig) (hlocked : s.locked = false) (hstarted : s.started = false) :
    StepEffect s (.register config) (s.addReg { config })
  | applyConfig (config : FeedConfig) (hlocked : s.locked = false) :
    StepEffect s (.applyConfig config) (applyConfig config s)
  | startCall (order : List String) (hlocked : s.locked = false) (hstarted : s.started = false)
    (horder : order.Perm s.names) :
    StepEffect s (.startCall order) { s with started := true, start := .first order [] }
  | firstSkip {name : String} {rest : List String} {signals : List ℕ}
    (hstart : s.start = .first (name :: rest) signals)
    (hskip : ∀ r, s.feeds name = some r → runsIn .vulnerability (s.reg r).config = false) :
    StepEffect s .startNext { s with start := .first rest signals }
  | firstAsk {name : String} {rest : List String} {signals : List ℕ} {r : ℕ}
    (hstart : s.start = .first (name :: rest) signals) (hfeeds : s.feeds name = some r)
    (hrun : runsIn .vulnerability (s.reg r).config = true) :
    StepEffect s .startNext { startFeedLocked r true false s with start := .first rest (signals ++ [r]) }
  | firstEnd {signals : List ℕ} (hstart : s.start = .first [] signals) :
    StepEffect s .startNext { s with start := .unlocked signals }
  | secondSkip {name : String} {rest : List String} (hstart : s.start = .second (name :: rest))
    (hskip : ∀ r, s.feeds name = some r → runsIn .enrichment (s.reg r).config = false) :
    StepEffect s .startNext { s with start := .second rest }
  | secondAsk {name : String} {rest : List String} {r : ℕ} (hstart : s.start = .second (name :: rest))
    (hfeeds : s.feeds name = some r) (hrun : runsIn .enrichment (s.reg r).config = true) :
    StepEffect s .startNext { startFeedLocked r false true s with start := .second rest }
  | secondEnd (hstart : s.start = .second []) : StepEffect s .startNext { s with start := .returned }
  | launchCollector {signals : List ℕ} (hstart : s.start = .unlocked signals) :
    StepEffect s .launchCollector { s with start := .launched, collector := .waiting signals false }
  | lockSecond (order : List String) (hstart : s.start = .launched) (horder : order.Perm s.names) :
    StepEffect s (.lockSecond order) { s with start := .second order }
  | loop {r : ℕ} {action : LoopAction} {rf : Registration} (lock : String → SyncLock)
    (heffect : LoopEffect s r action rf) :
    StepEffect s (.loop r action) { s with reg := Function.update s.reg r rf, syncLock := lock }
  | handoverStart {r p : ℕ} (hwaiting : (s.reg r).handover = .waiting p)
    (hfinished : (s.reg p).loop = .finished) (hlocked : s.locked = false) :
    StepEffect s (.handoverStart r) (handoverStart r s)
  | handoverQuit {r p : ℕ} (hwaiting : (s.reg r).handover = .waiting p) (hctx : s.ctxDone = true) :
    StepEffect s (.handoverQuit r) (s.modifyReg r fun rf => { rf with handover := .over })
  | receive {r : ℕ} {rest : List ℕ} {attempted sent : Bool} (hcollector : s.collector = .waiting (r :: rest) attempted)
    (hsent : (s.reg r).sent = some sent) :
    StepEffect s .receive { s with collector := .waiting rest (attempted || sent) }
  | propagate (hcollector : s.collector = .waiting [] true) :
    StepEffect s .collectorEnd { s with collector := .propagating }
  | collectorEnd (hcollector : s.collector = .waiting [] false ∨ s.collector = .propagating) :
    StepEffect s .collectorEnd { s with collector := .finished, phase1Done := true }

lemma step_effect {action : Action} (hstep : step action s = some s') : StepEffect s action s' := by
  cases action with
  | cancelContext =>
    cases hstep
    exact .cancelContext
  | register config =>
    simp only [step] at hstep
    split_ifs at hstep with hlocked
    cases hstep
    unfold register
    split_ifs with hstarted
    · exact .registerLate config
    · exact .register config (Bool.eq_false_iff.2 hlocked) (Bool.eq_false_iff.2 hstarted)
  | applyConfig config =>
    simp only [step] at hstep
    split_ifs at hstep with hlocked
    cases hstep
    exact .applyConfig config (Bool.eq_false_iff.2 hlocked)
  | syncOne name =>
    simp only [step] at hstep
    split_ifs at hstep <;> cases hstep
    · exact .syncOne name _
    · exact .syncOneBusy name
  | syncOneEnds name =>
    simp only [step] at hstep
    split_ifs at hstep
    cases hstep
    exact .syncOneEnds name _
  | startCall order =>
    simp only [step] at hstep
    split_ifs at hstep with hlocked hstarted horder <;> cases hstep
    · exact .startCallLate order
    · exact .startCall order (Bool.eq_false_iff.2 hlocked) (Bool.eq_false_iff.2 hstarted) (List.isPerm_iff.1 horder)
  | startNext =>
    simp only [step] at hstep
    split at hstep <;> cases hstep
    case h_1 hstart =>
      unfold startFirst
      split
      · rename_i hfeeds
        exact .firstSkip hstart fun r hr => by simp [hfeeds] at hr
      · rename_i r hfeeds
        dsimp only
        split_ifs with hrun
        · exact .firstAsk hstart hfeeds hrun
        · refine .firstSkip hstart fun i hi => ?_
          obtain rfl : r = i := Option.some.inj (hfeeds.symm.trans hi)
          exact Bool.eq_false_iff.2 hrun
    case h_2 hstart => exact .firstEnd hstart
    case h_3 hstart =>
      unfold startSecond
      split
      · rename_i hfeeds
        exact .secondSkip hstart fun r hr => by simp [hfeeds] at hr
      · rename_i r hfeeds
        dsimp only
        split_ifs with hrun
        · exact .secondAsk hstart hfeeds hrun
        · refine .secondSkip hstart fun i hi => ?_
          obtain rfl : r = i := Option.some.inj (hfeeds.symm.trans hi)
          exact Bool.eq_false_iff.2 hrun
    case h_4 hstart => exact .secondEnd hstart
  | launchCollector =>
    simp only [step] at hstep
    split at hstep <;> cases hstep
    exact .launchCollector ‹_›
  | lockSecond order =>
    simp only [step] at hstep
    split_ifs at hstep with hstart
    cases hstep
    exact .lockSecond order hstart.1 (List.isPerm_iff.1 hstart.2)
  | loop r action =>
    obtain ⟨rf, lock, rfl, heffect⟩ := loopStep_effect hstep
    exact .loop lock heffect
  | handoverStart r =>
    simp only [step] at hstep
    split at hstep
    · split_ifs at hstep with hready
      cases hstep
      exact .handoverStart ‹_› hready.1 hready.2
    · cases hstep
  | handoverQuit r =>
    simp only [step] at hstep
    split at hstep
    · split_ifs at hstep with hctx
      cases hstep
      exact .handoverQuit ‹_› hctx
    · cases hstep
  | receive =>
    simp only [step] at hstep
    split at hstep
    · obtain ⟨sent, hsent, rfl⟩ := Option.map_eq_some_iff.1 hstep
      exact .receive ‹_› hsent
    · cases hstep
  | collectorEnd =>
    simp only [step] at hstep
    split at hstep <;> cases hstep
    · exact .propagate ‹_›
    · exact .collectorEnd (.inl ‹_›)
    · exact .collectorEnd (.inr ‹_›)

/-- The goroutine that hands over is done with its registration. -/
def State.release (s : State) (r : ℕ) (startAfter : Option ℕ) : State :=
  s.modifyReg r fun rf => { rf with handover := .over, startAfter }

/-- The goroutine that hands over drops its registration or launches its loop. -/
lemma handoverStart_cases (r : ℕ) (s : State) :
    (¬ (s.feeds (s.reg r).config.name = some r ∧ managerFeedShouldRun (s.reg r).config = true) ∧
      handoverStart r s = s.release r (s.reg r).startAfter) ∨
    (s.feeds (s.reg r).config.name = some r ∧ managerFeedShouldRun (s.reg r).config = true) ∧
      handoverStart r s =
        startFeedLocked r false (feedPhase (s.reg r).config = .enrichment) (s.release r none) := by
  have hrelease : (s.modifyReg r fun rf => { rf with handover := .over }).modifyReg r
      (fun rf => { rf with startAfter := none }) = s.release r none := by
    simp [State.modifyReg, State.release]
  unfold handoverStart
  dsimp only
  rw [hrelease]
  split_ifs with hcurrent
  · exact .inr ⟨hcurrent, rfl⟩
  · exact .inl ⟨hcurrent, rfl⟩

/-! ## Registrations and names -/

/-- What holds of the registrations all along. -/
structure WellFormed (s : State) : Prop where
  /-- A registration that is not there yet has no goroutines. -/
  fresh : ∀ r, s.next ≤ r → (s.reg r).loop = .notStarted ∧ (s.reg r).handover = .absent
  feeds : ∀ name r, s.feeds name = some r → r < s.next ∧ (s.reg r).config.name = name ∧ name ∈ s.names
  nodup : s.names.Nodup

lemma WellFormed.congr (h : WellFormed s) (hnext : s'.next = s.next) (hreg : s'.reg = s.reg)
    (hfeeds : s'.feeds = s.feeds) (hnames : s'.names = s.names) : WellFormed s' where
  fresh := by rw [hnext, hreg]; exact h.fresh
  feeds := by rw [hnext, hreg, hfeeds, hnames]; exact h.feeds
  nodup := hnames ▸ h.nodup

lemma WellFormed.update (h : WellFormed s) {r : ℕ} (hr : r < s.next) {rf : Registration}
    (hconfig : rf.config = (s.reg r).config) : WellFormed { s with reg := Function.update s.reg r rf } where
  fresh i hi := by
    have hne : i ≠ r := by
      rintro rfl
      exact absurd hr (not_lt.2 hi)
    simpa [hne] using h.fresh i hi
  feeds name i hi := by
    obtain ⟨hlt, hname, hmem⟩ := h.feeds name i hi
    refine ⟨hlt, ?_, hmem⟩
    by_cases hir : i = r
    · subst hir
      simpa [hconfig] using hname
    · simpa [hir] using hname
  nodup := h.nodup

lemma WellFormed.startFeedLocked (h : WellFormed s) {r : ℕ} (hr : r < s.next) (signals wait : Bool) :
    WellFormed (startFeedLocked r signals wait s) := by
  obtain ⟨-, heq⟩ | ⟨-, -, -, heq⟩ := startFeedLocked_cases r signals wait s
  · rwa [heq]
  · rw [heq]
    exact h.update hr rfl

lemma WellFormed.addReg (h : WellFormed s) (rf : Registration) : WellFormed (s.addReg rf) where
  fresh i hi := by
    have hne : i ≠ s.next := by
      rintro rfl
      exact absurd hi (by simp [State.addReg])
    simpa [State.addReg, hne] using h.fresh i ((Nat.le_succ _).trans hi)
  feeds name i hi := by
    simp only [State.addReg] at hi ⊢
    by_cases hname : name = rf.config.name
    · subst hname
      obtain rfl : s.next = i := by simpa using hi
      refine ⟨Nat.lt_succ_self _, by simp, ?_⟩
      split_ifs with hmem
      · exact hmem
      · simp
    · rw [Function.update_of_ne hname] at hi
      obtain ⟨hlt, hconfig, hmem⟩ := h.feeds name i hi
      refine ⟨hlt.trans (Nat.lt_succ_self _), by simpa [hlt.ne] using hconfig, ?_⟩
      split_ifs
      · exact hmem
      · exact List.mem_append_left _ hmem
  nodup := by
    simp only [State.addReg]
    split_ifs with hmem
    · exact h.nodup
    · exact h.nodup.append (List.nodup_singleton _) (by simpa using hmem)

lemma WellFormed.cancelOld (h : WellFormed s) (config : FeedConfig) : WellFormed (cancelOld config s) := by
  unfold FeedManager.cancelOld
  cases hold : s.feeds config.name with
  | none => exact h
  | some old =>
    dsimp only
    split_ifs
    · exact h.update (h.feeds _ _ hold).1 rfl
    · exact h

lemma cancelOld_next (config : FeedConfig) (s : State) : (cancelOld config s).next = s.next := by
  unfold cancelOld
  split
  · split_ifs <;> rfl
  · rfl

lemma WellFormed.replaced (h : WellFormed s) (config : FeedConfig) : WellFormed (replaced config s) :=
  (h.cancelOld config).addReg _

lemma lt_next_replaced (config : FeedConfig) (s : State) : s.next < (replaced config s).next := by
  simp [replaced, State.addReg, cancelOld_next]

lemma WellFormed.applyConfig (h : WellFormed s) (config : FeedConfig) : WellFormed (applyConfig config s) := by
  have hreplaced := h.replaced config
  have hlt := lt_next_replaced config s
  unfold FeedManager.applyConfig
  split_ifs
  · split
    · exact hreplaced.update hlt rfl
    · exact hreplaced.startFeedLocked hlt _ _
  · exact hreplaced

lemma WellFormed.handoverStart (h : WellFormed s) {r : ℕ} (hr : r < s.next) :
    WellFormed (handoverStart r s) := by
  have hrelease : ∀ startAfter, WellFormed (s.release r startAfter) := fun _ => h.update hr rfl
  obtain ⟨-, heq⟩ | ⟨-, heq⟩ := handoverStart_cases r s <;> rw [heq]
  · exact hrelease _
  · exact (hrelease none).startFeedLocked hr _ _

lemma handover_waiting_lt (h : WellFormed s) {r p : ℕ} (hwaiting : (s.reg r).handover = .waiting p) :
    r < s.next := by
  by_contra hle
  rw [(h.fresh r (not_lt.1 hle)).2] at hwaiting
  cases hwaiting

lemma isRunning_lt (h : WellFormed s) {r : ℕ} (hrunning : (s.reg r).loop.isRunning = true) : r < s.next := by
  by_contra hle
  rw [(h.fresh r (not_lt.1 hle)).1] at hrunning
  cases hrunning

/-- The registration before, as the call that replaces it leaves it. -/
lemma cancelOld_reg (config : FeedConfig) (s : State) (r : ℕ) :
    (cancelOld config s).reg r = s.reg r ∨
      s.feeds config.name = some r ∧ (s.reg r).cancel = true ∧
        (cancelOld config s).reg r = { s.reg r with cancelled := true } := by
  unfold cancelOld
  cases hold : s.feeds config.name with
  | none => exact .inl rfl
  | some old =>
    dsimp only
    split_ifs with hcancel
    · by_cases hr : r = old
      · subst hr
        exact .inr ⟨rfl, hcancel, by simp⟩
      · exact .inl (modifyReg_reg_of_ne s hr _)
    · exact .inl rfl

lemma cancelOld_feeds (config : FeedConfig) (s : State) : (cancelOld config s).feeds = s.feeds := by
  unfold cancelOld
  split
  · split_ifs <;> rfl
  · rfl

lemma cancelOld_ctxDone (config : FeedConfig) (s : State) : (cancelOld config s).ctxDone = s.ctxDone := by
  unfold cancelOld
  split
  · split_ifs <;> rfl
  · rfl

lemma cancelOld_started (config : FeedConfig) (s : State) : (cancelOld config s).started = s.started := by
  unfold cancelOld
  split
  · split_ifs <;> rfl
  · rfl

lemma cancelOld_start (config : FeedConfig) (s : State) : (cancelOld config s).start = s.start := by
  unfold cancelOld
  split
  · split_ifs <;> rfl
  · rfl

lemma cancelOld_collector (config : FeedConfig) (s : State) : (cancelOld config s).collector = s.collector := by
  unfold cancelOld
  split
  · split_ifs <;> rfl
  · rfl

/-- A registration is replaced, and its loop is started, handed over or left alone. -/
lemma applyConfig_cases (config : FeedConfig) (s : State) :
    ((s.started = false ∨ managerFeedShouldRun config = false ∨ s.ctxDone = true) ∧
      applyConfig config s = replaced config s) ∨
    s.started = true ∧ managerFeedShouldRun config = true ∧ s.ctxDone = false ∧
      ((∃ p, previousDone config s = some p ∧ applyConfig config s =
          (replaced config s).modifyReg s.next fun rf => { rf with handover := .waiting p }) ∨
        previousDone config s = none ∧ applyConfig config s =
          startFeedLocked s.next false (feedPhase config = .enrichment) (replaced config s)) := by
  unfold applyConfig
  cases hstarted : s.started <;> cases hrun : managerFeedShouldRun config <;> cases hctx : s.ctxDone <;>
    cases hprevious : previousDone config s <;> simp

/-- A call that replaces a registration does not concern `Start` and its collector. -/
lemma applyConfig_frame (config : FeedConfig) (s : State) :
    (applyConfig config s).start = s.start ∧ (applyConfig config s).collector = s.collector ∧
      (applyConfig config s).next = s.next + 1 := by
  have hreplaced : (replaced config s).start = s.start ∧ (replaced config s).collector = s.collector ∧
      (replaced config s).next = s.next + 1 :=
    ⟨cancelOld_start config s, cancelOld_collector config s, by simp [replaced, State.addReg, cancelOld_next]⟩
  obtain ⟨-, heq⟩ | ⟨-, -, -, ⟨p, -, heq⟩ | ⟨-, heq⟩⟩ := applyConfig_cases config s <;> rw [heq]
  · exact hreplaced
  · exact hreplaced
  · simpa using hreplaced

lemma handoverStart_frame (r : ℕ) (s : State) :
    (handoverStart r s).start = s.start ∧ (handoverStart r s).collector = s.collector ∧
      (handoverStart r s).next = s.next ∧ (handoverStart r s).feeds = s.feeds := by
  obtain ⟨-, heq⟩ | ⟨-, heq⟩ := handoverStart_cases r s <;> rw [heq]
  · exact ⟨rfl, rfl, rfl, rfl⟩
  · simp [State.release, State.modifyReg]

/-! ## Launches -/

/-- What holds of the launch and the end of loops all along. -/
structure LaunchInv (s : State) : Prop where
  /-- A loop that was told to stop is not the current one of its feed. -/
  current : ∀ r, (s.reg r).cancelled = true → s.feeds (s.reg r).config.name ≠ some r
  /-- A loop ends only when it was told to stop. -/
  ending : ∀ r, (s.reg r).loop.isEnding = true → s.ctxDone = true ∨ (s.reg r).cancelled = true
  /-- Before the context is cancelled, a loop without a cancel function was not launched. -/
  cancel : s.ctxDone = false → ∀ r, (s.reg r).cancel = false → (s.reg r).loop = .notStarted
  signals : ∀ r, (s.reg r).signals = true → (s.reg r).loop ≠ .notStarted

lemma launchInv_init : LaunchInv .init where
  current _ h := by cases h
  ending _ h := by cases h
  cancel _ _ _ := rfl
  signals _ h := by cases h

lemma LaunchInv.congr (h : LaunchInv s) (hreg : s'.reg = s.reg) (hfeeds : s'.feeds = s.feeds)
    (hctx : s'.ctxDone = s.ctxDone) : LaunchInv s' where
  current := by rw [hreg, hfeeds]; exact h.current
  ending := by rw [hreg, hctx]; exact h.ending
  cancel := by rw [hreg, hctx]; exact h.cancel
  signals := by rw [hreg]; exact h.signals

lemma LaunchInv.update (h : LaunchInv s) {r : ℕ} {rf : Registration}
    (hcurrent : rf.cancelled = true → s.feeds rf.config.name ≠ some r)
    (hending : rf.loop.isEnding = true → s.ctxDone = true ∨ rf.cancelled = true)
    (hcancel : s.ctxDone = false → rf.cancel = false → rf.loop = .notStarted)
    (hsignals : rf.signals = true → rf.loop ≠ .notStarted) :
    LaunchInv { s with reg := Function.update s.reg r rf } where
  current i := by
    by_cases hi : i = r
    · subst hi
      simpa using hcurrent
    · simpa [hi] using h.current i
  ending i := by
    by_cases hi : i = r
    · subst hi
      simpa using hending
    · simpa [hi] using h.ending i
  cancel hctx i := by
    by_cases hi : i = r
    · subst hi
      simpa using hcancel hctx
    · simpa [hi] using h.cancel hctx i
  signals i := by
    by_cases hi : i = r
    · subst hi
      simpa using hsignals
    · simpa [hi] using h.signals i

/-- A change that does not concern the launch. -/
lemma LaunchInv.modifyReg (h : LaunchInv s) (r : ℕ) {change : Registration → Registration}
    (hkeep : ∀ rf, (change rf).config = rf.config ∧ (change rf).cancelled = rf.cancelled ∧
      (change rf).cancel = rf.cancel ∧ (change rf).signals = rf.signals ∧ (change rf).loop = rf.loop) :
    LaunchInv (s.modifyReg r change) := by
  obtain ⟨hconfig, hcancelled, hcancel, hsignals, hloop⟩ := hkeep (s.reg r)
  refine h.update ?_ ?_ ?_ ?_
  · rw [hconfig, hcancelled]
    exact h.current r
  · rw [hloop, hcancelled]
    exact h.ending r
  · rw [hcancel, hloop]
    exact fun hctx => h.cancel hctx r
  · rw [hsignals, hloop]
    exact h.signals r

lemma LaunchInv.startFeedLocked (h : LaunchInv s) (r : ℕ) (signals wait : Bool) :
    LaunchInv (startFeedLocked r signals wait s) := by
  obtain ⟨-, heq⟩ | ⟨-, -, -, heq⟩ := startFeedLocked_cases r signals wait s
  · rwa [heq]
  · rw [heq]
    refine h.update (h.current r) ?_ (fun _ hcancel => by cases hcancel) fun _ => ?_
    · cases wait <;> simp
    · cases wait <;> simp

/-- A new registration takes the place of one that may have been told to stop. -/
lemma LaunchInv.addReg {rf : Registration} (hfresh : rf.cancelled = false ∧ rf.loop = .notStarted ∧ rf.signals = false)
    (hcurrent : ∀ r, (s.reg r).cancelled = true →
      s.feeds (s.reg r).config.name ≠ some r ∨ (s.reg r).config.name = rf.config.name)
    (hending : ∀ r, (s.reg r).loop.isEnding = true → s.ctxDone = true ∨ (s.reg r).cancelled = true)
    (hcancel : s.ctxDone = false → ∀ r, (s.reg r).cancel = false → (s.reg r).loop = .notStarted)
    (hsignals : ∀ r, (s.reg r).signals = true → (s.reg r).loop ≠ .notStarted) : LaunchInv (s.addReg rf) where
  current r := by
    by_cases hr : r = s.next
    · simp [State.addReg, hr, hfresh.1]
    · intro hcancelled
      simp only [State.addReg, Function.update_of_ne hr] at hcancelled ⊢
      by_cases hname : (s.reg r).config.name = rf.config.name
      · simp [hname, Ne.symm hr]
      · rw [Function.update_of_ne hname]
        exact (hcurrent r hcancelled).resolve_right hname
  ending r := by
    by_cases hr : r = s.next
    · simp [State.addReg, hr, hfresh.2.1]
    · simpa [State.addReg, hr] using hending r
  cancel hctx r := by
    by_cases hr : r = s.next
    · simp [State.addReg, hr, hfresh.2.1]
    · simpa [State.addReg, hr] using hcancel hctx r
  signals r := by
    by_cases hr : r = s.next
    · simp [State.addReg, hr, hfresh.2.2]
    · simpa [State.addReg, hr] using hsignals r

lemma LaunchInv.replaced (h : LaunchInv s) (hw : WellFormed s) (config : FeedConfig) :
    LaunchInv (replaced config s) := by
  refine LaunchInv.addReg ⟨rfl, rfl, rfl⟩ (fun r => ?_) (fun r => ?_) (fun hctx r => ?_) fun r => ?_
  · rw [cancelOld_feeds]
    obtain heq | ⟨hold, -, heq⟩ := cancelOld_reg config s r <;> rw [heq]
    · exact fun hcancelled => .inl (h.current r hcancelled)
    · exact fun _ => .inr (hw.feeds _ _ hold).2.1
  · rw [cancelOld_ctxDone]
    obtain heq | ⟨-, -, heq⟩ := cancelOld_reg config s r <;> rw [heq]
    · exact h.ending r
    · exact fun _ => .inr rfl
  · rw [cancelOld_ctxDone] at hctx
    obtain heq | ⟨-, -, heq⟩ := cancelOld_reg config s r <;> rw [heq] <;> exact h.cancel hctx r
  · obtain heq | ⟨-, -, heq⟩ := cancelOld_reg config s r <;> rw [heq] <;> exact h.signals r

lemma LaunchInv.applyConfig (h : LaunchInv s) (hw : WellFormed s) (config : FeedConfig) :
    LaunchInv (applyConfig config s) := by
  have hreplaced := h.replaced hw config
  obtain ⟨-, heq⟩ | ⟨-, -, -, ⟨p, -, heq⟩ | ⟨-, heq⟩⟩ := applyConfig_cases config s <;> rw [heq]
  · exact hreplaced
  · exact hreplaced.modifyReg _ fun rf => ⟨rfl, rfl, rfl, rfl, rfl⟩
  · exact hreplaced.startFeedLocked _ _ _

lemma LaunchInv.release (h : LaunchInv s) (r : ℕ) (startAfter : Option ℕ) : LaunchInv (s.release r startAfter) :=
  h.modifyReg r fun _ => ⟨rfl, rfl, rfl, rfl, rfl⟩

lemma LaunchInv.handoverStart (h : LaunchInv s) (r : ℕ) : LaunchInv (handoverStart r s) := by
  obtain ⟨-, heq⟩ | ⟨-, heq⟩ := handoverStart_cases r s <;> rw [heq]
  · exact h.release r _
  · exact (h.release r none).startFeedLocked _ _ _

lemma LaunchInv.loopStep (h : LaunchInv s) {r : ℕ} {action : LoopAction} (hstep : loopStep r action s = some s') :
    LaunchInv s' := by
  obtain ⟨rf, lock, rfl, heffect⟩ := loopStep_effect hstep
  have hending : rf.loop.isEnding = true → s.ctxDone = true ∨ rf.cancelled = true := by
    intro hend
    rw [heffect.cancelled]
    rcases heffect.ending hend with hwas | hdone
    · exact h.ending r hwas
    · simpa [State.feedCtxDone] using hdone
  refine (h.update ?_ hending ?_ fun _ => heffect.isStarted).congr rfl rfl rfl
  · rw [heffect.cancelled, heffect.config]
    exact h.current r
  · -- The cancel function of a current loop is cleared at its end, so the context is cancelled.
    intro hctx hcancel
    rcases heffect.cancel with heq | ⟨-, hcurrent, hloop, -⟩
    · have hnot := h.cancel hctx r (heq ▸ hcancel)
      have hrunning := heffect.wasRunning
      simp [hnot] at hrunning
    · have hend := h.ending r (by simp [hloop])
      rw [hctx] at hend
      exact absurd hcurrent (h.current r (by simpa using hend))

lemma LaunchInv.step (h : LaunchInv s) (hw : WellFormed s) {action : Action} (hstep : step action s = some s') :
    LaunchInv s' := by
  cases step_effect hstep with
  | cancelContext => exact ⟨h.current, fun _ _ => .inl rfl, fun hctx => by simp at hctx, h.signals⟩
  | register config =>
    exact .addReg ⟨rfl, rfl, rfl⟩ (fun r hcancelled => .inl (h.current r hcancelled)) h.ending h.cancel h.signals
  | applyConfig config => exact h.applyConfig hw config
  | firstAsk => exact (h.startFeedLocked _ true false).congr rfl rfl rfl
  | secondAsk => exact (h.startFeedLocked _ false true).congr rfl rfl rfl
  | loop => exact h.loopStep hstep
  | handoverStart => exact h.handoverStart _
  | handoverQuit => exact h.modifyReg _ fun rf => ⟨rfl, rfl, rfl, rfl, rfl⟩
  | _ => exact h.congr rfl rfl rfl

lemma WellFormed.step (h : WellFormed s) {action : Action} (hstep : step action s = some s') :
    WellFormed s' := by
  cases step_effect hstep with
  | register config => exact h.addReg _
  | applyConfig config => exact h.applyConfig config
  | firstAsk hstart hfeeds =>
    exact (h.startFeedLocked (h.feeds _ _ hfeeds).1 true false).congr rfl rfl rfl rfl
  | secondAsk hstart hfeeds =>
    exact (h.startFeedLocked (h.feeds _ _ hfeeds).1 false true).congr rfl rfl rfl rfl
  | loop lock heffect =>
    exact (h.update (isRunning_lt h heffect.wasRunning) heffect.config).congr rfl rfl rfl rfl
  | handoverStart hwaiting => exact h.handoverStart (handover_waiting_lt h hwaiting)
  | handoverQuit hwaiting => exact h.update (handover_waiting_lt h hwaiting) rfl
  | _ => exact h.congr rfl rfl rfl rfl

lemma wellFormed_init : WellFormed .init where
  fresh _ _ := ⟨rfl, rfl⟩
  feeds _ _ h := by cases h
  nodup := List.nodup_nil

end Packmon.FeedManager

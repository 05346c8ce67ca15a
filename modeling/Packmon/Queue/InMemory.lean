import Packmon.Feed.Egress

/-!
# The refresh queue of the in-memory store

Jobs wait in a list and go through the statuses pending, processing, paused, done and error.  Enqueueing
looks for an active job of the same package and source and creates a job where there is none.

A job that is done can be retried, and a retry does not look for an active job of the package; nor does
the search know that two names are one package.  `deduplicated_iff` says in which runs at most one job of a
package and a source is active.
-/

namespace Packmon.Queue

open GoText
open Feed (RefreshStatus)

/-- A job of the queue; times are in nanoseconds. -/
structure RefreshJob where
  id : ℤ
  ecosystem : String
  name : String
  source : String
  priority : ℤ
  status : RefreshStatus
  requestedAt : ℤ
  processedAt : Option ℤ
  error : String
  deriving DecidableEq

structure QueueStore where
  jobs : List RefreshJob
  nextJobID : ℤ
  deriving DecidableEq

def QueueStore.empty : QueueStore := ⟨[], 0⟩

/-! ## Statuses -/

def normalizeRefreshStatus (raw : String) : Option RefreshStatus :=
  match toLower (trimSpace raw) with
  | "pending" => some .pending
  | "processing" => some .processing
  | "paused" => some .paused
  | "done" => some .done
  | "error" => some .error
  | _ => none

def isDrainableRefreshStatus (status : RefreshStatus) : Bool :=
  status = .pending || status = .processing

def isTerminalRefreshStatus (status : RefreshStatus) : Bool :=
  status = .done || status = .error

def canClearRefreshStatus (status : RefreshStatus) : Bool :=
  status = .pending || status = .paused || isTerminalRefreshStatus status

def canRetryRefreshStatus (status : RefreshStatus) : Bool :=
  status = .done || status = .error || status = .paused

def normalizeClearableRefreshStatuses (statuses : List String) : List RefreshStatus :=
  (statuses.filterMap normalizeRefreshStatus).filter canClearRefreshStatus

/-! ## Enqueueing -/

/-- A job as it is given to the queue. -/
structure NewRefreshJob where
  ecosystem : String
  name : String
  source : String
  priority : ℤ
  status : String
  processedAt : Option ℤ
  error : String

/-- A status that is absent or unknown is pending. -/
def NewRefreshJob.initialStatus (job : NewRefreshJob) : RefreshStatus :=
  (normalizeRefreshStatus job.status).getD .pending

/-- An active job has the package and the source of the new one, to the letter. -/
def NewRefreshJob.isQueuedAs (job : NewRefreshJob) (existing : RefreshJob) : Bool :=
  existing.ecosystem = job.ecosystem && existing.name = job.name && existing.source = job.source &&
    existing.status.isActive

def RefreshJob.isBefore (a b : RefreshJob) : Bool :=
  if a.priority ≠ b.priority then a.priority < b.priority
  else if a.requestedAt ≠ b.requestedAt then a.requestedAt < b.requestedAt
  else a.id < b.id

def queuePositionLocked (id : ℤ) (jobs : List RefreshJob) : ℕ :=
  match jobs.find? (·.id = id) with
  | none => 0
  | some target =>
    if !isDrainableRefreshStatus target.status then 0
    else 1 + jobs.countP fun job =>
      isDrainableRefreshStatus job.status && job.source = target.source && job.id ≠ target.id &&
        job.isBefore target

/-- Whether a job was created, its position, and the queue. -/
def enqueueRefreshLocked (now : ℤ) (job : NewRefreshJob) (s : QueueStore) : (Bool × ℕ) × QueueStore :=
  match s.jobs.findIdx? job.isQueuedAs with
  | some i =>
    let jobs := s.jobs.modify i fun existing =>
      { existing with priority := min existing.priority job.priority }
    ((false, (jobs[i]?.map fun existing => queuePositionLocked existing.id jobs).getD 0), { s with jobs })
  | none =>
    let id := s.nextJobID + 1
    let jobs := s.jobs ++ [⟨id, job.ecosystem, job.name, job.source, job.priority, job.initialStatus, now,
      job.processedAt, job.error⟩]
    ((true, queuePositionLocked id jobs), ⟨jobs, id⟩)

/-- How the audit row of an operation is written, if the operation writes one. -/
inductive AuditWrite where
  | absent
  | written
  | failed
  deriving DecidableEq

/-- The job stays even where its audit row could not be written. -/
def enqueueRefresh (now : ℤ) (job : NewRefreshJob) (audit : AuditWrite) (s : QueueStore) :
    Except String (Bool × ℕ) × QueueStore :=
  let (result, s) := enqueueRefreshLocked now job s
  (if audit = .failed then .error "write admin audit log" else .ok result, s)

/-! ## Workers -/

def RefreshJob.isPendingOf (source : String) (job : RefreshJob) : Bool :=
  job.status = .pending && (source = "" || job.source = source)

/-- Whether a job is taken before the best one so far. -/
def RefreshJob.isBetter (job best : RefreshJob) : Bool :=
  job.priority < best.priority || (job.priority = best.priority && job.requestedAt < best.requestedAt)

def betterOf (source : String) (best : Option (RefreshJob × ℕ)) (entry : RefreshJob × ℕ) :
    Option (RefreshJob × ℕ) :=
  if entry.1.isPendingOf source && best.all (fun other => entry.1.isBetter other.1) then some entry else best

/-- The position of the job that is taken next. -/
def bestIndex (source : String) (jobs : List RefreshJob) : Option ℕ :=
  (jobs.zipIdx.foldl (betterOf source) none).map Prod.snd

def RefreshJob.claim (now : ℤ) (job : RefreshJob) : RefreshJob :=
  { job with status := .processing, processedAt := some now }

def dequeueRefresh (now : ℤ) (source : String) (s : QueueStore) : Option RefreshJob × QueueStore :=
  match bestIndex source s.jobs with
  | none => (none, s)
  | some i =>
    let jobs := s.jobs.modify i (RefreshJob.claim now)
    (jobs[i]?, { s with jobs })

/-- The text of an error is given as it is stored. -/
def completeRefreshJob (now : ℤ) (jobErr : Option String) (job : RefreshJob) : RefreshJob :=
  match jobErr with
  | some text => { job with processedAt := some now, status := .error, error := text }
  | none => { job with processedAt := some now, status := .done, error := "" }

/-- The first job with an id is changed. -/
def changeJob (id : ℤ) (change : RefreshJob → RefreshJob) (s : QueueStore) : QueueStore :=
  match s.jobs.findIdx? (·.id = id) with
  | none => s
  | some i => { s with jobs := s.jobs.modify i change }

def completeRefresh (now : ℤ) (id : ℤ) (jobErr : Option String) : QueueStore → QueueStore :=
  changeJob id (completeRefreshJob now jobErr)

/-- The job is still processing under the claim. -/
def RefreshJob.isClaimedAt (claimedAt : ℤ) (job : RefreshJob) : Bool :=
  job.status = .processing && job.processedAt = some claimedAt

def completeClaimedRefresh (now : ℤ) (id : ℤ) (claimedAt : Option ℤ) (jobErr : Option String)
    (s : QueueStore) : Except String QueueStore :=
  match claimedAt with
  | none => .error ("queue job " ++ toString id ++ " missing claim timestamp")
  | some claimedAt =>
    .ok <| changeJob id (fun job =>
      if job.isClaimedAt claimedAt then completeRefreshJob now jobErr job else job) s

/-- The job waits again. -/
def RefreshJob.release (job : RefreshJob) : RefreshJob :=
  { job with status := .pending, processedAt := none, error := "" }

def RefreshJob.isStuck (now : ℤ) (source : String) (threshold : ℤ) (job : RefreshJob) : Bool :=
  job.status = .processing && (source = "" || job.source = source) &&
    job.processedAt.any fun processedAt => threshold < now - processedAt

def resetStuckJobs (now : ℤ) (source : String) (threshold : ℤ) (s : QueueStore) : ℕ × QueueStore :=
  (s.jobs.countP (·.isStuck now source threshold),
    { s with jobs := s.jobs.map fun job => if job.isStuck now source threshold then job.release else job })

/-! ## Administration -/

/-- The first job with an id is looked up and its status is checked; it is changed once the audit row is
written. -/
def changeChecked (id : ℤ) (allowed : RefreshStatus → Bool) (complaint : String) (audit : AuditWrite)
    (change : RefreshJob → RefreshJob) (s : QueueStore) : Except String QueueStore :=
  match s.jobs.find? (·.id = id) with
  | none => .error ("queue job " ++ toString id ++ " not found")
  | some job =>
    if !allowed job.status then .error ("queue job " ++ toString id ++ complaint)
    else if audit = .failed then .error "write admin audit log"
    else .ok (changeJob id change s)

def updateQueueJobPriority (id : ℤ) (priority : ℤ) (audit : AuditWrite) :
    QueueStore → Except String QueueStore :=
  changeChecked id (fun _ => true) "" audit fun job => { job with priority }

def retryQueueJob (now : ℤ) (id : ℤ) (audit : AuditWrite) : QueueStore → Except String QueueStore :=
  changeChecked id canRetryRefreshStatus " is not retryable" audit fun job =>
    { job.release with requestedAt := now }

def pauseQueueJob (id : ℤ) (audit : AuditWrite) : QueueStore → Except String QueueStore :=
  changeChecked id (· = .pending) " is not pending" audit fun job => { job with status := .paused }

def resumeQueueJob (id : ℤ) (audit : AuditWrite) : QueueStore → Except String QueueStore :=
  changeChecked id (· = .paused) " is not paused" audit RefreshJob.release

/-- The jobs are removed once the audit row is written; the result counts them. -/
def removeJobs (audit : AuditWrite) (removed : RefreshJob → Bool) (s : QueueStore) :
    Except String (ℕ × QueueStore) :=
  if audit = .failed then .error "write admin audit log"
  else .ok (s.jobs.countP removed, { s with jobs := s.jobs.filter fun job => !removed job })

def clearQueue (statuses : List String) (audit : AuditWrite) :
    QueueStore → Except String (ℕ × QueueStore) :=
  removeJobs audit fun job => job.status ∈ normalizeClearableRefreshStatuses statuses

def purgeQueue (audit : AuditWrite) : QueueStore → Except String (ℕ × QueueStore) :=
  removeJobs audit fun job => isTerminalRefreshStatus job.status

def refreshQueueTerminalTime (job : RefreshJob) : ℤ := job.processedAt.getD job.requestedAt

def pruneRefreshQueue (now retention : ℤ) (s : QueueStore) : Except String (ℕ × QueueStore) :=
  if retention ≤ 0 then .ok (0, s)
  else removeJobs .absent (fun job =>
    isTerminalRefreshStatus job.status && refreshQueueTerminalTime job < now - retention) s

/-! ## Runs -/

inductive QueueOp where
  | enqueue (now : ℤ) (job : NewRefreshJob) (audit : AuditWrite)
  | dequeue (now : ℤ) (source : String)
  | complete (now : ℤ) (id : ℤ) (jobErr : Option String)
  | completeClaimed (now : ℤ) (id : ℤ) (claimedAt : Option ℤ) (jobErr : Option String)
  | resetStuck (now : ℤ) (source : String) (threshold : ℤ)
  | updatePriority (id : ℤ) (priority : ℤ) (audit : AuditWrite)
  | retry (now : ℤ) (id : ℤ) (audit : AuditWrite)
  | pause (id : ℤ) (audit : AuditWrite)
  | resume (id : ℤ) (audit : AuditWrite)
  | clear (statuses : List String) (audit : AuditWrite)
  | purge (audit : AuditWrite)
  | prune (now retention : ℤ)

/-- What an operation that may fail leaves behind. -/
def orSame (s : QueueStore) (result : Except String QueueStore) : QueueStore := result.toOption.getD s

def queueStep (s : QueueStore) : QueueOp → QueueStore
  | .enqueue now job audit => (enqueueRefresh now job audit s).2
  | .dequeue now source => (dequeueRefresh now source s).2
  | .complete now id jobErr => completeRefresh now id jobErr s
  | .completeClaimed now id claimedAt jobErr => orSame s (completeClaimedRefresh now id claimedAt jobErr s)
  | .resetStuck now source threshold => (resetStuckJobs now source threshold s).2
  | .updatePriority id priority audit => orSame s (updateQueueJobPriority id priority audit s)
  | .retry now id audit => orSame s (retryQueueJob now id audit s)
  | .pause id audit => orSame s (pauseQueueJob id audit s)
  | .resume id audit => orSame s (resumeQueueJob id audit s)
  | .clear statuses audit => orSame s ((clearQueue statuses audit s).map Prod.snd)
  | .purge audit => orSame s ((purgeQueue audit s).map Prod.snd)
  | .prune now retention => orSame s ((pruneRefreshQueue now retention s).map Prod.snd)

def queueRun (ops : List QueueOp) : QueueStore := ops.foldl queueStep .empty

/-! ## Active jobs -/

/-- The package of a job, by its canonical name, and its source. -/
def RefreshJob.key (job : RefreshJob) : String × String × String :=
  (job.ecosystem, normalizePackageName job.ecosystem job.name, job.source)

def NewRefreshJob.key (job : NewRefreshJob) : String × String × String :=
  (job.ecosystem, normalizePackageName job.ecosystem job.name, job.source)

def activeKeys (jobs : List RefreshJob) : List (String × String × String) :=
  (jobs.filter (·.status.isActive)).map RefreshJob.key

/-- At most one job of a package and a source is pending, processing or paused. -/
def Deduplicated (s : QueueStore) : Prop := (activeKeys s.jobs).Nodup

instance (s : QueueStore) : Decidable (Deduplicated s) := inferInstanceAs (Decidable (List.Nodup _))

/-- The operation makes a second active job: a new one under another spelling of a name that is active, or
a finished one that is retried. -/
def Duplicates (s : QueueStore) : QueueOp → Prop
  | .enqueue _ job _ => job.initialStatus.isActive = true ∧ (∀ existing ∈ s.jobs, ¬ job.isQueuedAs existing) ∧
      job.key ∈ activeKeys s.jobs
  | .retry _ id audit => audit ≠ .failed ∧ ∃ job, s.jobs.find? (·.id = id) = some job ∧
      isTerminalRefreshStatus job.status = true ∧ job.key ∈ activeKeys s.jobs
  | _ => False

@[simp] lemma activeKeys_append (jobs others : List RefreshJob) :
    activeKeys (jobs ++ others) = activeKeys jobs ++ activeKeys others := by
  simp [activeKeys]

lemma activeKeys_cons (job : RefreshJob) (jobs : List RefreshJob) :
    activeKeys (job :: jobs) = (if job.status.isActive then [job.key] else []) ++ activeKeys jobs := by
  by_cases h : job.status.isActive <;> simp [activeKeys, h]

/-- The change keeps the package and the source and makes no job active. -/
def KeepsInactive (change : RefreshJob → RefreshJob) (job : RefreshJob) : Prop :=
  (change job).key = job.key ∧ ((change job).status.isActive = true → job.status.isActive = true)

lemma KeepsInactive.sublist {change : RefreshJob → RefreshJob} {job : RefreshJob}
    (h : KeepsInactive change job) (jobs others : List RefreshJob)
    (hjobs : (activeKeys jobs).Sublist (activeKeys others)) :
    (activeKeys (change job :: jobs)).Sublist (activeKeys (job :: others)) := by
  rw [activeKeys_cons, activeKeys_cons]
  refine List.Sublist.append ?_ hjobs
  by_cases hactive : (change job).status.isActive = true
  · rw [if_pos hactive, if_pos (h.2 hactive), h.1]
  · rw [if_neg hactive]
    exact List.nil_sublist _

lemma activeKeys_modify {change : RefreshJob → RefreshJob} {jobs : List RefreshJob} {i : ℕ}
    (h : ∀ job, jobs[i]? = some job → KeepsInactive change job) :
    (activeKeys (jobs.modify i change)).Sublist (activeKeys jobs) := by
  induction jobs generalizing i with
  | nil => simp
  | cons job jobs ih =>
    cases i with
    | zero => exact (h job rfl).sublist jobs jobs (List.Sublist.refl _)
    | succ i =>
      have hkeep : KeepsInactive id job := ⟨rfl, fun hactive => hactive⟩
      exact hkeep.sublist _ _ (ih fun other hother => h other hother)

lemma activeKeys_map {change : RefreshJob → RefreshJob} (h : ∀ job, KeepsInactive change job)
    (jobs : List RefreshJob) : (activeKeys (jobs.map change)).Sublist (activeKeys jobs) := by
  induction jobs with
  | nil => simp
  | cons job jobs ih => exact (h job).sublist _ _ ih

lemma activeKeys_filter (p : RefreshJob → Bool) (jobs : List RefreshJob) :
    (activeKeys (jobs.filter p)).Sublist (activeKeys jobs) :=
  ((List.filter_sublist (p := p)).filter _).map _

/-! ## What an operation changes -/

lemma find?_of_findIdx? {p : RefreshJob → Bool} {jobs : List RefreshJob} {i : ℕ}
    (h : jobs.findIdx? p = some i) : ∃ job, jobs[i]? = some job ∧ jobs.find? p = some job := by
  obtain ⟨hlt, hp, hfirst⟩ := List.findIdx?_eq_some_iff_getElem.1 h
  refine ⟨jobs[i], List.getElem?_eq_getElem hlt, List.find?_eq_some_iff_getElem.2 ⟨hp, i, hlt, rfl, ?_⟩⟩
  intro j hj
  simpa using hfirst j hj

lemma changeJob_cases (id : ℤ) (change : RefreshJob → RefreshJob) (s : QueueStore) :
    (s.jobs.find? (·.id = id) = none ∧ changeJob id change s = s) ∨
    ∃ i job, s.jobs.find? (·.id = id) = some job ∧ s.jobs[i]? = some job ∧
      changeJob id change s = { s with jobs := s.jobs.modify i change } := by
  cases hi : s.jobs.findIdx? (·.id = id) with
  | none =>
    refine .inl ⟨?_, by rw [changeJob, hi]⟩
    rw [List.findIdx?_eq_none_iff] at hi
    exact List.find?_eq_none.2 fun job hjob => by simpa using hi job hjob
  | some i =>
    obtain ⟨job, hget, hfind⟩ := find?_of_findIdx? hi
    exact .inr ⟨i, job, hfind, hget, by rw [changeJob, hi]⟩

/-- A checked change fails and changes nothing, or it changes a job that passes the check. -/
lemma changeChecked_cases (id : ℤ) (allowed : RefreshStatus → Bool) (complaint : String) (audit : AuditWrite)
    (change : RefreshJob → RefreshJob) (s : QueueStore) :
    (orSame s (changeChecked id allowed complaint audit change s) = s ∧
      ∀ job, s.jobs.find? (·.id = id) = some job → allowed job.status = true → audit = .failed) ∨
    ∃ i job, s.jobs.find? (·.id = id) = some job ∧ s.jobs[i]? = some job ∧ allowed job.status = true ∧
      audit ≠ .failed ∧
      orSame s (changeChecked id allowed complaint audit change s) =
        { s with jobs := s.jobs.modify i change } := by
  obtain ⟨hfind, -⟩ | ⟨i, job, hfind, hget, hchange⟩ := changeJob_cases id change s
  · left
    simp [changeChecked, hfind, orSame, Except.toOption]
  · by_cases hallowed : allowed job.status = true
    · by_cases haudit : audit = .failed
      · left
        simp [changeChecked, hfind, hallowed, haudit, orSame, Except.toOption]
      · right
        refine ⟨i, job, hfind, hget, hallowed, haudit, ?_⟩
        simp [changeChecked, hfind, hallowed, haudit, hchange, orSame, Except.toOption]
    · left
      simp [changeChecked, hfind, hallowed, orSame, Except.toOption]

lemma Deduplicated.of_sublist {s t : QueueStore} (h : Deduplicated s)
    (hsub : (activeKeys t.jobs).Sublist (activeKeys s.jobs)) : Deduplicated t :=
  List.Nodup.sublist hsub h

lemma Deduplicated.changeJob {s : QueueStore} (h : Deduplicated s) (id : ℤ)
    {change : RefreshJob → RefreshJob} (hchange : ∀ job, KeepsInactive change job) :
    Deduplicated (changeJob id change s) := by
  obtain ⟨-, heq⟩ | ⟨i, job, -, -, heq⟩ := changeJob_cases id change s
  · rwa [heq]
  · rw [heq]
    exact h.of_sublist (activeKeys_modify fun job _ => hchange job)

lemma Deduplicated.changeChecked {s : QueueStore} (h : Deduplicated s) (id : ℤ)
    {allowed : RefreshStatus → Bool} (complaint : String) (audit : AuditWrite)
    {change : RefreshJob → RefreshJob}
    (hchange : ∀ job, allowed job.status = true → KeepsInactive change job) :
    Deduplicated (orSame s (changeChecked id allowed complaint audit change s)) := by
  obtain ⟨heq, -⟩ | ⟨i, job, -, hget, hallowed, -, heq⟩ :=
    changeChecked_cases id allowed complaint audit change s
  · rwa [heq]
  · rw [heq]
    refine h.of_sublist (activeKeys_modify fun other hother => ?_)
    obtain rfl : job = other := Option.some.inj (hget.symm.trans hother)
    exact hchange job hallowed

lemma Deduplicated.removeJobs {s : QueueStore} (h : Deduplicated s) (audit : AuditWrite)
    (removed : RefreshJob → Bool) :
    Deduplicated (orSame s ((removeJobs audit removed s).map Prod.snd)) := by
  unfold Queue.removeJobs
  split_ifs
  · exact h
  · exact h.of_sublist (activeKeys_filter _ _)

lemma keepsInactive_complete (now : ℤ) (jobErr : Option String) (job : RefreshJob) :
    KeepsInactive (completeRefreshJob now jobErr) job := by
  cases jobErr <;> simp [KeepsInactive, completeRefreshJob, RefreshJob.key, RefreshStatus.isActive]

/-- A job that was processing or paused stays active when it waits again. -/
lemma keepsInactive_release {job : RefreshJob} (h : job.status.isActive = true) :
    KeepsInactive RefreshJob.release job :=
  ⟨rfl, fun _ => h⟩

/-- An entry of the list that passes the test. -/
def IsPendingEntry (source : String) (jobs : List RefreshJob) (entry : RefreshJob × ℕ) : Prop :=
  jobs[entry.2]? = some entry.1 ∧ entry.1.isPendingOf source = true

lemma foldl_betterOf {source : String} {jobs : List RefreshJob} :
    ∀ (entries : List (RefreshJob × ℕ)) (best : Option (RefreshJob × ℕ)),
      (∀ entry ∈ entries, jobs[entry.2]? = some entry.1) → (∀ entry ∈ best, IsPendingEntry source jobs entry) →
      ∀ entry ∈ entries.foldl (betterOf source) best, IsPendingEntry source jobs entry
  | [], _, _, hbest => hbest
  | entry :: entries, best, hentries, hbest => by
    refine foldl_betterOf entries (betterOf source best entry)
      (fun other hother => hentries other (List.mem_cons_of_mem _ hother)) ?_
    intro other hother
    unfold betterOf at hother
    split_ifs at hother with htest
    · obtain rfl : entry = other := Option.some.inj hother
      exact ⟨hentries entry List.mem_cons_self, (Bool.and_eq_true _ _ ▸ htest).1⟩
    · exact hbest other hother

lemma bestIndex_isPending {source : String} {jobs : List RefreshJob} {i : ℕ}
    (h : bestIndex source jobs = some i) : ∃ job, jobs[i]? = some job ∧ job.isPendingOf source = true := by
  obtain ⟨entry, hentry, rfl⟩ := Option.map_eq_some_iff.1 h
  exact ⟨entry.1, foldl_betterOf jobs.zipIdx none (fun entry hentry => List.mem_zipIdx_iff_getElem?.1 hentry)
    (fun entry hentry => by simp at hentry) entry hentry⟩

lemma Deduplicated.dequeueRefresh {s : QueueStore} (h : Deduplicated s) (now : ℤ) (source : String) :
    Deduplicated (dequeueRefresh now source s).2 := by
  unfold Queue.dequeueRefresh
  cases hbest : bestIndex source s.jobs with
  | none => exact h
  | some i =>
    obtain ⟨job, hget, hpending⟩ := bestIndex_isPending hbest
    refine h.of_sublist (activeKeys_modify fun other hother => ⟨rfl, fun _ => ?_⟩)
    obtain rfl : job = other := Option.some.inj (hget.symm.trans hother)
    simp only [RefreshJob.isPendingOf, Bool.and_eq_true, decide_eq_true_eq] at hpending
    rw [hpending.1]
    rfl

/-- A new job is active where no job is queued as it. -/
lemma enqueue_cases (now : ℤ) (job : NewRefreshJob) (audit : AuditWrite) (s : QueueStore) :
    ((∃ existing ∈ s.jobs, job.isQueuedAs existing = true) ∧
      (activeKeys (enqueueRefresh now job audit s).2.jobs).Sublist (activeKeys s.jobs)) ∨
    (∀ existing ∈ s.jobs, ¬ job.isQueuedAs existing = true) ∧
      activeKeys (enqueueRefresh now job audit s).2.jobs =
        activeKeys s.jobs ++ (if job.initialStatus.isActive then [job.key] else []) := by
  unfold enqueueRefresh enqueueRefreshLocked
  cases hi : s.jobs.findIdx? job.isQueuedAs with
  | none =>
    right
    refine ⟨fun existing hexisting => by simpa using List.findIdx?_eq_none_iff.1 hi existing hexisting, ?_⟩
    simp only [activeKeys_append, activeKeys_cons, List.append_cancel_left_eq]
    simp [activeKeys, RefreshJob.key, NewRefreshJob.key]
  | some i =>
    left
    obtain ⟨existing, -, hfind⟩ := find?_of_findIdx? hi
    refine ⟨⟨existing, List.mem_of_find?_eq_some hfind, List.find?_some hfind⟩, ?_⟩
    exact activeKeys_modify fun other _ => ⟨rfl, fun hactive => hactive⟩

lemma Deduplicated.enqueue_iff {s : QueueStore} (h : Deduplicated s) (now : ℤ) (job : NewRefreshJob)
    (audit : AuditWrite) :
    Deduplicated (enqueueRefresh now job audit s).2 ↔ ¬ Duplicates s (.enqueue now job audit) := by
  obtain ⟨⟨existing, hmem, hqueued⟩, hsub⟩ | ⟨hnone, hkeys⟩ := enqueue_cases now job audit s
  · exact iff_of_true (h.of_sublist hsub) fun hdup => hdup.2.1 existing hmem hqueued
  · rw [Deduplicated, hkeys]
    by_cases hactive : job.initialStatus.isActive = true
    · rw [if_pos hactive, List.nodup_append_comm, List.singleton_append, List.nodup_cons]
      refine ⟨fun hnodup hdup => hnodup.1 hdup.2.2, fun hdup => ⟨fun hkey => ?_, h⟩⟩
      exact hdup ⟨hactive, hnone, hkey⟩
    · rw [if_neg hactive, List.append_nil]
      exact iff_of_true h fun hdup => hactive hdup.1

/-- A finished job that waits again is one more active job. -/
lemma activeKeys_modify_perm {change : RefreshJob → RefreshJob} {jobs : List RefreshJob} {i : ℕ}
    {job : RefreshJob} (hget : jobs[i]? = some job) (hkey : (change job).key = job.key)
    (hbefore : ¬ job.status.isActive = true) (hafter : (change job).status.isActive = true) :
    (activeKeys (jobs.modify i change)).Perm (job.key :: activeKeys jobs) := by
  induction jobs generalizing i with
  | nil => simp at hget
  | cons other jobs ih =>
    cases i with
    | zero =>
      obtain rfl : other = job := Option.some.inj hget
      rw [List.modify_zero_cons, activeKeys_cons, activeKeys_cons, if_pos hafter, if_neg hbefore, hkey]
      rfl
    | succ i =>
      rw [List.modify_succ_cons, activeKeys_cons, activeKeys_cons]
      exact ((ih hget).append_left _).trans List.perm_middle

lemma canRetry_eq_true {status : RefreshStatus} (h : canRetryRefreshStatus status = true) :
    isTerminalRefreshStatus status = true ∧ ¬ status.isActive = true ∨
      isTerminalRefreshStatus status = false ∧ status.isActive = true := by
  revert h
  cases status <;> decide

lemma Deduplicated.retry_iff {s : QueueStore} (h : Deduplicated s) (now id : ℤ) (audit : AuditWrite) :
    Deduplicated (orSame s (retryQueueJob now id audit s)) ↔ ¬ Duplicates s (.retry now id audit) := by
  obtain ⟨heq, hnone⟩ | ⟨i, job, hfind, hget, hallowed, haudit, heq⟩ := changeChecked_cases id
    canRetryRefreshStatus " is not retryable" audit (fun job => { job.release with requestedAt := now }) s
  · rw [retryQueueJob, heq]
    refine iff_of_true h ?_
    rintro ⟨haudit, job, hfind, hterminal, -⟩
    refine haudit (hnone job hfind ?_)
    revert hterminal
    cases job.status <;> decide
  · rw [retryQueueJob, heq, Deduplicated]
    obtain ⟨hterminal, hinactive⟩ | ⟨hterminal, hactive⟩ := canRetry_eq_true hallowed
    · rw [(activeKeys_modify_perm hget rfl hinactive rfl).nodup_iff, List.nodup_cons]
      constructor
      · rintro ⟨hkey, -⟩ ⟨-, other, hother, -, hmem⟩
        obtain rfl : job = other := Option.some.inj (hfind.symm.trans hother)
        exact hkey hmem
      · exact fun hdup => ⟨fun hkey => hdup ⟨haudit, job, hfind, hterminal, hkey⟩, h⟩
    · refine iff_of_true (h.of_sublist (activeKeys_modify fun other hother => ⟨rfl, fun _ => ?_⟩)) ?_
      · obtain rfl : job = other := Option.some.inj (hget.symm.trans hother)
        exact hactive
      · rintro ⟨-, other, hother, hother', -⟩
        obtain rfl : job = other := Option.some.inj (hfind.symm.trans hother)
        simp [hterminal] at hother'

/-- One operation keeps the jobs apart unless it makes a second active job. -/
lemma Deduplicated.step_iff {s : QueueStore} (h : Deduplicated s) (op : QueueOp) :
    Deduplicated (queueStep s op) ↔ ¬ Duplicates s op := by
  cases op with
  | enqueue now job audit => exact h.enqueue_iff now job audit
  | retry now id audit => exact h.retry_iff now id audit
  | dequeue now source => exact iff_of_true (h.dequeueRefresh now source) not_false
  | complete now id jobErr =>
    exact iff_of_true (h.changeJob id (keepsInactive_complete now jobErr)) not_false
  | completeClaimed now id claimedAt jobErr =>
    refine iff_of_true ?_ not_false
    cases claimedAt with
    | none => exact h
    | some claimedAt =>
      refine h.changeJob id fun job => ?_
      by_cases hclaimed : job.isClaimedAt claimedAt = true
      · simpa [KeepsInactive, hclaimed] using keepsInactive_complete now jobErr job
      · simp [KeepsInactive, hclaimed]
  | resetStuck now source threshold =>
    refine iff_of_true (h.of_sublist (activeKeys_map (fun job => ?_) _)) not_false
    by_cases hstuck : job.isStuck now source threshold = true
    · have hprocessing : job.status = .processing := by
        simp only [RefreshJob.isStuck, Bool.and_eq_true, decide_eq_true_eq] at hstuck
        exact hstuck.1.1
      have hrelease : KeepsInactive RefreshJob.release job := keepsInactive_release (by rw [hprocessing]; rfl)
      simpa [KeepsInactive, hstuck] using hrelease
    · simp [KeepsInactive, hstuck]
  | updatePriority id priority audit =>
    exact iff_of_true (h.changeChecked id _ audit fun job _ => ⟨rfl, fun hactive => hactive⟩) not_false
  | pause id audit =>
    refine iff_of_true (h.changeChecked id _ audit fun job hpending => ⟨rfl, fun _ => ?_⟩) not_false
    rw [of_decide_eq_true hpending]
    rfl
  | resume id audit =>
    refine iff_of_true (h.changeChecked id _ audit fun job hpaused => keepsInactive_release ?_) not_false
    rw [of_decide_eq_true hpaused]
    rfl
  | clear statuses audit => exact iff_of_true (h.removeJobs audit _) not_false
  | purge audit => exact iff_of_true (h.removeJobs audit _) not_false
  | prune now retention =>
    refine iff_of_true ?_ not_false
    simp only [queueStep, pruneRefreshQueue]
    split_ifs
    · exact h
    · exact h.removeJobs .absent _

lemma queueRun_append (ops : List QueueOp) (op : QueueOp) :
    queueRun (ops ++ [op]) = queueStep (queueRun ops) op := by
  simp [queueRun]

/-- At most one job of a package and a source is active all along a run exactly where no operation of it
makes a second one. -/
theorem deduplicated_iff (ops : List QueueOp) :
    (∀ done, done <+: ops → Deduplicated (queueRun done)) ↔
      ∀ done op, done ++ [op] <+: ops → ¬ Duplicates (queueRun done) op := by
  constructor
  · intro h done op hpre
    rw [← (h done ((List.prefix_append _ _).trans hpre)).step_iff, ← queueRun_append]
    exact h _ hpre
  · intro h done
    induction done using List.reverseRecOn with
    | nil => exact fun _ => List.nodup_nil
    | append_singleton done op ih =>
      intro hpre
      have hdone : Deduplicated (queueRun done) := ih ((List.prefix_append _ _).trans hpre)
      rw [queueRun_append, hdone.step_iff]
      exact h done op hpre

def lodashJob : NewRefreshJob := ⟨"npm", "lodash", "socket", 1, "pending", none, ""⟩

/-- A package is enqueued, checked and enqueued again, and an administrator retries the job that is
done. -/
def retriedLodash : List QueueOp :=
  [.enqueue 0 lodashJob .absent, .dequeue 1 "socket", .completeClaimed 2 1 (some 1) none,
    .enqueue 3 lodashJob .absent, .retry 4 1 .written]

/-- Two jobs of one package and one source wait at once. -/
theorem retriedLodash_not_deduplicated : ¬ Deduplicated (queueRun retriedLodash) := by
  decide

end Packmon.Queue

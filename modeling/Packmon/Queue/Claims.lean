import Packmon.Library.Leases
import Packmon.Queue.InMemory

/-!
# Claims of refresh jobs

A worker dequeues a job and completes it later; in the meantime the job may be reset, retried, paused or
claimed by another worker.  A completion names the time of its claim, and the store compares it with the
time in the row.

Both stores are stores of leases: the in-memory store, and the PostgreSQL table with its statements.  Every
statement is one atomic step, and an audited statement that fails is rolled back.
-/

namespace Packmon.Queue

open Feed (RefreshStatus)

/-! ## The statements of PostgreSQL -/

namespace Postgres

/-- The job that is selected for an update: rows that other transactions hold are skipped. -/
def nextJob (source : String) (locked : List ℤ) (rows : List RefreshJob) : Option RefreshJob :=
  ((rows.filter fun job => job.source = source && job.status = .pending && job.id ∉ locked).mergeSort
    fun a b => !b.isBefore a).head?

/-- `UPDATE refresh_queue SET … WHERE …` -/
def update (condition : RefreshJob → Bool) (change : RefreshJob → RefreshJob) (rows : List RefreshJob) :
    List RefreshJob :=
  rows.map fun job => if condition job then change job else job

def dequeueRefresh (now : ℤ) (source : String) (locked : List ℤ) (rows : List RefreshJob) :
    Option RefreshJob × List RefreshJob :=
  let claim (job : RefreshJob) : RefreshJob :=
    { job with status := .processing, processedAt := some now, error := "" }
  match nextJob source locked rows with
  | none => (none, rows)
  | some job => (some (claim job), update (·.id = job.id) claim rows)

def completeClaimedRefresh (now id : ℤ) (claimedAt : Option ℤ) (jobErr : Option String)
    (rows : List RefreshJob) : Except String (List RefreshJob) :=
  match claimedAt with
  | none => .error ("postgres: complete claimed refresh job " ++ toString id ++ ": missing claim timestamp")
  | some claimedAt =>
    .ok <| update (fun job => job.id = id && job.status = .processing && job.processedAt = some claimedAt)
      (completeRefreshJob now jobErr) rows

/-- The times of the table are in microseconds, the threshold is in nanoseconds. -/
def resetStuckJobs (now : ℤ) (source : String) (threshold : ℤ) (rows : List RefreshJob) :
    List RefreshJob :=
  update (fun job => job.source = source && job.status = .processing &&
    job.processedAt.any fun processedAt => processedAt < now - threshold.tdiv 1000) RefreshJob.release rows

/-- Active jobs of one package and source are refused by an index. -/
def violatesIndex (job : RefreshJob) (rows : List RefreshJob) : Bool :=
  job.status.isActive && rows.any fun other =>
    other.id ≠ job.id && other.status.isActive && other.ecosystem = job.ecosystem && other.name = job.name &&
      other.source = job.source

/-- An update of the job with an id where its status allows it, alone or in one transaction with the row of
the audit log. -/
def updateChecked (id : ℤ) (allowed : RefreshStatus → Bool) (action complaint : String) (audit : AuditWrite)
    (change : RefreshJob → RefreshJob) (rows : List RefreshJob) : Except String (List RefreshJob) :=
  if audit ≠ .absent ∧ rows.all (·.id ≠ id) then .error ("postgres: queue job " ++ toString id ++ " not found")
  else
    match rows.find? fun job => job.id = id && allowed job.status with
    | none => .error ("postgres: " ++ action ++ " queue job " ++ toString id ++ ": " ++ complaint)
    | some job =>
      if violatesIndex (change job) rows then
        .error ("postgres: " ++ action ++ " queue job " ++ toString id ++ ": duplicate key")
      else if audit = .failed then .error "write admin audit log"
      else .ok (update (fun job => job.id = id && allowed job.status) change rows)

def retryQueueJob (now id : ℤ) (audit : AuditWrite) : List RefreshJob → Except String (List RefreshJob) :=
  updateChecked id canRetryRefreshStatus "retry" "job not found or not retryable" audit fun job =>
    { job.release with requestedAt := now }

def pauseQueueJob (id : ℤ) (audit : AuditWrite) : List RefreshJob → Except String (List RefreshJob) :=
  updateChecked id (· = .pending) "pause" "job not found or not pending" audit fun job =>
    { job with status := .paused }

def resumeQueueJob (id : ℤ) (audit : AuditWrite) : List RefreshJob → Except String (List RefreshJob) :=
  updateChecked id (· = .paused) "resume" "job not found or not paused" audit RefreshJob.release

end Postgres

/-! ## Rows by id -/

def jobByID (jobs : List RefreshJob) (id : ℤ) : Option RefreshJob := jobs.find? (·.id = id)

/-- The claim a job is processing under. -/
def RefreshJob.claimToken (job : RefreshJob) : Option ℤ :=
  if job.status = .processing then job.processedAt else none

lemma claimToken_of_ne {job : RefreshJob} (h : job.status ≠ .processing) : job.claimToken = none :=
  if_neg h

lemma claimToken_eq_some {job : RefreshJob} {claimedAt : ℤ} :
    job.claimToken = some claimedAt ↔ job.status = .processing ∧ job.processedAt = some claimedAt := by
  unfold RefreshJob.claimToken
  split_ifs with h <;> simp [h]

lemma completeRefreshJob_status_ne (now : ℤ) (jobErr : Option String) (job : RefreshJob) :
    (completeRefreshJob now jobErr job).status ≠ .processing := by
  cases jobErr <;> simp [completeRefreshJob]

@[simp] lemma completeRefreshJob_id (now : ℤ) (jobErr : Option String) (job : RefreshJob) :
    (completeRefreshJob now jobErr job).id = job.id := by
  cases jobErr <;> rfl

lemma jobByID_id {jobs : List RefreshJob} {id : ℤ} {job : RefreshJob} (h : jobByID jobs id = some job) :
    job.id = id := by
  simpa using List.find?_some h

/-- A table in which ids are told apart. -/
def DistinctIDs (jobs : List RefreshJob) : Prop := (jobs.map RefreshJob.id).Nodup

lemma DistinctIDs.map {jobs : List RefreshJob} (h : DistinctIDs jobs) {change : RefreshJob → RefreshJob}
    (hid : ∀ job, (change job).id = job.id) : DistinctIDs (jobs.map change) := by
  rw [DistinctIDs, List.map_map, show RefreshJob.id ∘ change = RefreshJob.id from funext hid]
  exact h

lemma map_id_modify {change : RefreshJob → RefreshJob} (hid : ∀ job, (change job).id = job.id)
    (jobs : List RefreshJob) (i : ℕ) :
    (jobs.modify i change).map RefreshJob.id = jobs.map RefreshJob.id := by
  refine List.ext_getElem? fun j => ?_
  rw [List.getElem?_map, List.getElem?_map, List.getElem?_modify]
  cases jobs[j]? with
  | none => rfl
  | some job => by_cases hij : i = j <;> simp [hij, hid]

lemma DistinctIDs.modify {jobs : List RefreshJob} (h : DistinctIDs jobs) {change : RefreshJob → RefreshJob}
    (hid : ∀ job, (change job).id = job.id) (i : ℕ) : DistinctIDs (jobs.modify i change) := by
  rwa [DistinctIDs, map_id_modify hid]

lemma jobByID_map {change : RefreshJob → RefreshJob} (hid : ∀ job, (change job).id = job.id)
    (jobs : List RefreshJob) (id : ℤ) : jobByID (jobs.map change) id = (jobByID jobs id).map change := by
  rw [jobByID, List.find?_map]
  simp only [Function.comp_def, hid]
  rfl

lemma jobByID_of_mem {jobs : List RefreshJob} (h : DistinctIDs jobs) {job : RefreshJob} (hmem : job ∈ jobs) :
    jobByID jobs job.id = some job := by
  cases hfind : jobByID jobs job.id with
  | none => simpa using List.find?_eq_none.1 hfind job hmem
  | some other =>
    rw [List.inj_on_of_nodup_map h (List.mem_of_find?_eq_some hfind) hmem (jobByID_id hfind)]

/-- With ids told apart, a change at a place is a change of the row with an id. -/
lemma jobByID_modify {jobs : List RefreshJob} (h : DistinctIDs jobs) {i : ℕ} {job : RefreshJob}
    (hget : jobs[i]? = some job) {change : RefreshJob → RefreshJob}
    (hid : ∀ job, (change job).id = job.id) :
    jobByID (jobs.modify i change) = Function.update (jobByID jobs) job.id (some (change job)) := by
  have hmodify : jobs.modify i change = jobs.map fun other => if other.id = job.id then change other else other := by
    refine List.ext_getElem? fun j => ?_
    rw [List.getElem?_map, List.getElem?_modify]
    cases hj : jobs[j]? with
    | none => rfl
    | some other =>
      have hiff : i = j ↔ other.id = job.id := by
        constructor
        · rintro rfl
          exact congrArg RefreshJob.id (Option.some.inj (hj.symm.trans hget))
        · intro hother
          have hlt : i < (jobs.map RefreshJob.id).length := by
            rw [List.length_map]
            exact (List.getElem?_eq_some_iff.1 hget).1
          refine (List.getElem?_inj hlt h).1 ?_
          rw [List.getElem?_map, List.getElem?_map, hget, hj, Option.map_some, Option.map_some, hother]
      by_cases hij : i = j
      · simp [hij, hiff.1 hij]
      · simp [hij, mt hiff.2 hij]
  rw [hmodify]
  funext id
  rw [jobByID_map (fun other => by split_ifs <;> simp [hid])]
  by_cases hk : id = job.id
  · subst hk
    rw [jobByID_of_mem h (List.mem_of_getElem? hget)]
    simp
  · rw [Function.update_of_ne hk]
    cases hfind : jobByID jobs id with
    | none => rfl
    | some other => simp [jobByID_id hfind, hk]

/-! ## The two stores -/

/-- The operations that take jobs back or let them wait. -/
inductive ClaimOp where
  | resetStuck (now : ℤ) (source : String) (threshold : ℤ)
  | retry (now id : ℤ) (audit : AuditWrite)
  | pause (id : ℤ) (audit : AuditWrite)
  | resume (id : ℤ) (audit : AuditWrite)

/-- The time of a completion and its error. -/
structure Completion where
  now : ℤ
  jobErr : Option String

/-- The in-memory store takes one call at a time. -/
def inMemoryOperate (s : QueueStore) : ClaimOp → QueueStore
  | .resetStuck now source threshold => (resetStuckJobs now source threshold s).2
  | .retry now id audit => orSame s (retryQueueJob now id audit s)
  | .pause id audit => orSame s (pauseQueueJob id audit s)
  | .resume id audit => orSame s (resumeQueueJob id audit s)

def postgresOperate (rows : List RefreshJob) : ClaimOp → List RefreshJob
  | .resetStuck now source threshold => Postgres.resetStuckJobs now source threshold rows
  | .retry now id audit => (Postgres.retryQueueJob now id audit rows).toOption.getD rows
  | .pause id audit => (Postgres.pauseQueueJob id audit rows).toOption.getD rows
  | .resume id audit => (Postgres.resumeQueueJob id audit rows).toOption.getD rows

/-- A change of rows leaves a row as it is or frees the job. -/
def OnlyFrees (jobs after : List RefreshJob) : Prop :=
  DistinctIDs after ∧
    ∀ id, jobByID after id = jobByID jobs id ∨ (jobByID after id).bind RefreshJob.claimToken = none

lemma OnlyFrees.refl {jobs : List RefreshJob} (h : DistinctIDs jobs) : OnlyFrees jobs jobs :=
  ⟨h, fun _ => .inl rfl⟩

lemma onlyFrees_map {jobs : List RefreshJob} (h : DistinctIDs jobs) {condition : RefreshJob → Bool}
    {change : RefreshJob → RefreshJob} (hid : ∀ job, (change job).id = job.id)
    (hfree : ∀ job, (change job).status ≠ .processing) :
    OnlyFrees jobs (jobs.map fun job => if condition job then change job else job) := by
  have hids : ∀ job, (if condition job then change job else job).id = job.id := by
    intro job
    split_ifs <;> simp [hid]
  refine ⟨h.map hids, fun id => ?_⟩
  rw [jobByID_map hids]
  cases jobByID jobs id with
  | none => exact .inl rfl
  | some job =>
    by_cases hjob : condition job = true
    · right
      simp [hjob, claimToken_of_ne (hfree job)]
    · left
      simp [hjob]

lemma onlyFrees_changeChecked {s : QueueStore} (h : DistinctIDs s.jobs) (id : ℤ)
    (allowed : RefreshStatus → Bool) (complaint : String) (audit : AuditWrite)
    {change : RefreshJob → RefreshJob} (hid : ∀ job, (change job).id = job.id)
    (hfree : ∀ job, (change job).status ≠ .processing) :
    OnlyFrees s.jobs (orSame s (changeChecked id allowed complaint audit change s)).jobs := by
  obtain ⟨heq, -⟩ | ⟨i, job, -, hget, -, -, heq⟩ := changeChecked_cases id allowed complaint audit change s
  · rw [heq]
    exact .refl h
  · rw [heq]
    refine ⟨h.modify hid i, fun k => ?_⟩
    simp only [jobByID_modify h hget hid]
    by_cases hk : k = job.id
    · right
      simp [hk, claimToken_of_ne (hfree job)]
    · left
      rw [Function.update_of_ne hk]

lemma inMemoryOperate_onlyFrees {s : QueueStore} (h : DistinctIDs s.jobs) (op : ClaimOp) :
    OnlyFrees s.jobs (inMemoryOperate s op).jobs := by
  cases op with
  | resetStuck now source threshold =>
    exact onlyFrees_map h (fun _ => rfl) fun job => by simp [RefreshJob.release]
  | retry now id audit =>
    exact onlyFrees_changeChecked h id _ _ audit (fun _ => rfl) fun job => by simp [RefreshJob.release]
  | pause id audit => exact onlyFrees_changeChecked h id _ _ audit (fun _ => rfl) fun job => by simp
  | resume id audit =>
    exact onlyFrees_changeChecked h id _ _ audit (fun _ => rfl) fun job => by simp [RefreshJob.release]

lemma onlyFrees_updateChecked {rows : List RefreshJob} (h : DistinctIDs rows) (id : ℤ)
    (allowed : RefreshStatus → Bool) (action complaint : String) (audit : AuditWrite)
    {change : RefreshJob → RefreshJob} (hid : ∀ job, (change job).id = job.id)
    (hfree : ∀ job, (change job).status ≠ .processing) :
    OnlyFrees rows ((Postgres.updateChecked id allowed action complaint audit change rows).toOption.getD rows) := by
  unfold Postgres.updateChecked
  by_cases hmissing : audit ≠ .absent ∧ rows.all (·.id ≠ id)
  · rw [if_pos hmissing]
    exact .refl h
  · rw [if_neg hmissing]
    split
    · exact .refl h
    · split_ifs
      · exact .refl h
      · exact .refl h
      · exact onlyFrees_map h hid hfree

lemma postgresOperate_onlyFrees {rows : List RefreshJob} (h : DistinctIDs rows) (op : ClaimOp) :
    OnlyFrees rows (postgresOperate rows op) := by
  cases op with
  | resetStuck now source threshold =>
    exact onlyFrees_map h (fun _ => rfl) fun job => by simp [RefreshJob.release]
  | retry now id audit =>
    exact onlyFrees_updateChecked h id _ _ _ audit (fun _ => rfl) fun job => by simp [RefreshJob.release]
  | pause id audit => exact onlyFrees_updateChecked h id _ _ _ audit (fun _ => rfl) fun job => by simp
  | resume id audit =>
    exact onlyFrees_updateChecked h id _ _ _ audit (fun _ => rfl) fun job => by simp [RefreshJob.release]

/-- A completion finishes the job it names, while that job is processing under its claim. -/
def OnlyCompletes (lease : RefreshJob) (jobs after : List RefreshJob) : Prop :=
  DistinctIDs after ∧
    ∀ id, jobByID after id = jobByID jobs id ∨ lease.id = id ∧
      (∃ claimedAt before, lease.processedAt = some claimedAt ∧ jobByID jobs id = some before ∧
        before.claimToken = some claimedAt) ∧ (jobByID after id).bind RefreshJob.claimToken = none

lemma OnlyCompletes.refl {lease : RefreshJob} {jobs : List RefreshJob} (h : DistinctIDs jobs) :
    OnlyCompletes lease jobs jobs :=
  ⟨h, fun _ => .inl rfl⟩

def inMemoryComplete (report : Completion) (lease : RefreshJob) (s : QueueStore) : QueueStore :=
  orSame s (completeClaimedRefresh report.now lease.id lease.processedAt report.jobErr s)

def postgresComplete (report : Completion) (lease : RefreshJob) (rows : List RefreshJob) : List RefreshJob :=
  (Postgres.completeClaimedRefresh report.now lease.id lease.processedAt report.jobErr rows).toOption.getD rows

lemma isClaimedAt_iff {job : RefreshJob} {claimedAt : ℤ} :
    job.isClaimedAt claimedAt = true ↔ job.claimToken = some claimedAt := by
  rw [claimToken_eq_some, RefreshJob.isClaimedAt, Bool.and_eq_true, decide_eq_true_eq, decide_eq_true_eq]

lemma inMemoryComplete_onlyCompletes {s : QueueStore} (h : DistinctIDs s.jobs) (report : Completion)
    (lease : RefreshJob) : OnlyCompletes lease s.jobs (inMemoryComplete report lease s).jobs := by
  unfold inMemoryComplete completeClaimedRefresh
  cases hclaim : lease.processedAt with
  | none => exact .refl h
  | some claimedAt =>
    set change : RefreshJob → RefreshJob := fun job =>
      if job.isClaimedAt claimedAt then completeRefreshJob report.now report.jobErr job else job with hchange
    have hid : ∀ job, (change job).id = job.id := by
      intro job
      rw [hchange]
      dsimp only
      split_ifs <;> simp
    change OnlyCompletes lease s.jobs (changeJob lease.id change s).jobs
    obtain ⟨-, heq⟩ | ⟨i, job, hfind, hget, heq⟩ := changeJob_cases lease.id change s
    · rw [heq]
      exact .refl h
    · rw [heq]
      refine ⟨h.modify hid i, fun id => ?_⟩
      simp only [jobByID_modify h hget hid]
      have hjob : job.id = lease.id := jobByID_id hfind
      by_cases hk : id = job.id
      · subst hk
        rw [Function.update_self, jobByID_of_mem h (List.mem_of_getElem? hget)]
        by_cases hclaimed : job.isClaimedAt claimedAt = true
        · refine .inr ⟨hjob.symm, ⟨claimedAt, job, hclaim, rfl, isClaimedAt_iff.1 hclaimed⟩, ?_⟩
          simp [hchange, hclaimed, claimToken_of_ne (completeRefreshJob_status_ne _ _ _)]
        · left
          simp [hchange, hclaimed]
      · left
        rw [Function.update_of_ne hk]

lemma postgresComplete_onlyCompletes {rows : List RefreshJob} (h : DistinctIDs rows) (report : Completion)
    (lease : RefreshJob) : OnlyCompletes lease rows (postgresComplete report lease rows) := by
  unfold postgresComplete Postgres.completeClaimedRefresh
  cases hclaim : lease.processedAt with
  | none => exact .refl h
  | some claimedAt =>
    set condition : RefreshJob → Bool := fun job =>
      job.id = lease.id && job.status = .processing && job.processedAt = some claimedAt with hcondition
    have hids : ∀ job, (if condition job then completeRefreshJob report.now report.jobErr job else job).id =
        job.id := by
      intro job
      split_ifs <;> simp
    refine ⟨h.map hids, fun id => ?_⟩
    change jobByID (rows.map _) id = _ ∨ _ ∧ _ ∧ (jobByID (rows.map _) id).bind _ = none
    rw [jobByID_map hids]
    cases hfind : jobByID rows id with
    | none => exact .inl rfl
    | some job =>
      by_cases hjob : condition job = true
      · have hmatch : (job.id = lease.id ∧ job.status = .processing) ∧ job.processedAt = some claimedAt := by
          simpa [hcondition] using hjob
        refine .inr ⟨hmatch.1.1.symm.trans (jobByID_id hfind),
          ⟨claimedAt, job, hclaim, rfl, claimToken_eq_some.2 ⟨hmatch.1.2, hmatch.2⟩⟩, ?_⟩
        simp [hjob, claimToken_of_ne (completeRefreshJob_status_ne _ _ _)]
      · left
        simp [hjob]

/-- A dequeue claims one job that was pending, or none. -/
def OnlyClaims (jobs : List RefreshJob) (result : Option RefreshJob) (after : List RefreshJob) : Prop :=
  DistinctIDs after ∧ (result = none → jobByID after = jobByID jobs) ∧
    ∀ lease, result = some lease →
      (∃ before, jobByID jobs lease.id = some before ∧ before.status = .pending) ∧
      lease.processedAt = lease.claimToken ∧
      jobByID after = Function.update (jobByID jobs) lease.id (some lease)

lemma dequeueRefresh_onlyClaims {s : QueueStore} (h : DistinctIDs s.jobs) (now : ℤ) (source : String) :
    OnlyClaims s.jobs (dequeueRefresh now source s).1 (dequeueRefresh now source s).2.jobs := by
  unfold dequeueRefresh
  cases hbest : bestIndex source s.jobs with
  | none => exact ⟨h, fun _ => rfl, fun lease hlease => by simp at hlease⟩
  | some i =>
    obtain ⟨job, hget, hpending⟩ := bestIndex_isPending hbest
    have hresult : (s.jobs.modify i (RefreshJob.claim now))[i]? = some (job.claim now) := by
      simp [hget]
    have hids : DistinctIDs (s.jobs.modify i (RefreshJob.claim now)) :=
      h.modify (fun job => show (job.claim now).id = job.id from rfl) i
    refine ⟨hids, fun hnone => by simp [hget] at hnone, fun lease hlease => ?_⟩
    obtain rfl : job.claim now = lease := Option.some.inj (hresult.symm.trans hlease)
    refine ⟨⟨job, jobByID_of_mem h (List.mem_of_getElem? hget), ?_⟩, ?_, ?_⟩
    · simp only [RefreshJob.isPendingOf, Bool.and_eq_true, decide_eq_true_eq] at hpending
      exact hpending.1
    · simp [RefreshJob.claimToken, RefreshJob.claim]
    · exact jobByID_modify h hget fun _ => rfl

lemma Postgres.nextJob_mem {source : String} {locked : List ℤ} {rows : List RefreshJob} {job : RefreshJob}
    (h : Postgres.nextJob source locked rows = some job) : job ∈ rows ∧ job.status = .pending := by
  have hmem := List.mem_of_mem_head? h
  rw [List.mem_mergeSort, List.mem_filter] at hmem
  simp only [Bool.and_eq_true, decide_eq_true_eq] at hmem
  exact ⟨hmem.1, hmem.2.1.2⟩

lemma Postgres.dequeueRefresh_onlyClaims {rows : List RefreshJob} (h : DistinctIDs rows) (now : ℤ)
    (source : String) (locked : List ℤ) :
    OnlyClaims rows (Postgres.dequeueRefresh now source locked rows).1
      (Postgres.dequeueRefresh now source locked rows).2 := by
  unfold Postgres.dequeueRefresh
  cases hnext : Postgres.nextJob source locked rows with
  | none => exact ⟨h, fun _ => rfl, fun lease hlease => by simp at hlease⟩
  | some job =>
    obtain ⟨hmem, hpending⟩ := Postgres.nextJob_mem hnext
    have hids : ∀ other : RefreshJob, (if decide (other.id = job.id) = true then
        { other with status := .processing, processedAt := some now, error := "" } else other).id =
        other.id := by
      intro other
      split_ifs <;> rfl
    refine ⟨h.map hids, fun hnone => by simp at hnone, fun lease hlease => ?_⟩
    obtain rfl := Option.some.inj hlease
    refine ⟨⟨job, jobByID_of_mem h hmem, hpending⟩, by simp [RefreshJob.claimToken], ?_⟩
    funext id
    refine (jobByID_map hids rows id).trans ?_
    by_cases hk : id = job.id
    · subst hk
      simp [jobByID_of_mem h hmem]
    · rw [Function.update_of_ne hk]
      cases hfind : jobByID rows id with
      | none => rfl
      | some other => simp [jobByID_id hfind, hk]

/-- The time of a request and the source of the jobs. -/
structure InMemoryRequest where
  now : ℤ
  source : String

/-- The rows that other transactions hold are skipped. -/
structure PostgresRequest where
  now : ℤ
  source : String
  locked : List ℤ

def inMemoryQueue : Leases.Store QueueStore ℤ RefreshJob ℤ InMemoryRequest Completion ClaimOp where
  Valid s := DistinctIDs s.jobs
  row s := jobByID s.jobs
  key := RefreshJob.id
  token := RefreshJob.claimToken
  claim := RefreshJob.processedAt
  waits job := job.status = .pending
  take request := dequeueRefresh request.now request.source
  finish := inMemoryComplete
  operate op s := inMemoryOperate s op
  take_valid h request := (dequeueRefresh_onlyClaims h request.now request.source).1
  finish_valid h report lease := (inMemoryComplete_onlyCompletes h report lease).1
  operate_valid h op := (inMemoryOperate_onlyFrees h op).1
  take_none h request := (dequeueRefresh_onlyClaims h request.now request.source).2.1
  take_some h request := (dequeueRefresh_onlyClaims h request.now request.source).2.2
  finish_row h report lease := (inMemoryComplete_onlyCompletes h report lease).2
  operate_row h op := (inMemoryOperate_onlyFrees h op).2

def postgresQueue : Leases.Store (List RefreshJob) ℤ RefreshJob ℤ PostgresRequest Completion ClaimOp where
  Valid := DistinctIDs
  row := jobByID
  key := RefreshJob.id
  token := RefreshJob.claimToken
  claim := RefreshJob.processedAt
  waits job := job.status = .pending
  take request := Postgres.dequeueRefresh request.now request.source request.locked
  finish := postgresComplete
  operate op rows := postgresOperate rows op
  take_valid h request := (Postgres.dequeueRefresh_onlyClaims h request.now request.source request.locked).1
  finish_valid h report lease := (postgresComplete_onlyCompletes h report lease).1
  operate_valid h op := (postgresOperate_onlyFrees h op).1
  take_none h request := (Postgres.dequeueRefresh_onlyClaims h request.now request.source request.locked).2.1
  take_some h request := (Postgres.dequeueRefresh_onlyClaims h request.now request.source request.locked).2.2
  finish_row h report lease := (postgresComplete_onlyCompletes h report lease).2
  operate_row h op := (postgresOperate_onlyFrees h op).2

/-! ## Claims are told apart -/

section Safety

variable {σ θ ω : Type}

/-- What holds at a moment of a session of workers `ω`, for every call that can come next. -/
structure ClaimSafe (S : Leases.Store σ ℤ RefreshJob ℤ θ Completion ClaimOp)
    (x : Leases.Session σ ℤ RefreshJob ω) : Prop where
  /-- A completion changes a job only while the job is processing under the claim that the worker got from
  its dequeue, and was so ever since. -/
  completes : ∀ n report id,
    S.row (x.step S (.finish n report)).store id ≠ S.row x.store id →
    ∃ worker job before, x.leases[n]? = some (worker, job) ∧ job.id = id ∧
      S.row x.store id = some before ∧ before.status = .processing ∧ before.processedAt = job.processedAt ∧
      x.holder id = some n
  /-- No job is processing under two claims. -/
  single : ∀ n m id, x.Live S n id → x.Live S m id → n = m
  /-- A job that is returned was pending, so it was not paused. -/
  takes : ∀ request job, (S.take request x.store).1 = some job →
    ∃ before, S.row x.store job.id = some before ∧ before.status = .pending

lemma claimSafe_of_faithful {S : Leases.Store σ ℤ RefreshJob ℤ θ Completion ClaimOp}
    (hkey : S.key = RefreshJob.id) (htoken : S.token = RefreshJob.claimToken)
    (hclaim : S.claim = RefreshJob.processedAt) (hwaits : ∀ job, S.waits job → job.status = .pending)
    {x : Leases.Session σ ℤ RefreshJob ω} (hvalid : S.Valid x.store)
    (hfaithful : Leases.Session.Faithful S x) : ClaimSafe S x where
  completes n report id hchange := by
    obtain ⟨⟨worker, job, claimedAt, before, hget, hid, hjob, hrow, hbefore⟩, hholder⟩ :=
      hfaithful.finish_holder hvalid hchange
    rw [hkey] at hid
    rw [hclaim] at hjob
    rw [htoken, claimToken_eq_some] at hbefore
    exact ⟨worker, job, before, hget, hid, hrow, hbefore.1, hbefore.2.trans hjob.symm, hholder⟩
  single n m id hn hm := hfaithful.live_unique hn hm
  takes request job htake := by
    obtain ⟨⟨before, hrow, hwaiting⟩, -⟩ := S.take_some hvalid request job htake
    rw [hkey] at hrow
    exact ⟨before, hrow, hwaits before hwaiting⟩

/-- In both stores, whatever workers and administrators do in whatever order: a completion changes a job
only under the claim of its own dequeue, no job is under two claims, and no paused job is returned. -/
theorem claimSafe_run {ω : Type} :
    (∀ (s : QueueStore) (actions : List (Leases.Action ω InMemoryRequest Completion ClaimOp)),
      DistinctIDs s.jobs → (Leases.Session.run inMemoryQueue s actions).Distinct inMemoryQueue →
      ClaimSafe inMemoryQueue (Leases.Session.run inMemoryQueue s actions)) ∧
    ∀ (rows : List RefreshJob) (actions : List (Leases.Action ω PostgresRequest Completion ClaimOp)),
      DistinctIDs rows → (Leases.Session.run postgresQueue rows actions).Distinct postgresQueue →
      ClaimSafe postgresQueue (Leases.Session.run postgresQueue rows actions) := by
  refine ⟨fun s actions hids hdistinct => ?_, fun rows actions hids hdistinct => ?_⟩
  · obtain ⟨hvalid, hfaithful⟩ := Leases.Session.run_faithful hids actions hdistinct
    exact claimSafe_of_faithful rfl rfl rfl (fun _ hwaits => hwaits) hvalid hfaithful
  · obtain ⟨hvalid, hfaithful⟩ := Leases.Session.run_faithful hids actions hdistinct
    exact claimSafe_of_faithful rfl rfl rfl (fun _ hwaits => hwaits) hvalid hfaithful

/-- A job that waits in both tables. -/
def waitingJob : RefreshJob := ⟨1, "npm", "lodash", "socket", 1, .pending, 0, none, ""⟩

/-- One worker claims the job, the job is reset, another worker claims it, and the first one completes. -/
def overtaken {θ : Type} (first second : θ) : List (Leases.Action Bool θ Completion ClaimOp) :=
  [.take false first, .operate (.resetStuck 20 "socket" 10), .take true second, .finish 0 ⟨31, none⟩]

/-- A worker that was overtaken is told apart from the one that holds the job. -/
theorem overtaken_claimSafe :
    ClaimSafe inMemoryQueue
      (Leases.Session.run inMemoryQueue ⟨[waitingJob], 1⟩ (overtaken ⟨5, "socket"⟩ ⟨30, "socket"⟩)) ∧
    ClaimSafe postgresQueue
      (Leases.Session.run postgresQueue [waitingJob] (overtaken ⟨5, "socket", []⟩ ⟨30, "socket", []⟩)) :=
  ⟨(claimSafe_run (ω := Bool)).1 _ _ (by simp [DistinctIDs]) (by
      unfold Leases.Session.Distinct
      decide),
    (claimSafe_run (ω := Bool)).2 _ _ (by simp [DistinctIDs]) (by
      unfold Leases.Session.Distinct
      decide +kernel)⟩

end Safety

end Packmon.Queue

import Mathlib.Data.Prod.Lex
import Packmon.Library.Keyset
import Packmon.Queue.Claims

/-!
# The position of a job and the order of service

The position of a job counts the jobs before it by priority, time of the request and id
(`RefreshJob.rank`).  A worker is given the first job of the list that no other job beats by priority and
time.  The ids of the list ascend in every run (`ascending_queueRun`), so both orders are one, and the jobs
of a source are served by their positions (`dequeues_eq_positions`).

The empty source stands for all of them: a worker that asks for it is given the jobs of every source.
-/

namespace Packmon.Queue

open Keyset (orderBy)
open Feed (RefreshStatus)

/-! ## Ids ascend -/

/-- The jobs are listed by ascending ids, and the next id is larger. -/
structure Ascending (s : QueueStore) : Prop where
  pairwise : (s.jobs.map RefreshJob.id).Pairwise (· < ·)
  le_next : ∀ id ∈ s.jobs.map RefreshJob.id, id ≤ s.nextJobID

lemma ascending_empty : Ascending .empty := ⟨List.Pairwise.nil, by simp [QueueStore.empty]⟩

namespace Ascending

variable {s t : QueueStore}

lemma of_sublist (h : Ascending s) (hids : (t.jobs.map RefreshJob.id).Sublist (s.jobs.map RefreshJob.id))
    (hnext : t.nextJobID = s.nextJobID) : Ascending t where
  pairwise := h.pairwise.sublist hids
  le_next id hid := hnext ▸ h.le_next id (hids.subset hid)

lemma distinctIDs (h : Ascending s) : DistinctIDs s.jobs := h.pairwise.imp ne_of_lt

lemma jobs_pairwise (h : Ascending s) : s.jobs.Pairwise fun a b => a.id < b.id :=
  List.pairwise_map.1 h.pairwise

lemma map (h : Ascending s) {change : RefreshJob → RefreshJob} (hid : ∀ job, (change job).id = job.id) :
    Ascending { s with jobs := s.jobs.map change } := by
  refine h.of_sublist ?_ rfl
  rw [List.map_map, show RefreshJob.id ∘ change = RefreshJob.id from funext hid]

lemma modify (h : Ascending s) {change : RefreshJob → RefreshJob} (hid : ∀ job, (change job).id = job.id)
    (i : ℕ) : Ascending { s with jobs := s.jobs.modify i change } :=
  h.of_sublist (by rw [map_id_modify hid]) rfl

lemma changeJob (h : Ascending s) (id : ℤ) {change : RefreshJob → RefreshJob}
    (hid : ∀ job, (change job).id = job.id) : Ascending (changeJob id change s) := by
  obtain ⟨-, heq⟩ | ⟨i, job, -, -, heq⟩ := changeJob_cases id change s
  · rwa [heq]
  · rw [heq]
    exact h.modify hid i

lemma changeChecked (h : Ascending s) (id : ℤ) (allowed : RefreshStatus → Bool) (complaint : String)
    (audit : AuditWrite) {change : RefreshJob → RefreshJob} (hid : ∀ job, (change job).id = job.id) :
    Ascending (orSame s (changeChecked id allowed complaint audit change s)) := by
  obtain ⟨heq, -⟩ | ⟨i, job, -, -, -, -, heq⟩ := changeChecked_cases id allowed complaint audit change s
  · rwa [heq]
  · rw [heq]
    exact h.modify hid i

lemma removeJobs (h : Ascending s) (audit : AuditWrite) (removed : RefreshJob → Bool) :
    Ascending (orSame s ((removeJobs audit removed s).map Prod.snd)) := by
  unfold Queue.removeJobs
  split_ifs
  · exact h
  · exact h.of_sublist (List.filter_sublist.map _) rfl

lemma dequeueRefresh (h : Ascending s) (now : ℤ) (source : String) :
    Ascending (dequeueRefresh now source s).2 := by
  unfold Queue.dequeueRefresh
  cases bestIndex source s.jobs with
  | none => exact h
  | some i => exact h.modify (show ∀ job : RefreshJob, (job.claim now).id = job.id from fun _ => rfl) i

lemma enqueueRefresh (h : Ascending s) (now : ℤ) (job : NewRefreshJob) (audit : AuditWrite) :
    Ascending (enqueueRefresh now job audit s).2 := by
  unfold Queue.enqueueRefresh enqueueRefreshLocked
  cases s.jobs.findIdx? job.isQueuedAs with
  | some i =>
    exact h.modify (show ∀ existing : RefreshJob,
      ({ existing with priority := min existing.priority job.priority } : RefreshJob).id = existing.id
      from fun _ => rfl) i
  | none =>
    have hlt : ∀ id ∈ s.jobs.map RefreshJob.id, id < s.nextJobID + 1 :=
      fun id hid => Int.lt_add_one_of_le (h.le_next id hid)
    constructor
    · simp only [List.map_append, List.map_singleton]
      refine List.pairwise_append.2 ⟨h.pairwise, List.pairwise_singleton _ _, ?_⟩
      intro id hid new hnew
      rw [List.mem_singleton.1 hnew]
      exact hlt id hid
    · simp only [List.map_append, List.map_singleton, List.mem_append, List.mem_singleton]
      rintro id (hid | rfl)
      · exact (hlt id hid).le
      · exact le_rfl

lemma step (h : Ascending s) (op : QueueOp) : Ascending (queueStep s op) := by
  cases op with
  | enqueue now job audit => exact h.enqueueRefresh now job audit
  | dequeue now source => exact h.dequeueRefresh now source
  | complete now id jobErr => exact h.changeJob id (completeRefreshJob_id now jobErr)
  | completeClaimed now id claimedAt jobErr =>
    cases claimedAt with
    | none => exact h
    | some claimedAt =>
      refine h.changeJob id fun job => ?_
      split_ifs
      · exact completeRefreshJob_id now jobErr job
      · rfl
  | resetStuck now source threshold =>
    refine h.map fun job => ?_
    split_ifs <;> rfl
  | updatePriority id priority audit => exact h.changeChecked id _ _ audit fun _ => rfl
  | retry now id audit => exact h.changeChecked id _ _ audit fun _ => rfl
  | pause id audit => exact h.changeChecked id _ _ audit fun _ => rfl
  | resume id audit => exact h.changeChecked id _ _ audit fun _ => rfl
  | clear statuses audit => exact h.removeJobs audit _
  | purge audit => exact h.removeJobs audit _
  | prune now retention =>
    simp only [queueStep, pruneRefreshQueue]
    split_ifs
    · exact h
    · exact h.removeJobs .absent _

end Ascending

theorem ascending_queueRun (ops : List QueueOp) : Ascending (queueRun ops) := by
  induction ops using List.reverseRecOn with
  | nil => exact ascending_empty
  | append_singleton ops op ih =>
    rw [queueRun_append]
    exact ih.step op

/-! ## One order -/

/-- Priority, then time of the request, then id. -/
def RefreshJob.rank (job : RefreshJob) : ℤ ×ₗ ℤ ×ₗ ℤ :=
  toLex (job.priority, toLex (job.requestedAt, job.id))

lemma RefreshJob.isBefore_iff (a b : RefreshJob) : a.isBefore b = true ↔ a.rank < b.rank := by
  unfold RefreshJob.isBefore RefreshJob.rank
  rw [Prod.Lex.toLex_lt_toLex, Prod.Lex.toLex_lt_toLex]
  split_ifs <;> simp only [decide_eq_true_eq] <;> omega

/-- Behind a job with a smaller id, the search for the next job goes by the rank. -/
lemma RefreshJob.isBetter_iff {job best : RefreshJob} (h : best.id < job.id) :
    job.isBetter best = true ↔ job.rank < best.rank := by
  unfold RefreshJob.isBetter RefreshJob.rank
  rw [Prod.Lex.toLex_lt_toLex, Prod.Lex.toLex_lt_toLex]
  simp only [Bool.or_eq_true, Bool.and_eq_true, decide_eq_true_eq]
  omega

lemma RefreshJob.rank_injective_on {jobs : List RefreshJob} (h : DistinctIDs jobs) :
    (jobs.map RefreshJob.rank).Nodup := by
  have hid : jobs.map RefreshJob.id = (jobs.map RefreshJob.rank).map fun r => (ofLex (ofLex r).2).2 := by
    rw [List.map_map]
    rfl
  rw [DistinctIDs, hid] at h
  exact h.of_map _

/-- The jobs that wait for a source, in the order of their ranks. -/
def waitingOrder (source : String) (jobs : List RefreshJob) : List RefreshJob :=
  orderBy RefreshJob.rank (jobs.filter (·.isPendingOf source))

lemma perm_waitingOrder (source : String) (jobs : List RefreshJob) :
    (waitingOrder source jobs).Perm (jobs.filter (·.isPendingOf source)) :=
  Keyset.perm_orderBy _ _

lemma mem_waitingOrder {source : String} {jobs : List RefreshJob} {job : RefreshJob} :
    job ∈ waitingOrder source jobs ↔ job ∈ jobs ∧ job.isPendingOf source = true := by
  rw [(perm_waitingOrder source jobs).mem_iff, List.mem_filter]

lemma pairwise_waitingOrder {jobs : List RefreshJob} (h : DistinctIDs jobs) (source : String) :
    (waitingOrder source jobs).Pairwise fun a b => a.rank < b.rank :=
  Keyset.pairwise_lt_orderBy ((RefreshJob.rank_injective_on h).sublist (List.filter_sublist.map _))

/-! ## The next job -/

/-- The search keeps the entry of the smallest rank: with ascending ids, of every two entries it has seen
it keeps the one before. -/
lemma foldl_betterOf_least (source : String) :
    ∀ (entries : List (RefreshJob × ℕ)) (best : Option (RefreshJob × ℕ)),
      (entries.Pairwise fun a b => a.1.id < b.1.id) →
      (∀ entry ∈ best, ∀ other ∈ entries, entry.1.id < other.1.id) →
      ∀ entry, (entry ∈ best ∨ entry ∈ entries ∧ entry.1.isPendingOf source = true) →
        ∃ chosen ∈ entries.foldl (betterOf source) best, chosen.1.rank ≤ entry.1.rank
  | [], best, _, _, entry, hentry => by
    rcases hentry with hbest | ⟨hmem, -⟩
    · exact ⟨entry, hbest, le_rfl⟩
    · simp at hmem
  | next :: entries, best, hsorted, hbehind, entry, hentry => by
    obtain ⟨hnext, hentries⟩ := List.pairwise_cons.1 hsorted
    have hbehind' : ∀ entry ∈ betterOf source best next, ∀ other ∈ entries, entry.1.id < other.1.id := by
      intro kept hkept other hother
      unfold betterOf at hkept
      split_ifs at hkept
      · obtain rfl := Option.some.inj hkept
        exact hnext other hother
      · exact hbehind kept hkept other (List.mem_cons_of_mem _ hother)
    have hrun := foldl_betterOf_least source entries (betterOf source best next) hentries hbehind'
    -- what is kept of the best entry and the next one is before both
    have hkeep : (entry ∈ best ∨ entry = next ∧ entry.1.isPendingOf source = true) →
        ∃ kept ∈ betterOf source best next, kept.1.rank ≤ entry.1.rank := by
      intro hcandidate
      unfold betterOf
      split_ifs with htest
      · refine ⟨next, rfl, ?_⟩
        rcases hcandidate with hbest | ⟨rfl, -⟩
        · rw [Bool.and_eq_true] at htest
          obtain rfl : best = some entry := hbest
          exact ((RefreshJob.isBetter_iff (hbehind entry rfl next List.mem_cons_self)).1 (by simpa using htest.2)).le
        · exact le_rfl
      · rcases hcandidate with hbest | ⟨rfl, hpending⟩
        · exact ⟨entry, hbest, le_rfl⟩
        · cases best with
          | none => simp [hpending] at htest
          | some kept =>
            refine ⟨kept, rfl, ?_⟩
            by_contra hlt
            refine htest ?_
            rw [hpending, Bool.true_and, Option.all_some]
            exact (RefreshJob.isBetter_iff (hbehind kept rfl entry List.mem_cons_self)).2 (not_le.1 hlt)
    rcases hentry with hbest | ⟨hmem, hpending⟩
    · obtain ⟨kept, hkept, hle⟩ := hkeep (.inl hbest)
      obtain ⟨chosen, hchosen, hchosenle⟩ := hrun kept (.inl hkept)
      exact ⟨chosen, hchosen, hchosenle.trans hle⟩
    · rcases List.mem_cons.1 hmem with rfl | hmem
      · obtain ⟨kept, hkept, hle⟩ := hkeep (.inr ⟨rfl, hpending⟩)
        obtain ⟨chosen, hchosen, hchosenle⟩ := hrun kept (.inl hkept)
        exact ⟨chosen, hchosen, hchosenle.trans hle⟩
      · exact hrun entry (.inr ⟨hmem, hpending⟩)

/-- The job at the index has the smallest rank of the jobs that wait. -/
lemma bestIndex_spec {s : QueueStore} (h : Ascending s) (source : String) :
    (bestIndex source s.jobs = none ∧ waitingOrder source s.jobs = []) ∨
    ∃ i job, bestIndex source s.jobs = some i ∧ s.jobs[i]? = some job ∧ job.isPendingOf source = true ∧
      ∀ other ∈ waitingOrder source s.jobs, job.rank ≤ other.rank := by
  have hsorted : s.jobs.zipIdx.Pairwise fun a b => a.1.id < b.1.id := by
    have hjobs : (s.jobs.zipIdx.map Prod.fst).Pairwise fun a b => a.id < b.id := by
      rw [List.zipIdx_map_fst]
      exact h.jobs_pairwise
    rwa [List.pairwise_map] at hjobs
  have hleast (job : RefreshJob) (hjob : job ∈ waitingOrder source s.jobs) :
      ∃ chosen ∈ s.jobs.zipIdx.foldl (betterOf source) none, chosen.1.rank ≤ job.rank := by
    obtain ⟨hmem, hpending⟩ := mem_waitingOrder.1 hjob
    obtain ⟨i, hi⟩ := List.mem_iff_getElem?.1 hmem
    exact foldl_betterOf_least source s.jobs.zipIdx none hsorted (by simp) (job, i)
      (.inr ⟨List.mem_zipIdx_iff_getElem?.2 hi, hpending⟩)
  cases hfold : s.jobs.zipIdx.foldl (betterOf source) none with
  | none =>
    refine .inl ⟨by rw [bestIndex, hfold, Option.map_none], List.eq_nil_iff_forall_not_mem.2 fun job hjob => ?_⟩
    obtain ⟨chosen, hchosen, -⟩ := hleast job hjob
    simp [hfold] at hchosen
  | some entry =>
    have hbest : bestIndex source s.jobs = some entry.2 := by rw [bestIndex, hfold, Option.map_some]
    have hentry := foldl_betterOf s.jobs.zipIdx none (fun entry hentry => List.mem_zipIdx_iff_getElem?.1 hentry)
      (fun entry hentry => by simp at hentry) entry hfold
    refine .inr ⟨entry.2, entry.1, hbest, hentry.1, hentry.2, fun job hjob => ?_⟩
    obtain ⟨chosen, hchosen, hle⟩ := hleast job hjob
    rw [hfold] at hchosen
    rwa [Option.some.inj hchosen]

/-- A job that is taken leaves the others that wait in their order. -/
lemma filter_pending_claim {jobs : List RefreshJob} {i : ℕ} {job : RefreshJob} (hget : jobs[i]? = some job)
    {source : String} (hpending : job.isPendingOf source = true) (now : ℤ) :
    (jobs.filter (·.isPendingOf source)).Perm
      (job :: (jobs.modify i (RefreshJob.claim now)).filter (·.isPendingOf source)) := by
  induction jobs generalizing i with
  | nil => simp at hget
  | cons other jobs ih =>
    cases i with
    | zero =>
      obtain rfl : other = job := Option.some.inj hget
      have hclaimed : (other.claim now).isPendingOf source = false := rfl
      rw [List.modify_zero_cons, List.filter_cons_of_pos hpending,
        List.filter_cons_of_neg (by rw [hclaimed]; exact Bool.false_ne_true)]
    | succ i =>
      rw [List.modify_succ_cons]
      by_cases hother : other.isPendingOf source = true
      · rw [List.filter_cons_of_pos hother, List.filter_cons_of_pos hother]
        exact ((ih hget).cons other).trans (List.Perm.swap _ _ _)
      · rw [List.filter_cons_of_neg hother, List.filter_cons_of_neg hother]
        exact ih hget

/-- A worker is given the first job that waits, and the others wait on in their order. -/
lemma dequeueRefresh_spec {s : QueueStore} (h : Ascending s) (now : ℤ) (source : String) :
    (dequeueRefresh now source s).1 = (waitingOrder source s.jobs).head?.map (RefreshJob.claim now) ∧
      waitingOrder source (dequeueRefresh now source s).2.jobs = (waitingOrder source s.jobs).tail := by
  obtain ⟨hbest, hnil⟩ | ⟨i, job, hbest, hget, hpending, hleast⟩ := bestIndex_spec h source
  · simp [dequeueRefresh, hbest, hnil]
  · have hmodify : (s.jobs.modify i (RefreshJob.claim now))[i]? = some (job.claim now) := by
      rw [List.getElem?_modify_eq, hget, Option.map_eq_map, Option.map_some]
    have hrest := pairwise_waitingOrder (h.dequeueRefresh now source).distinctIDs source
    rw [dequeueRefresh, hbest] at hrest ⊢
    -- the job and those that wait on are the ones that waited, in the order of their ranks
    have hperm : (waitingOrder source s.jobs).Perm
        (job :: waitingOrder source (s.jobs.modify i (RefreshJob.claim now))) :=
      (perm_waitingOrder source s.jobs).trans
        ((filter_pending_claim hget hpending now).trans ((perm_waitingOrder source _).symm.cons job))
    have hsorted := pairwise_waitingOrder h.distinctIDs source
    have hlt : ∀ other ∈ waitingOrder source (s.jobs.modify i (RefreshJob.claim now)), job.rank < other.rank := by
      intro other hother
      have hmem : other ∈ waitingOrder source s.jobs := hperm.mem_iff.2 (List.mem_cons_of_mem _ hother)
      refine lt_of_le_of_ne (hleast other hmem) fun heq => ?_
      have hnodup : ((waitingOrder source s.jobs).map RefreshJob.rank).Nodup :=
        List.pairwise_map.2 (hsorted.imp ne_of_lt)
      rw [(hperm.map _).nodup_iff, List.map_cons, List.nodup_cons] at hnodup
      exact hnodup.1 (heq ▸ List.mem_map_of_mem hother)
    have heq : waitingOrder source s.jobs =
        job :: waitingOrder source (s.jobs.modify i (RefreshJob.claim now)) :=
      List.Perm.eq_of_pairwise (fun a b _ _ hab hba => absurd hab hba.not_gt) hsorted
        (List.pairwise_cons.2 ⟨hlt, hrest⟩) hperm
    rw [heq]
    exact ⟨hmodify, rfl⟩

/-! ## Serving a source -/

/-- Workers ask for jobs of a source, one behind the other; each call reads the clock. -/
def dequeues (source : String) : List ℤ → QueueStore → List (Option RefreshJob)
  | [], _ => []
  | now :: clocks, s => (dequeueRefresh now source s).1 :: dequeues source clocks (dequeueRefresh now source s).2

/-- Each call is given the job that is next in the order at the start. -/
lemma dequeues_getElem? {s : QueueStore} (h : Ascending s) (source : String) (clocks : List ℤ) (k : ℕ) :
    (dequeues source clocks s)[k]? =
      clocks[k]?.map fun now => (waitingOrder source s.jobs)[k]?.map (RefreshJob.claim now) := by
  induction clocks generalizing s k with
  | nil => simp [dequeues]
  | cons now clocks ih =>
    obtain ⟨hfirst, htail⟩ := dequeueRefresh_spec h now source
    cases k with
    | zero => rw [dequeues, List.getElem?_cons_zero, hfirst, List.head?_eq_getElem?]; rfl
    | succ k =>
      rw [dequeues, List.getElem?_cons_succ, ih (h.dequeueRefresh now source), htail, List.getElem?_tail]
      rfl

/-- In a list by strictly ascending ranks, as many jobs are before a job as its index says. -/
lemma countP_rank_lt {order : List RefreshJob} (hsorted : order.Pairwise fun a b => a.rank < b.rank) {k : ℕ}
    {job : RefreshJob} (hget : order[k]? = some job) :
    order.countP (fun other => other.rank < job.rank) = k := by
  induction order generalizing k with
  | nil => simp at hget
  | cons first order ih =>
    obtain ⟨hfirst, hrest⟩ := List.pairwise_cons.1 hsorted
    cases k with
    | zero =>
      obtain rfl : first = job := Option.some.inj hget
      have hnone : order.countP (fun other => other.rank < first.rank) = 0 :=
        List.countP_eq_zero.2 fun other hother => by simpa using (hfirst other hother).le
      rw [List.countP_cons_of_neg (by simp), hnone]
    | succ k =>
      have hmem : job ∈ order := List.mem_of_getElem? hget
      rw [List.countP_cons_of_pos (by simpa using hfirst job hmem), ih hrest hget]

/-- While no job of the source is processing, the position counts the jobs that wait before it. -/
lemma queuePositionLocked_eq {s : QueueStore} (h : Ascending s) {source : String} (hsource : source ≠ "")
    (hprocessing : ∀ job ∈ s.jobs, job.source = source → job.status ≠ .processing) {job : RefreshJob}
    (hjob : job ∈ waitingOrder source s.jobs) :
    queuePositionLocked job.id s.jobs =
      1 + (waitingOrder source s.jobs).countP fun other => other.rank < job.rank := by
  obtain ⟨hmem, hpending⟩ := mem_waitingOrder.1 hjob
  simp only [RefreshJob.isPendingOf, hsource, decide_false, Bool.false_or, Bool.and_eq_true,
    decide_eq_true_eq] at hpending
  obtain ⟨hstatus, hsame⟩ := hpending
  have hfind : s.jobs.find? (·.id = job.id) = some job := jobByID_of_mem h.distinctIDs hmem
  rw [queuePositionLocked, hfind]
  simp only [hstatus, isDrainableRefreshStatus, decide_true, Bool.true_or, Bool.not_true, Bool.false_eq_true,
    if_false]
  rw [(perm_waitingOrder source s.jobs).countP_eq, List.countP_filter]
  congr 1
  refine List.countP_congr fun other hother => ?_
  have hwaits := hprocessing other hother
  simp only [Bool.and_eq_true, Bool.or_eq_true, decide_eq_true_eq, ne_eq, RefreshJob.isBefore_iff,
    RefreshJob.isPendingOf, hsource, false_or, hsame]
  constructor
  · rintro ⟨⟨⟨hdrainable, hother⟩, -⟩, hlt⟩
    exact ⟨hlt, hdrainable.resolve_right (hwaits hother), hother⟩
  · rintro ⟨hlt, hother, hsource⟩
    refine ⟨⟨⟨.inl hother, hsource⟩, fun hid => ?_⟩, hlt⟩
    have hjobs : other = job := List.inj_on_of_nodup_map h.distinctIDs ‹_› hmem hid
    exact absurd hlt (hjobs ▸ lt_irrefl _)

/-- After any run, while no job of a source is processing, workers that ask for the source are given its
pending jobs by their positions: the call with number `k` is given the job at position `k`, until none is
left. -/
theorem dequeues_eq_positions (ops : List QueueOp) {source : String} (hsource : source ≠ "")
    (hprocessing : ∀ job ∈ (queueRun ops).jobs, job.source = source → job.status ≠ .processing) :
    ∃ order : List RefreshJob,
      order.Perm ((queueRun ops).jobs.filter fun job => job.status = .pending ∧ job.source = source) ∧
      (∀ k job, order[k]? = some job → queuePositionLocked job.id (queueRun ops).jobs = k + 1) ∧
      ∀ (clocks : List ℤ) (k : ℕ), (dequeues source clocks (queueRun ops))[k]? =
        clocks[k]?.map fun now => order[k]?.map (RefreshJob.claim now) := by
  have hrun := ascending_queueRun ops
  refine ⟨waitingOrder source (queueRun ops).jobs, ?_, ?_, dequeues_getElem? hrun source⟩
  · refine (perm_waitingOrder source _).trans (List.Perm.of_eq (List.filter_congr fun job _ => ?_))
    simp [RefreshJob.isPendingOf, hsource]
  · intro k job hget
    rw [queuePositionLocked_eq hrun hsource hprocessing (List.mem_of_getElem? hget),
      countP_rank_lt (pairwise_waitingOrder hrun.distinctIDs source) hget, Nat.add_comm]

def waitingJobOf (source : String) (priority : ℤ) : NewRefreshJob :=
  ⟨"npm", "lodash", source, priority, "pending", none, ""⟩

/-- Two jobs of one source, the second one of the smaller priority. -/
def twoPriorities : List QueueOp :=
  [.enqueue 0 (waitingJobOf "socket" 2) .absent,
    .enqueue 1 ⟨"npm", "chalk", "socket", 1, "pending", none, ""⟩ .absent]

theorem dequeues_twoPriorities :
    (∀ job ∈ (queueRun twoPriorities).jobs, job.source = "socket" → job.status ≠ .processing) ∧
      ∃ order : List RefreshJob,
        order.Perm ((queueRun twoPriorities).jobs.filter fun job =>
          job.status = .pending ∧ job.source = "socket") ∧
        (∀ k job, order[k]? = some job →
          queuePositionLocked job.id (queueRun twoPriorities).jobs = k + 1) ∧
        ∀ (clocks : List ℤ) (k : ℕ), (dequeues "socket" clocks (queueRun twoPriorities))[k]? =
          clocks[k]?.map fun now => order[k]?.map (RefreshJob.claim now) := by
  have hwaiting : ∀ job ∈ (queueRun twoPriorities).jobs,
      job.source = "socket" → job.status ≠ .processing := by decide
  exact ⟨hwaiting, dequeues_eq_positions twoPriorities (by decide) hwaiting⟩

/-- A job of the empty source and a job of another one. -/
def emptySource : List QueueOp :=
  [.enqueue 0 (waitingJobOf "" 2) .absent, .enqueue 1 (waitingJobOf "socket" 1) .absent]

/-- The job of the empty source is at position 1, and the first call for that source is given a job of
another one. -/
theorem dequeues_emptySource :
    (∀ job ∈ (queueRun emptySource).jobs, job.source = "" → job.status ≠ .processing) ∧
      ((queueRun emptySource).jobs.filter fun job => job.status = .pending ∧ job.source = "").map
        RefreshJob.id = [1] ∧
      queuePositionLocked 1 (queueRun emptySource).jobs = 1 ∧
      (dequeues "" [2] (queueRun emptySource)).map (Option.map RefreshJob.id) = [some 2] := by
  decide

end Packmon.Queue

import Packmon.Admin.AuditIntegrity

/-!
# Writing, pruning and listing the admin audit log

A row is inserted under a lock of the table: its id comes from a sequence, its previous digest from the row
with the largest id and its time from the clock.  Old rows are deleted by their time, and pages are listed by
time and id.

The three orders agree (`AuditTable.Ordered`), so a page never shows a row next to one that it is not linked
to: `page_allVerified`.
-/

namespace Packmon.Admin

open GoText

/-- An entry with the texts the database stores for it. -/
structure AdminAuditEntry where
  action : String
  details : String
  ip : String
  correlationID : String

/-- The rows, the last id of the sequence and the last reading of the clock, in microseconds. -/
structure AuditTable where
  rows : List AdminAuditLogEntry
  lastID : ℤ
  clock : ℤ

/-- `SELECT row_digest … ORDER BY id DESC LIMIT 1` -/
def lastRowDigest (rows : List AdminAuditLogEntry) : String :=
  ((rows.mergeSort fun a b => b.id ≤ a.id).head?.map AdminAuditLogEntry.rowDigest).getD ""

section

variable (d : Digests) (key : List UInt8)

def insertAdminAuditLogTx (now : ℤ) (entry : Option AdminAuditEntry) (t : AuditTable) :
    Except String AuditTable :=
  match entry with
  | none => .error "postgres: admin audit entry is nil"
  | some entry =>
    if trimSpace entry.action = "" then .error "postgres: admin audit entry has no action"
    else
      let row : AdminAuditLogEntry := ⟨t.lastID + 1, entry.action, entry.details, entry.ip,
        entry.correlationID, now, lastRowDigest t.rows, ""⟩
      .ok ⟨t.rows ++ [{ row with rowDigest := computeAdminAuditDigest d key row }], t.lastID + 1, now⟩

end

/-- `ORDER BY created_at DESC, id DESC` -/
def isListedBefore (a b : AdminAuditLogEntry) : Bool :=
  b.createdAt < a.createdAt || (b.createdAt = a.createdAt && b.id ≤ a.id)

def clampLimit (limit fallback max : ℤ) : ℤ :=
  let limit := if limit ≤ 0 then fallback else limit
  if limit > max then max else limit

def listAdminAuditLogPage (limit offset : ℤ) (rows : List AdminAuditLogEntry) : List AdminAuditLogEntry :=
  ((rows.mergeSort isListedBefore).drop (if offset < 0 then 0 else offset).toNat).take
    (clampLimit limit 100 200).toNat

def pruneAdminAuditLogs (now retention : ℤ) (t : AuditTable) : AuditTable :=
  if retention ≤ 0 then t
  else { t with rows := t.rows.filter fun row => !decide (row.createdAt < now - retention) }

/-- A transaction that inserts a row some time after the last one, and commits or is rolled back; and a call
that prunes. -/
inductive AuditEvent where
  | insert (elapsed : ℕ) (entry : Option AdminAuditEntry) (commits : Bool)
  | prune (now retention : ℤ)

/-- A number of the sequence that was taken is not given back. -/
def auditStep (d : Digests) (key : List UInt8) (t : AuditTable) : AuditEvent → AuditTable
  | .insert elapsed entry commits =>
    match insertAdminAuditLogTx d key (t.clock + elapsed) entry t with
    | .error _ => t
    | .ok after => if commits then after else { after with rows := t.rows }
  | .prune now retention => pruneAdminAuditLogs now retention t

def auditRun (d : Digests) (key : List UInt8) (t : AuditTable) (events : List AuditEvent) : AuditTable :=
  events.foldl (auditStep d key) t

/-! ## The orders agree -/

/-- The rows in the order of their insertion: ids grow, times do not fall, and every row holds the digest of
the one before it that is still there, and its own. -/
structure AuditTable.Ordered (d : Digests) (key : List UInt8) (t : AuditTable) : Prop where
  increasing : t.rows.Pairwise fun older newer => older.id < newer.id ∧ older.createdAt ≤ newer.createdAt
  bounded : ∀ row ∈ t.rows, row.id ≤ t.lastID ∧ row.createdAt ≤ t.clock
  digests : ∀ row ∈ t.rows, row.rowDigest = computeAdminAuditDigest d key row
  linked : t.rows.IsChain fun older newer => newer.previousDigest = older.rowDigest

variable {d : Digests} {key : List UInt8} {t : AuditTable}

lemma mergeSort_eq_reverse {le : AdminAuditLogEntry → AdminAuditLogEntry → Bool}
    {rows : List AdminAuditLogEntry} (htrans : ∀ a b c, le a b = true → le b c = true → le a c = true)
    (htotal : ∀ a b, (le a b || le b a) = true) (hrows : rows.Pairwise fun a b => le b a = true ∧ le a b = false) :
    rows.mergeSort le = rows.reverse := by
  refine List.Perm.eq_of_pairwise ?_ (List.pairwise_mergeSort htrans htotal rows)
    (List.pairwise_reverse.2 (hrows.imp And.left)) ((List.mergeSort_perm rows le).trans rows.reverse_perm.symm)
  intro a b ha hb hab hba
  by_contra hne
  have hsymm : Std.Symm fun a b => ¬ (le a b = true ∧ le b a = true) := ⟨fun _ _ h hboth => h hboth.symm⟩
  have hstrict : rows.Pairwise fun a b => ¬ (le a b = true ∧ le b a = true) :=
    hrows.imp fun h hboth => by simp [h.2] at hboth
  exact hstrict.forall (List.mem_mergeSort.1 ha) (List.mem_reverse.1 hb) hne ⟨hab, hba⟩

lemma AuditTable.Ordered.lastRowDigest_eq (h : t.Ordered d key) :
    lastRowDigest t.rows = (t.rows.getLast?.map AdminAuditLogEntry.rowDigest).getD "" := by
  have hsort : t.rows.mergeSort (fun a b => b.id ≤ a.id) = t.rows.reverse := by
    refine mergeSort_eq_reverse (fun a b c hab hbc => ?_) (fun a b => ?_) (h.increasing.imp fun hlt => ?_)
    · simp only [decide_eq_true_eq] at hab hbc ⊢
      omega
    · simp only [Bool.or_eq_true, decide_eq_true_eq]
      omega
    · simp only [decide_eq_true_eq, decide_eq_false_iff_not]
      omega
  rw [lastRowDigest, hsort, List.head?_reverse]

lemma AuditTable.Ordered.listed_eq (h : t.Ordered d key) :
    t.rows.mergeSort isListedBefore = t.rows.reverse := by
  refine mergeSort_eq_reverse (fun a b c hab hbc => ?_) (fun a b => ?_) (h.increasing.imp fun hlt => ?_)
  · simp only [isListedBefore, Bool.or_eq_true, Bool.and_eq_true, decide_eq_true_eq] at hab hbc ⊢
    omega
  · simp only [isListedBefore, Bool.or_eq_true, Bool.and_eq_true, decide_eq_true_eq]
    omega
  · simp only [isListedBefore, Bool.or_eq_true, Bool.and_eq_true, decide_eq_true_eq, Bool.or_eq_false_iff,
      Bool.and_eq_false_iff, decide_eq_false_iff_not]
    omega

lemma AuditTable.Ordered.of_suffix (h : t.Ordered d key) {rows : List AdminAuditLogEntry}
    (hrows : rows <:+ t.rows) {lastID clock : ℤ} (hlast : t.lastID ≤ lastID) (hclock : t.clock ≤ clock) :
    AuditTable.Ordered d key ⟨rows, lastID, clock⟩ where
  increasing := h.increasing.sublist hrows.sublist
  bounded row hrow := by
    have hbound := h.bounded row (hrows.subset hrow)
    dsimp only
    omega
  digests row hrow := h.digests row (hrows.subset hrow)
  linked := h.linked.suffix hrows

/-- Rows are deleted from the old end. -/
lemma filter_suffix {cutoff : ℤ} {rows : List AdminAuditLogEntry}
    (h : rows.Pairwise fun older newer => older.createdAt ≤ newer.createdAt) :
    rows.filter (fun row => !decide (row.createdAt < cutoff)) <:+ rows := by
  induction rows with
  | nil => exact List.suffix_rfl
  | cons row rows ih =>
    obtain ⟨hrow, hrows⟩ := List.pairwise_cons.1 h
    by_cases hold : row.createdAt < cutoff
    · rw [List.filter_cons_of_neg (by simpa using hold)]
      exact (ih hrows).trans (List.suffix_cons row rows)
    · -- A row that stays keeps all later ones.
      have hall : (row :: rows).filter (fun row => !decide (row.createdAt < cutoff)) = row :: rows := by
        refine List.filter_eq_self.2 fun other hother => ?_
        rcases List.mem_cons.1 hother with rfl | hother
        · simpa using hold
        · have := hrow other hother
          simp only [Bool.not_eq_true', decide_eq_false_iff_not]
          omega
      rw [hall]

lemma AuditTable.Ordered.prune (h : t.Ordered d key) (now retention : ℤ) :
    (pruneAdminAuditLogs now retention t).Ordered d key := by
  unfold pruneAdminAuditLogs
  split_ifs
  · exact h
  · exact h.of_suffix (filter_suffix (h.increasing.imp And.right)) le_rfl le_rfl

/-- An insertion fails, or it appends a row that holds the last digest and its own. -/
lemma insert_cases (now : ℤ) (entry : Option AdminAuditEntry) (t : AuditTable) :
    (∃ message, insertAdminAuditLogTx d key now entry t = .error message) ∨
    ∃ row : AdminAuditLogEntry, row.id = t.lastID + 1 ∧ row.createdAt = now ∧
      row.previousDigest = lastRowDigest t.rows ∧ row.rowDigest = computeAdminAuditDigest d key row ∧
      insertAdminAuditLogTx d key now entry t = .ok ⟨t.rows ++ [row], t.lastID + 1, now⟩ := by
  unfold insertAdminAuditLogTx
  cases entry with
  | none => exact .inl ⟨_, rfl⟩
  | some entry =>
    dsimp only
    split_ifs
    · exact .inl ⟨_, rfl⟩
    · exact .inr ⟨_, rfl, rfl, rfl, rfl, rfl⟩

lemma AuditTable.Ordered.append (h : t.Ordered d key) {row : AdminAuditLogEntry} {now : ℤ}
    (hid : row.id = t.lastID + 1) (hcreated : row.createdAt = now) (hclock : t.clock ≤ now)
    (hprevious : row.previousDigest = lastRowDigest t.rows)
    (hdigest : row.rowDigest = computeAdminAuditDigest d key row) :
    AuditTable.Ordered d key ⟨t.rows ++ [row], t.lastID + 1, now⟩ where
  increasing := by
    refine List.pairwise_append.2 ⟨h.increasing, List.pairwise_singleton _ _, fun older holder newer hnewer => ?_⟩
    obtain rfl := List.mem_singleton.1 hnewer
    have hbound := h.bounded older holder
    omega
  bounded other hother := by
    rcases List.mem_append.1 hother with hother | hother
    · have hbound := h.bounded other hother
      dsimp only
      omega
    · obtain rfl := List.mem_singleton.1 hother
      dsimp only
      omega
  digests other hother := by
    rcases List.mem_append.1 hother with hother | hother
    · exact h.digests other hother
    · obtain rfl := List.mem_singleton.1 hother
      exact hdigest
  linked := by
    refine List.isChain_append.2 ⟨h.linked, List.isChain_singleton _, fun last hlast newer hnewer => ?_⟩
    obtain rfl : row = newer := by simpa using hnewer
    rw [hprevious, h.lastRowDigest_eq, Option.mem_def.1 hlast]
    rfl

lemma AuditTable.Ordered.step (h : t.Ordered d key) (event : AuditEvent) :
    (auditStep d key t event).Ordered d key := by
  cases event with
  | prune now retention => exact h.prune now retention
  | insert elapsed entry commits =>
    have hclock : t.clock ≤ t.clock + elapsed := by omega
    rw [auditStep]
    obtain ⟨message, herror⟩ | ⟨row, hid, hcreated, hprevious, hdigest, hok⟩ :=
      @insert_cases d key (t.clock + elapsed) entry t
    · rw [herror]
      exact h
    · rw [hok]
      dsimp only
      split_ifs
      · exact h.append hid hcreated hclock hprevious hdigest
      · exact h.of_suffix List.suffix_rfl (by omega) hclock

lemma auditRun_ordered (h : t.Ordered d key) (events : List AuditEvent) :
    (auditRun d key t events).Ordered d key := by
  induction events generalizing t with
  | nil => exact h
  | cons event events ih => exact ih (h.step event)

/-! ## Pages -/

/-- A row is verified under the digest it was written with. -/
lemma status_of_digest {row : AdminAuditLogEntry} (h : row.rowDigest = computeAdminAuditDigest d key row) :
    adminAuditIntegrityStatus d key row = .verified := by
  unfold computeAdminAuditDigest at h
  by_cases hkey : key = []
  · rw [if_neg (not_not.2 hkey)] at h
    exact status_sha256 h
  · rw [if_pos hkey] at h
    have hpre : hasPrefix adminAuditHMACSHA256Prefix row.rowDigest = true := by
      rw [h]
      exact hasPrefix_append _ _
    rw [status_hmac hkey hpre, if_pos h]

lemma AuditTable.Ordered.page_verified (h : t.Ordered d key) (limit offset : ℤ) :
    AllVerified d key (listAdminAuditLogPage limit offset t.rows) := by
  have hlinked : t.rows.reverse.IsChain fun newer older => isLinked newer older = true := by
    refine List.isChain_reverse.2 (h.linked.imp fun older newer hdigest => ?_)
    simp [isLinked, hdigest]
  have hpart : listAdminAuditLogPage limit offset t.rows <:+: t.rows.reverse := by
    rw [listAdminAuditLogPage, h.listed_eq]
    exact (List.take_prefix _ _).isInfix.trans (List.drop_suffix _ _).isInfix
  refine (allVerified_iff _).2 ⟨fun row hrow => status_of_digest (h.digests row ?_), List.IsChain.infix hlinked hpart⟩
  exact List.mem_reverse.1 (hpart.subset hrow)

/-- Whatever rows are inserted and pruned in whatever order, every page is reported as verified. -/
theorem page_allVerified (d : Digests) (key : List UInt8) (lastID clock : ℤ) (events : List AuditEvent)
    (limit offset : ℤ) :
    AllVerified d key (listAdminAuditLogPage limit offset (auditRun d key ⟨[], lastID, clock⟩ events).rows) := by
  have hempty : AuditTable.Ordered d key ⟨[], lastID, clock⟩ :=
    ⟨List.Pairwise.nil, by simp, by simp, List.isChain_nil⟩
  exact (auditRun_ordered hempty events).page_verified limit offset

end Packmon.Admin

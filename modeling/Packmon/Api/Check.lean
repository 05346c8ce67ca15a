import Packmon.Api.Idempotency
import Packmon.Library.Interleaving

/-!
# Check requests with an idempotency key

`HandleCheck` as threads: the key is looked up, the scan is built, its row is inserted and looked up again
in separate steps, each of them one statement of the store, and a repeated request may be answered from the
cache.  Statements may fail, and the answer to an insert that took effect may be lost.  The cache may
forget a response at any time.

All requests of one key that are answered with success agree on the request and on the scan
(`check_answers_agree`).
-/

namespace Packmon.Api

open Interleaving (Config run exec)

/-! ## The handler -/

/-- What a request asks for: its key, which may be empty, and the digest of its packages. -/
structure CheckRequest where
  idempotencyKey : String
  requestDigest : String
  deriving DecidableEq

/-- The status of a response and the scan it names. -/
structure CheckAnswer where
  status : ℕ
  scanID : Option String
  deriving DecidableEq

structure CheckState where
  scanLog : ScanLog
  cache : ResponseCache

/-- How a statement of the store ends; the answer to one that took effect may be lost. -/
inductive StoreOutcome where
  | done
  | failed
  | timedOut
  | lost
  deriving DecidableEq

def StoreOutcome.tookEffect : StoreOutcome → Bool
  | done | lost => true
  | failed | timedOut => false

/-- The answer to a request whose statement failed. -/
def checkStoreErrorResponse (outcome : StoreOutcome) : CheckAnswer :=
  match outcome with
  | .timedOut => ⟨503, none⟩
  | _ => ⟨500, none⟩

/-- Where a request is.  Keys are those still to be looked up. -/
inductive CheckStage where
  | resolving (keys : List String)
  | resolved (scanID : String) (replay : Bool)
  | building (scanID : String) (replay : Bool)
  | built (scanID : String) (replay : Bool)
  | verifying (scanID : String) (keys : List String)
  | passed (scanID : String)
  | answered (answer : CheckAnswer)
  deriving DecidableEq

inductive CheckThread where
  | idle
  | check (r : CheckRequest) (stage : CheckStage)
  deriving DecidableEq

/-- What happens at a step: a request arrives, with a random scan for one that has no key, its next
statement ends somehow, or a response is forgotten. -/
inductive CheckEvent where
  | arrive (header body random : String)
  | next (outcome : StoreOutcome)
  | evict (key : String)

/-- The row is of another request. -/
def isConflict (entry : ScanLogEntry) (requestDigest : String) : Bool :=
  entry.requestDigest ≠ "" && entry.requestDigest ≠ requestDigest

def conflictAnswer : CheckAnswer := ⟨409, none⟩

section Handler

variable (sha256 : String → BitVec 256)

def CheckRequest.storedKey (r : CheckRequest) : String := scanLogIdempotencyKey sha256 r.idempotencyKey

def CheckRequest.lookupKeys (r : CheckRequest) : List String :=
  scanLogIdempotencyLookupKeys (r.storedKey sha256) r.idempotencyKey

/-- The scan of a request with a key. -/
def CheckRequest.ownScanID (r : CheckRequest) : String :=
  scanIDForIdempotencyKey sha256 (r.storedKey sha256) r.requestDigest

def CheckRequest.cacheKey (r : CheckRequest) : String :=
  checkResponseCacheKey (r.storedKey sha256) r.requestDigest

def arrive (header body random : String) : CheckThread :=
  let digest := checkRequestDigest sha256 body
  match checkIdempotencyKey header with
  | .error _ => .check ⟨"", digest⟩ (.answered ⟨400, none⟩)
  | .ok key =>
    let r : CheckRequest := ⟨key, digest⟩
    .check r (if key = "" then .resolved random false else .resolving (r.lookupKeys sha256))

/-- The insert of the row of a scan. -/
def logScan (log : ScanLog) (r : CheckRequest) (scanID : String) (outcome : StoreOutcome) : ScanLog :=
  if outcome.tookEffect then insertScanLog log (r.storedKey sha256) scanID r.requestDigest else log

/-- A request without a key does not need its row; one with a key looks at it again. -/
def afterLogScan (r : CheckRequest) (scanID : String) (outcome : StoreOutcome) : CheckStage :=
  if outcome ≠ .done then
    if r.idempotencyKey ≠ "" then .answered ⟨500, none⟩ else .passed scanID
  else if r.storedKey sha256 = "" then .passed scanID
  else .verifying scanID (r.lookupKeys sha256)

def handleCheck (s : CheckState) (r : CheckRequest) (outcome : StoreOutcome) :
    CheckStage → Option (CheckState × CheckStage)
  | .resolving [] => some (s, .resolved (r.ownScanID sha256) false)
  | .resolving (key :: keys) =>
    some (s, if outcome ≠ .done then .answered (checkStoreErrorResponse outcome)
      else match getScanLogByIdempotencyKey s.scanLog key with
        | none => .resolving keys
        | some entry =>
          if isConflict entry r.requestDigest then .answered conflictAnswer
          else .resolved (if entry.scanID ≠ "" then entry.scanID else r.ownScanID sha256) true)
  | .resolved scanID replay =>
    some (s, if replay then
        match s.cache.get (r.cacheKey sha256) with
        | some response => .answered ⟨response.statusCode, some response.scanID⟩
        | none => .building scanID replay
      else .building scanID replay)
  | .building scanID replay =>
    some (s, if outcome ≠ .done then .answered (checkStoreErrorResponse outcome)
      else .built scanID replay)
  | .built scanID replay =>
    if replay then some (s, .passed scanID)
    else some ({ s with scanLog := logScan sha256 s.scanLog r scanID outcome },
      afterLogScan sha256 r scanID outcome)
  | .verifying scanID [] => some (s, .passed scanID)
  | .verifying scanID (key :: keys) =>
    some (s, if outcome ≠ .done then .answered (checkStoreErrorResponse outcome)
      else match getScanLogByIdempotencyKey s.scanLog key with
        | none => .verifying scanID keys
        | some entry =>
          if isConflict entry r.requestDigest then .answered conflictAnswer else .passed scanID)
  | .passed scanID =>
    some ({ s with cache := s.cache.set (r.cacheKey sha256) ⟨200, scanID⟩ }, .answered ⟨200, some scanID⟩)
  | .answered _ => none

/-- One step of a thread. -/
def checkStep (e : CheckEvent) (s : CheckState) : CheckThread → Option (CheckState × CheckThread)
  | .idle =>
    match e with
    | .arrive header body random => some (s, arrive sha256 header body random)
    | .evict key => some ({ s with cache := Function.update s.cache key none }, .idle)
    | .next _ => none
  | .check r stage =>
    match e with
    | .next outcome => (handleCheck sha256 s r outcome stage).map fun result =>
        (result.1, .check r result.2)
    | _ => none

/-- A server with an empty scan log. -/
def checkStart (n : ℕ) : Config CheckState CheckThread (Fin n) :=
  ⟨⟨[], fun _ => none⟩, fun _ => .idle⟩

end Handler

/-! ## The rows and the requests of one key -/

section Key

variable (sha256 : String → BitVec 256)

/-- The state as far as one key is concerned: it has one row at most, with the scan of the key and of the
digest, and the cache names that scan. -/
structure KeyState (key : String) (s : CheckState) : Prop where
  unique : KeysUnique s.scanLog
  names : ∀ entry ∈ s.scanLog, ∀ other, entry.idempotencyKey = some other → IsSumName other
  row : ∀ entry ∈ s.scanLog, entry.idempotencyKey = some (scanLogIdempotencyKey sha256 key) →
    IsSumName entry.requestDigest ∧
      entry.scanID =
        scanIDForIdempotencyKey sha256 (scanLogIdempotencyKey sha256 key) entry.requestDigest
  cached : ∀ digest response, IsSumName digest →
    s.cache (checkResponseCacheKey (scanLogIdempotencyKey sha256 key) digest) = some response →
    ⟨some (scanLogIdempotencyKey sha256 key), response.scanID, digest⟩ ∈ s.scanLog

/-- What a request of the key knows of the row.  One that goes on has the scan of the row or, as long as it
has not tried to insert it, the one it would have. -/
def CheckStage.Knows (log : ScanLog) (r : CheckRequest) : CheckStage → Prop
  | .resolving keys => keys ⊆ r.lookupKeys sha256
  | .resolved scanID replay | .building scanID replay | .built scanID replay =>
    if replay then ⟨some (r.storedKey sha256), scanID, r.requestDigest⟩ ∈ log
    else scanID = r.ownScanID sha256
  | .verifying scanID keys =>
    scanID = r.ownScanID sha256 ∧ (∃ entry ∈ log, entry.idempotencyKey = some (r.storedKey sha256)) ∧
      keys.head? = some (r.storedKey sha256)
  | .passed scanID => ⟨some (r.storedKey sha256), scanID, r.requestDigest⟩ ∈ log
  | .answered answer =>
    answer.status = 200 →
      ∃ scanID, answer.scanID = some scanID ∧ ⟨some (r.storedKey sha256), scanID, r.requestDigest⟩ ∈ log

variable {sha256} {key : String}

/-- Rows are not removed. -/
lemma CheckStage.Knows.mono {log log' : ScanLog} (hlog : log ⊆ log') {r : CheckRequest}
    {stage : CheckStage} (h : stage.Knows sha256 log r) : stage.Knows sha256 log' r := by
  cases stage with
  | resolving keys => exact h
  | resolved scanID replay | building scanID replay | built scanID replay =>
    cases replay with
    | true => exact hlog h
    | false => exact h
  | verifying scanID keys =>
    obtain ⟨hscan, ⟨entry, hmem, hentry⟩, hkeys⟩ := h
    exact ⟨hscan, ⟨entry, hlog hmem, hentry⟩, hkeys⟩
  | passed scanID => exact hlog h
  | answered answer =>
    intro hstatus
    obtain ⟨scanID, hscan, hmem⟩ := h hstatus
    exact ⟨scanID, hscan, hlog hmem⟩

lemma isSumName_scanLogIdempotencyKey {raw : String} (h : GoText.trimSpace raw ≠ "") :
    IsSumName (scanLogIdempotencyKey sha256 raw) := by
  unfold scanLogIdempotencyKey
  rw [if_neg h]
  exact isSumName_sumName sha256 _

lemma scanIDForIdempotencyKey_ne_empty (stored digest : String) :
    scanIDForIdempotencyKey sha256 stored digest ≠ "" := by
  intro h
  have hlength := congrArg (fun s => s.toList.length) h
  simp [scanIDForIdempotencyKey, hexSum, length_hexDigits] at hlength

/-- An accepted key that is not the name of a sum. -/
structure PlainKey (key : String) : Prop where
  accepted : checkIdempotencyKey key = .ok key
  ne_empty : key ≠ ""
  form : ¬ IsSumName key

lemma trimSpace_of_accepted {header key : String} (h : checkIdempotencyKey header = .ok key) :
    GoText.trimSpace key = key := by
  unfold checkIdempotencyKey at h
  dsimp only at h
  split_ifs at h with hempty
  · obtain rfl := Except.ok.inj h
    exact GoText.trimSpace_empty
  · obtain rfl := Except.ok.inj h
    exact GoText.trimSpace_trimSpace header

lemma PlainKey.trimSpace_eq (h : PlainKey key) : GoText.trimSpace key = key :=
  trimSpace_of_accepted h.accepted

lemma PlainKey.isSumName_stored (h : PlainKey key) : IsSumName (scanLogIdempotencyKey sha256 key) :=
  isSumName_scanLogIdempotencyKey (by rw [h.trimSpace_eq]; exact h.ne_empty)

/-- The key is looked up under its hash and then under its text. -/
lemma PlainKey.lookupKeys_eq (h : PlainKey key) {r : CheckRequest} (hr : r.idempotencyKey = key) :
    r.lookupKeys sha256 = [r.storedKey sha256, key] := by
  have hstored : IsSumName (r.storedKey sha256) := by
    rw [CheckRequest.storedKey, hr]
    exact h.isSumName_stored
  have hne : key ≠ r.storedKey sha256 := by
    intro heq
    exact h.form (heq ▸ hstored)
  unfold CheckRequest.lookupKeys scanLogIdempotencyLookupKeys
  rw [hr, hstored.trimSpace_eq, h.trimSpace_eq]
  simp [hstored.ne_empty, h.ne_empty, hne]

section Lookup

variable {s s' : CheckState} {r : CheckRequest} (hplain : PlainKey key) (hr : r.idempotencyKey = key)

include hplain hr

/-- What is found for a request of the key that does not conflict with it is its row. -/
lemma KeyState.eq_of_get (hs : KeyState sha256 key s) {found : String} {entry : ScanLogEntry}
    (hfound : found ∈ r.lookupKeys sha256) (hget : getScanLogByIdempotencyKey s.scanLog found = some entry)
    (hconflict : isConflict entry r.requestDigest = false) :
    entry ∈ s.scanLog ∧ entry = ⟨some (r.storedKey sha256), r.ownScanID sha256, r.requestDigest⟩ := by
  rw [hplain.lookupKeys_eq hr, List.mem_cons, List.mem_singleton] at hfound
  obtain rfl | rfl := hfound
  · have hstored : IsSumName (r.storedKey sha256) := by
      rw [CheckRequest.storedKey, hr]
      exact hplain.isSumName_stored
    obtain ⟨hmem, hentry⟩ := (get_eq_some_iff hs.unique hstored.trimSpace_eq hstored.ne_empty).mp hget
    refine ⟨hmem, ?_⟩
    rw [CheckRequest.storedKey, hr] at hentry
    obtain ⟨hdigest, hscan⟩ := hs.row entry hmem hentry
    have hsame : entry.requestDigest = r.requestDigest := by
      simpa [isConflict, hdigest.ne_empty] using hconflict
    obtain ⟨entryKey, scanID, digest⟩ := entry
    subst hsame
    simp only [CheckRequest.ownScanID, CheckRequest.storedKey, hr] at hentry hscan ⊢
    rw [hentry, hscan]
  · -- no row is stored under the text of the key
    obtain ⟨hmem, hentry⟩ := (get_eq_some_iff hs.unique hplain.trimSpace_eq hplain.ne_empty).mp hget
    exact absurd (hs.names entry hmem _ hentry) hplain.form

lemma handleCheck_knows (hs : KeyState sha256 key s) {outcome : StoreOutcome} {stage stage' : CheckStage}
    (hdigest : IsSumName r.requestDigest) (h : handleCheck sha256 s r outcome stage = some (s', stage'))
    (hknows : stage.Knows sha256 s.scanLog r) : stage'.Knows sha256 s'.scanLog r := by
  have hstored : IsSumName (r.storedKey sha256) := by
    rw [CheckRequest.storedKey, hr]
    exact hplain.isSumName_stored
  have hfailed : ∀ outcome, (CheckStage.answered (checkStoreErrorResponse outcome)).Knows sha256
      s.scanLog r := by
    intro outcome hstatus
    cases outcome <;> simp [checkStoreErrorResponse] at hstatus
  have hconflicts : (CheckStage.answered conflictAnswer).Knows sha256 s.scanLog r := by
    intro hstatus
    simp [conflictAnswer] at hstatus
  cases stage with
  | resolving keys =>
    cases keys with
    | nil =>
      obtain ⟨rfl, rfl⟩ := Prod.mk.inj (Option.some.inj h)
      rfl
    | cons found keys =>
      obtain ⟨rfl, rfl⟩ := Prod.mk.inj (Option.some.inj h)
      obtain ⟨hfound, hkeys⟩ := List.cons_subset.mp hknows
      split_ifs
      · exact hfailed _
      · cases hget : getScanLogByIdempotencyKey s.scanLog found with
        | none => exact hkeys
        | some entry =>
          cases hconflict : isConflict entry r.requestDigest with
          | true => simpa [hconflict] using hconflicts
          | false =>
            obtain ⟨hmem, rfl⟩ := hs.eq_of_get hplain hr hfound hget hconflict
            have hne : r.ownScanID sha256 ≠ "" := scanIDForIdempotencyKey_ne_empty _ _
            simpa [hconflict, hne, CheckStage.Knows] using hmem
  | resolved scanID replay =>
    obtain ⟨rfl, rfl⟩ := Prod.mk.inj (Option.some.inj h)
    split_ifs with hreplay
    · cases hget : s.cache.get (r.cacheKey sha256) with
      | none => exact hknows
      | some response =>
        intro _
        refine ⟨response.scanID, rfl, ?_⟩
        have hcached : s.cache (r.cacheKey sha256) = some response := by
          unfold ResponseCache.get at hget
          split_ifs at hget
          exact hget
        rw [CheckRequest.cacheKey, CheckRequest.storedKey, hr] at hcached
        rw [CheckRequest.storedKey, hr]
        exact hs.cached _ _ hdigest hcached
    · exact hknows
  | building scanID replay =>
    obtain ⟨rfl, rfl⟩ := Prod.mk.inj (Option.some.inj h)
    split_ifs
    · exact hfailed _
    · exact hknows
  | built scanID replay =>
    cases replay with
    | true =>
      obtain ⟨rfl, rfl⟩ := Prod.mk.inj (Option.some.inj h)
      exact hknows
    | false =>
      obtain ⟨rfl, rfl⟩ := Prod.mk.inj (Option.some.inj h)
      unfold afterLogScan
      split_ifs with hfails hkey hnone
      · intro hstatus
        simp at hstatus
      · exact absurd (hr ▸ hplain.ne_empty) hkey
      · exact absurd hnone hstored.ne_empty
      · rw [ne_eq, not_not] at hfails
        have hscan : scanID = r.ownScanID sha256 := by simpa [CheckStage.Knows] using hknows
        have hlog : logScan sha256 s.scanLog r scanID outcome =
            insertScanLog s.scanLog (r.storedKey sha256) scanID r.requestDigest := by
          simp [logScan, hfails, StoreOutcome.tookEffect]
        simp only [CheckStage.Knows, hlog, hplain.lookupKeys_eq hr, List.head?_cons]
        exact ⟨hscan, exists_mem_insertScanLog hstored.ne_empty _ _ _, trivial⟩
  | verifying scanID keys =>
    obtain ⟨hscan, ⟨row, hrow, hkey⟩, hhead⟩ := hknows
    cases keys with
    | nil => simp at hhead
    | cons found keys =>
      obtain rfl : found = r.storedKey sha256 := by simpa using hhead
      obtain ⟨rfl, rfl⟩ := Prod.mk.inj (Option.some.inj h)
      have hget := (get_eq_some_iff hs.unique hstored.trimSpace_eq hstored.ne_empty).mpr ⟨hrow, hkey⟩
      rw [hget]
      split_ifs with hdone
      · exact hfailed _
      · cases hconflict : isConflict row r.requestDigest with
        | true => simpa [hconflict] using hconflicts
        | false =>
          have hfound : r.storedKey sha256 ∈ r.lookupKeys sha256 := by
            rw [hplain.lookupKeys_eq hr]
            exact List.mem_cons_self
          obtain ⟨hmem, rfl⟩ := hs.eq_of_get hplain hr hfound hget hconflict
          simpa [hconflict, hscan, CheckStage.Knows] using hmem
  | passed scanID =>
    obtain ⟨rfl, rfl⟩ := Prod.mk.inj (Option.some.inj h)
    exact fun _ => ⟨scanID, rfl, hknows⟩
  | answered answer => exact absurd h (by simp [handleCheck])

end Lookup

section States

variable {s s' : CheckState} {r : CheckRequest} {outcome : StoreOutcome} {stage stage' : CheckStage}

lemma CheckRequest.storedKey_spec (r : CheckRequest) :
    r.storedKey sha256 = "" ∨ IsSumName (r.storedKey sha256) := by
  by_cases hblank : GoText.trimSpace r.idempotencyKey = ""
  · exact .inl (by simp [CheckRequest.storedKey, scanLogIdempotencyKey, hblank])
  · exact .inr (isSumName_scanLogIdempotencyKey hblank)

/-- A step inserts the row of a request, caches its response, or changes nothing. -/
lemma handleCheck_cases (h : handleCheck sha256 s r outcome stage = some (s', stage')) :
    s' = s ∨
      (∃ scanID, stage = .built scanID false ∧
        s' = { s with scanLog := insertScanLog s.scanLog (r.storedKey sha256) scanID r.requestDigest }) ∨
      ∃ scanID, stage = .passed scanID ∧
        s' = { s with cache := s.cache.set (r.cacheKey sha256) ⟨200, scanID⟩ } := by
  cases stage with
  | resolving keys | verifying scanID keys =>
    cases keys <;> exact .inl (Prod.mk.inj (Option.some.inj h)).1.symm
  | resolved scanID replay | building scanID replay =>
    exact .inl (Prod.mk.inj (Option.some.inj h)).1.symm
  | built scanID replay =>
    cases replay with
    | true => exact .inl (Prod.mk.inj (Option.some.inj h)).1.symm
    | false =>
      have hs' := (Prod.mk.inj (Option.some.inj h)).1.symm
      unfold logScan at hs'
      split_ifs at hs' with heffect
      · exact .inr (.inl ⟨scanID, rfl, hs'⟩)
      · exact .inl hs'
  | passed scanID => exact .inr (.inr ⟨scanID, rfl, (Prod.mk.inj (Option.some.inj h)).1.symm⟩)
  | answered answer => exact absurd h (by simp [handleCheck])

lemma handleCheck_subset (h : handleCheck sha256 s r outcome stage = some (s', stage')) :
    s.scanLog ⊆ s'.scanLog := by
  obtain rfl | ⟨scanID, -, rfl⟩ | ⟨scanID, -, rfl⟩ := handleCheck_cases h
  · exact List.Subset.refl _
  · exact fun _ => mem_insertScanLog_of_mem
  · exact List.Subset.refl _

/-- The row of a request of another key does not matter, and the row of one of this key has its scan. -/
lemma KeyState.insert (hs : KeyState sha256 key s) {stored scanID digest : String}
    (hstored : stored = "" ∨ IsSumName stored)
    (hown : stored = scanLogIdempotencyKey sha256 key →
      IsSumName digest ∧ scanID = scanIDForIdempotencyKey sha256 stored digest) :
    KeyState sha256 key { s with scanLog := insertScanLog s.scanLog stored scanID digest } := by
  refine ⟨hs.unique.insert stored scanID digest, ?_, ?_, ?_⟩
  · intro entry hmem other hother
    obtain hmem | rfl | ⟨hne, rfl⟩ := mem_or_eq_of_mem_insertScanLog hmem
    · exact hs.names entry hmem other hother
    · exact absurd hother (by simp)
    · obtain rfl := Option.some.inj hother
      exact hstored.resolve_left hne
  · intro entry hmem hkey
    obtain hmem | rfl | ⟨-, rfl⟩ := mem_or_eq_of_mem_insertScanLog hmem
    · exact hs.row entry hmem hkey
    · exact absurd hkey (by simp)
    · have hsame := Option.some.inj hkey
      rw [← hsame]
      exact hown hsame
  · intro other response hother hcached
    exact mem_insertScanLog_of_mem (hs.cached other response hother hcached)

/-- A response of a request of another key does not matter, and one of this key names the scan of its
row. -/
lemma KeyState.cache (hplain : PlainKey key) (hs : KeyState sha256 key s)
    (hdigest : IsSumName r.requestDigest)
    (hcollision : r.storedKey sha256 = scanLogIdempotencyKey sha256 key → r.idempotencyKey = key)
    {scanID : String} (hrow : r.idempotencyKey = key →
      ⟨some (r.storedKey sha256), scanID, r.requestDigest⟩ ∈ s.scanLog) :
    KeyState sha256 key { s with cache := s.cache.set (r.cacheKey sha256) ⟨200, scanID⟩ } := by
  refine ⟨hs.unique, hs.names, hs.row, ?_⟩
  intro digest response hother hcached
  unfold ResponseCache.set at hcached
  dsimp only at hcached
  split_ifs at hcached with hskip
  · exact hs.cached digest response hother hcached
  · by_cases hsame : checkResponseCacheKey (scanLogIdempotencyKey sha256 key) digest = r.cacheKey sha256
    · -- the response is stored under the key and the digest of this request
      have hstored : IsSumName (r.storedKey sha256) := by
        refine (r.storedKey_spec).resolve_left ?_
        intro hempty
        exact hskip (.inl (by simp [CheckRequest.cacheKey, checkResponseCacheKey, hempty]))
      obtain ⟨hkey, rfl⟩ := checkResponseCacheKey_inj hplain.isSumName_stored hstored hother hdigest hsame
      rw [hsame, Function.update_self] at hcached
      obtain rfl := Option.some.inj hcached
      rw [hkey]
      exact hrow (hcollision hkey.symm)
    · rw [Function.update_of_ne hsame] at hcached
      exact hs.cached digest response hother hcached

end States

/-! ## Runs -/

/-- A request that arrives is of this key, or of one with another hash. -/
def CheckEvent.NoCollision (sha256 : String → BitVec 256) (key : String) (e : CheckEvent) : Prop :=
  ∀ header body random other, e = .arrive header body random → checkIdempotencyKey header = .ok other →
    scanLogIdempotencyKey sha256 other = scanLogIdempotencyKey sha256 key → other = key

/-- A request has a digest, collides with no other key, and knows its row if it is of this key. -/
def CheckThread.Valid (sha256 : String → BitVec 256) (key : String) (log : ScanLog) (t : CheckThread) :
    Prop :=
  ∀ r stage, t = .check r stage → IsSumName r.requestDigest ∧
    (r.storedKey sha256 = scanLogIdempotencyKey sha256 key → r.idempotencyKey = key) ∧
    (r.idempotencyKey = key → stage.Knows sha256 log r)

lemma CheckThread.Valid.mono {log log' : ScanLog} (hlog : log ⊆ log') {t : CheckThread}
    (h : t.Valid sha256 key log) : t.Valid sha256 key log' := by
  intro r stage ht
  obtain ⟨hdigest, hcollision, hknows⟩ := h r stage ht
  exact ⟨hdigest, hcollision, fun hr => (hknows hr).mono hlog⟩

/-- A request that arrives knows nothing yet. -/
lemma valid_arrive (hplain : PlainKey key) {log : ScanLog} {header body random : String}
    (hcollision : (CheckEvent.arrive header body random).NoCollision sha256 key) :
    (arrive sha256 header body random).Valid sha256 key log := by
  have hdigest : IsSumName (checkRequestDigest sha256 body) := isSumName_sumName sha256 body
  have hempty : scanLogIdempotencyKey sha256 "" ≠ scanLogIdempotencyKey sha256 key := by
    intro heq
    refine hplain.isSumName_stored.ne_empty (heq.symm.trans ?_)
    simp [scanLogIdempotencyKey]
  intro r stage ht
  unfold arrive at ht
  dsimp only at ht
  cases haccepted : checkIdempotencyKey header with
  | error message =>
    rw [haccepted] at ht
    obtain ⟨rfl, rfl⟩ := CheckThread.check.inj ht
    exact ⟨hdigest, fun heq => absurd heq hempty, fun hr => absurd hr.symm hplain.ne_empty⟩
  | ok other =>
    rw [haccepted] at ht
    obtain ⟨rfl, rfl⟩ := CheckThread.check.inj ht
    refine ⟨hdigest, hcollision header body random other rfl haccepted, ?_⟩
    rintro rfl
    rw [if_neg hplain.ne_empty]
    exact List.Subset.refl _

/-- One step keeps the rows and the requests of a key in order. -/
lemma keyState_exec (hplain : PlainKey key) {ι : Type} [DecidableEq ι]
    {c c' : Config CheckState CheckThread ι} {i : ι} {e : CheckEvent}
    (hcollision : e.NoCollision sha256 key)
    (h : KeyState sha256 key c.shared ∧ ∀ i, (c.thread i).Valid sha256 key c.shared.scanLog)
    (hexec : exec (checkStep sha256) c i e = some c') :
    KeyState sha256 key c'.shared ∧ ∀ i, (c'.thread i).Valid sha256 key c'.shared.scanLog := by
  obtain ⟨hs, hthreads⟩ := h
  obtain ⟨s', t', hstep, rfl⟩ := Interleaving.exec_eq_some.mp hexec
  have hnext : KeyState sha256 key s' ∧ c.shared.scanLog ⊆ s'.scanLog ∧
      t'.Valid sha256 key s'.scanLog := by
    cases hthread : c.thread i with
    | idle =>
      rw [hthread] at hstep
      cases e with
      | next outcome => exact absurd hstep (by simp [checkStep])
      | arrive header body random =>
        obtain ⟨rfl, rfl⟩ := Prod.mk.inj (Option.some.inj hstep)
        exact ⟨hs, List.Subset.refl _, valid_arrive hplain hcollision⟩
      | evict evicted =>
        obtain ⟨rfl, rfl⟩ := Prod.mk.inj (Option.some.inj hstep)
        refine ⟨⟨hs.unique, hs.names, hs.row, ?_⟩, List.Subset.refl _, fun _ _ ht => by cases ht⟩
        intro digest response hdigest hcached
        refine hs.cached digest response hdigest ?_
        dsimp only at hcached
        rw [Function.update_apply] at hcached
        split_ifs at hcached
        exact hcached
    | check r stage =>
      rw [hthread] at hstep
      cases e with
      | arrive header body random => exact absurd hstep (by simp [checkStep])
      | evict evicted => exact absurd hstep (by simp [checkStep])
      | next outcome =>
        obtain ⟨⟨next, stage'⟩, hnext, heq⟩ := Option.map_eq_some_iff.mp hstep
        obtain ⟨rfl, rfl⟩ := Prod.mk.inj heq
        obtain ⟨hdigest, hother, hknows⟩ := hthreads i r stage hthread
        refine ⟨?_, handleCheck_subset hnext, ?_⟩
        · obtain rfl | ⟨scanID, rfl, rfl⟩ | ⟨scanID, rfl, rfl⟩ := handleCheck_cases hnext
          · exact hs
          · refine hs.insert r.storedKey_spec fun hsame => ⟨hdigest, ?_⟩
            simpa [CheckStage.Knows, CheckRequest.ownScanID] using hknows (hother hsame)
          · exact hs.cache hplain hdigest hother hknows
        · intro r' stage'' ht
          obtain ⟨rfl, rfl⟩ := CheckThread.check.inj ht
          exact ⟨hdigest, hother, fun hr => handleCheck_knows hplain hr hs hdigest hnext (hknows hr)⟩
  exact ⟨hnext.1, (Function.forall_update_iff c.thread fun _ t => t.Valid sha256 key s'.scanLog).mpr
    ⟨hnext.2.2, fun j _ => (hthreads j).mono hnext.2.1⟩⟩

end Key

/-- In every run, a key that is not the name of a sum has one row at most, and all requests of the key that
are answered with success are the same request and name the same scan. -/
theorem check_answers_agree {sha256 : String → BitVec 256} {n : ℕ}
    {schedule : List (Fin n × CheckEvent)} {c : Config CheckState CheckThread (Fin n)}
    (hrun : run (checkStep sha256) (checkStart n) schedule = some c) {key : String}
    (hplain : PlainKey key) (hcollision : ∀ event ∈ schedule, event.2.NoCollision sha256 key) :
    (c.shared.scanLog.filter (hasKey (scanLogIdempotencyKey sha256 key))).length ≤ 1 ∧
      ∀ i j r r' answer answer', c.thread i = .check r (.answered answer) →
        c.thread j = .check r' (.answered answer') → r.idempotencyKey = key → r'.idempotencyKey = key →
        answer.status = 200 → answer'.status = 200 →
        r.requestDigest = r'.requestDigest ∧ answer.scanID = answer'.scanID := by
  have hstart : KeyState sha256 key (checkStart n).shared ∧
      ∀ i, ((checkStart n).thread i).Valid sha256 key (checkStart n).shared.scanLog := by
    refine ⟨⟨keysUnique_nil, ?_, ?_, ?_⟩, fun _ _ _ ht => by cases ht⟩
    · intro entry hmem
      exact absurd hmem List.not_mem_nil
    · intro entry hmem
      exact absurd hmem List.not_mem_nil
    · intro digest response _ hcached
      exact absurd hcached (by simp [checkStart])
  obtain ⟨hs, hthreads⟩ := Interleaving.run_invariant_of
    (fun _ _ _ _ he h hexec => keyState_exec hplain he h hexec) hcollision hstart hrun
  refine ⟨hs.unique _, ?_⟩
  intro i j r r' answer answer' hi hj hr hr' hstatus hstatus'
  obtain ⟨scanID, hscan, hrow⟩ := (hthreads i r _ hi).2.2 hr hstatus
  obtain ⟨scanID', hscan', hrow'⟩ := (hthreads j r' _ hj).2.2 hr' hstatus'
  have hsame : r.storedKey sha256 = r'.storedKey sha256 := by
    rw [CheckRequest.storedKey, CheckRequest.storedKey, hr, hr']
  rw [hsame] at hrow
  have heq := hs.unique.eq hrow hrow' rfl rfl
  simp only [ScanLogEntry.mk.injEq] at heq
  rw [hscan, hscan', heq.2.1]
  exact ⟨heq.2.2, rfl⟩

section Concurrent

/-- Some statements of one request, all of them done. -/
def statements (i : Fin 2) (k : ℕ) : List (Fin 2 × CheckEvent) := List.replicate k (i, .next .done)

/-- Two requests with one key, both built before either of them is stored. -/
def twoChecks : List (Fin 2 × CheckEvent) :=
  [(0, .arrive "build-7" "[]" ""), (1, .arrive "build-7" "[]" "")] ++ statements 0 5 ++ statements 1 5 ++
    statements 0 3 ++ statements 1 3

lemma plainKey_build : PlainKey "build-7" := by
  refine ⟨by decide +kernel, by decide, ?_⟩
  rintro ⟨digits, hlength, -, hname⟩
  have := congrArg (fun s => s.toList.length) hname
  simp [hlength] at this

lemma twoChecks_noCollision : ∀ event ∈ twoChecks, event.2.NoCollision (fun _ => 0) "build-7" := by
  have hkeys : twoChecks.all fun event =>
      match event.2 with
      | .arrive header _ _ => (checkIdempotencyKey header).toOption = some "build-7"
      | _ => true := by
    decide +kernel
  rintro event hmem header body random other harrive haccepted -
  have hkey := List.all_eq_true.mp hkeys event hmem
  rw [harrive] at hkey
  simpa [haccepted, Except.toOption] using hkey

def buildRequest : CheckRequest := ⟨"build-7", checkRequestDigest (fun _ => 0) "[]"⟩

def buildAnswered : CheckThread :=
  .check buildRequest (.answered ⟨200, some (buildRequest.ownScanID fun _ => 0)⟩)

end Concurrent

/-- Two concurrent requests with one key are both answered with success, and one row is stored. -/
theorem check_answers_agree_concurrent :
    ∃ c : Config CheckState CheckThread (Fin 2),
      run (checkStep fun _ => 0) (checkStart 2) twoChecks = some c ∧
      c.thread 0 = buildAnswered ∧ c.thread 1 = buildAnswered ∧
      (c.shared.scanLog.filter (hasKey (scanLogIdempotencyKey (fun _ => 0) "build-7"))).length ≤ 1 := by
  have hrun : (run (checkStep fun _ => 0) (checkStart 2) twoChecks).any fun c =>
      c.thread 0 = buildAnswered ∧ c.thread 1 = buildAnswered := by
    decide +kernel
  obtain ⟨c, hc, hthreads⟩ := (Option.any_eq_true _ _).mp hrun
  obtain ⟨hfirst, hsecond⟩ := of_decide_eq_true hthreads
  exact ⟨c, hc, hfirst, hsecond, (check_answers_agree hc plainKey_build twoChecks_noCollision).1⟩

end Packmon.Api

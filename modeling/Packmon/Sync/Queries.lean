import Packmon.Library.Keyset
import Packmon.Sync.Export

/-!
# The page queries

What the statements of one page read (`PageView`: the advisories a delta selects, with their affected
rows in scope, and the selected rows of the other datasets) and what each query makes of it: the
advisory page query with its running row count and look-ahead, the split query, and the row queries
with keyset cursor, limit and offset.  `exportSync` runs the builders over the query results and
assembles the page.

How a view comes out of the server's tables is the subject of `Packmon.Sync.Database`.
-/

namespace Packmon

open Keyset (behind orderBy)

/-- The key of an affected row inside its advisory. -/
def SyncVulnerability.rowKey (row : SyncVulnerability) : List String := [row.ecosystem, row.name]

/-- An advisory with its affected rows in scope, one for each package. -/
structure Advisory where
  id : String
  rows : List SyncVulnerability
  rows_id : ∀ row ∈ rows, row.id = id
  rows_nodup : (rows.map SyncVulnerability.rowKey).Nodup

/-- All parts of the row cursor behind this row are nonempty. -/
def SyncVulnerability.Named (row : SyncVulnerability) : Prop :=
  row.id ≠ "" ∧ row.ecosystem ≠ "" ∧ row.name ≠ ""

/-- What the statements of one page read. -/
structure PageView where
  /-- The advisories a delta selects. -/
  changed : List Advisory := []
  /-- The advisories within the snapshot bound, where a split advisory is looked up. -/
  current : List Advisory := []
  /-- The affected rows of row paging. -/
  vulnerabilities : List SyncVulnerability := []
  /-- The completeness check of a split advisory. -/
  splitUnchanged : String → Bool := fun _ => false
  malicious : List SyncMalicious := []
  reputation : List SyncReputationFinding := []
  lifecycle : List SyncLifecycleRelease := []

/-! ## The vulnerability queries -/

/-- The rows an advisory takes on a page: one marker row when it has no affected row in scope. -/
def Advisory.rowCount (a : Advisory) : ℕ := max 1 a.rows.length

/-- The advisories of a page: the first candidate, and every candidate up to which the running count
of rows stays within the limit. -/
def pageVulnerabilities (limit : ℕ) : (position cumulative : ℕ) → List Advisory → List Advisory
  | _, _, [] => []
  | position, cumulative, a :: rest =>
    if position = 1 ∨ cumulative + a.rowCount ≤ limit then
      a :: pageVulnerabilities limit (position + 1) (cumulative + a.rowCount) rest
    else pageVulnerabilities limit (position + 1) (cumulative + a.rowCount) rest

/-- The result rows of one advisory. -/
def Advisory.scanned (hasMore : Bool) (a : Advisory) : List ScannedRow :=
  if a.rows = [] then [{ item := { id := a.id }, withoutAffected := true, hasMore }]
  else (orderBy SyncVulnerability.rowKey a.rows).map fun item => { item, hasMore }

/-- One page of a delta paged by whole advisories. -/
def exportSyncVulnerabilityAdvisoryPageQuery (changed : List Advisory) (afterID : Option String)
    (limit : ℕ) : List ScannedRow :=
  let candidates := behind Advisory.id afterID changed
  let candidates := if limit > 0 then candidates.take (limit + 1) else candidates
  let page := if limit > 0 then pageVulnerabilities limit 1 0 candidates else candidates
  page.flatMap (Advisory.scanned (candidates.length > page.length))

/-- The affected rows of an advisory. -/
def affectedRows (current : List Advisory) (id : String) : List SyncVulnerability :=
  (current.filter fun a => a.id = id).flatMap Advisory.rows

/-- The next rows of a split advisory, with one row more than the limit. -/
def exportSyncSplitAdvisoryQuery (current : List Advisory) (id ecosystem name : String)
    (limit : ℕ) : List ScannedRow :=
  let rows := behind SyncVulnerability.rowKey (some [ecosystem, name]) (affectedRows current id)
  let rows := if limit > 0 then rows.take (limit + 1) else rows
  rows.map fun item => { item }

/-- The limit and offset of a row query; a keyset cursor wins over an offset. -/
def limitOffset {T : Type} (rawCursor : String) (limit offset : ℕ) (rows : List T) : List T :=
  if limit > 0 then
    (if offset > 0 ∧ rawCursor = "" then rows.drop offset else rows).take limit
  else rows

/-- The key order of a row-paged vulnerability query. -/
def SyncVulnerability.pagingKey (paging : SyncVulnerabilityPaging) (row : SyncVulnerability) :
    List String :=
  if paging = .deltaRowOffset then [row.id, row.ecosystem, row.name] else row.key

/-- A cursor the exporter cannot read. -/
def invalidCursor (dataset : String) : String := "postgres: invalid " ++ dataset ++ " sync cursor"

/-- The keyset of a row query, or an error when it has not the wanted parts. -/
def rowCursor (dataset rawCursor : String) (parts : ℕ) : Except String (Option (List String)) :=
  if rawCursor = "" then .ok none
  else match decodeSyncCursorKey rawCursor parts with
    | some cursor => .ok (some cursor)
    | none => .error (invalidCursor dataset)

lemma rowCursor_of_decode {dataset raw : String} {parts : ℕ} {values : List String}
    (hraw : raw ≠ "") (h : decodeSyncCursorKey raw parts = some values) :
    rowCursor dataset raw parts = .ok (some values) := by
  unfold rowCursor
  rw [if_neg hraw]
  simp only [h]

/-- A keyset string the exporter wrote is read back as its values. -/
@[simp] lemma rowCursor_encode (dataset : String) (values : List String) :
    rowCursor dataset (encodeSyncCursorKey values) values.length = .ok (some values) :=
  rowCursor_of_decode (encodeSyncCursorKey_ne_empty values) (by simp)

@[simp] lemma rowCursor_empty (dataset : String) (parts : ℕ) :
    rowCursor dataset "" parts = .ok none := rfl

/-- The result rows of the vulnerability query of a request. -/
def exportSyncVulnerabilitiesQuery (view : PageView) (opts : SyncExportOptions) :
    Except String (List ScannedRow) :=
  let raw := opts.cursor.vulnerabilitiesCursor
  match syncVulnerabilityPagingFor opts with
  | .advisoryPages =>
    if raw = "" then .ok (exportSyncVulnerabilityAdvisoryPageQuery view.changed none opts.limit)
    else match decodeSyncAdvisoryCursor raw with
      | some afterID =>
        .ok (exportSyncVulnerabilityAdvisoryPageQuery view.changed (some afterID) opts.limit)
      | none => .error (invalidCursor "vulnerability")
  | .advisorySplit =>
    match decodeSyncAdvisoryRowCursor raw with
    | some (id, ecosystem, name) =>
      .ok (exportSyncSplitAdvisoryQuery view.current id ecosystem name opts.limit)
    | none => .error (invalidCursor "vulnerability")
  | paging =>
    (rowCursor "vulnerability" raw 3).map fun cursor =>
      let rows := view.vulnerabilities.filter fun row => Keyset.isBehind cursor row.key
      let rows := orderBy (SyncVulnerability.pagingKey paging) rows
      (limitOffset raw opts.limit opts.offset rows).map fun item => { item }

/-- The advisory a request continues inside. -/
def splitAdvisoryOf (opts : SyncExportOptions) : String :=
  if syncVulnerabilityPagingFor opts = .advisorySplit then
    ((decodeSyncAdvisoryRowCursor opts.cursor.vulnerabilitiesCursor).map Prod.fst).getD ""
  else ""

/-- The completeness check on the last page of a split advisory. -/
def SyncVulnerabilityPage.checkSplit (page : SyncVulnerabilityPage)
    (syncSplitAdvisoryUnchanged : String → Bool) : SyncVulnerabilityPage :=
  if page.splitLast then
    { page with splitComplete := syncSplitAdvisoryUnchanged page.splitAdvisoryID }
  else page

/-- One page of the vulnerability dataset. -/
def exportSyncVulnerabilities (budget : ℤ) (view : PageView) (opts : SyncExportOptions) :
    Except String SyncVulnerabilityPage :=
  (exportSyncVulnerabilitiesQuery view opts).map fun rows =>
    ((newSyncVulnerabilityPageBuilder (syncVulnerabilityPagingFor opts) opts.limit
      (splitAdvisoryOf opts) budget).addAll rows).finish.checkSplit view.splitUnchanged

/-! ## The row-paged datasets -/

/-- One page of a dataset paged by rows, from the rows its filters select. -/
def exportSyncRows {T : Type} (dataset : String) (key : T → List String) (parts : ℕ) (budget : ℤ)
    (wireBytes : T → ℕ) (rows : List T) (rawCursor : String) (limit offset : ℕ) :
    Except String (SyncRowPage T) :=
  (rowCursor dataset rawCursor parts).map fun cursor =>
    ((newSyncRowPageBuilder limit budget wireBytes).addAll
      (limitOffset rawCursor limit offset (behind key cursor rows))).finish

/-- One page of the malicious dataset. -/
def exportSyncMalicious (budget : ℤ) (view : PageView) (opts : SyncExportOptions) :
    Except String (SyncRowPage SyncMalicious) :=
  exportSyncRows "malicious" SyncMalicious.key 3 budget syncMaliciousWireBytes view.malicious
    opts.cursor.maliciousCursor opts.limit opts.offset

/-- One page of the reputation dataset. -/
def exportSyncReputation (budget : ℤ) (view : PageView) (opts : SyncExportOptions) :
    Except String (SyncRowPage SyncReputationFinding) :=
  exportSyncRows "reputation" SyncReputationFinding.key 3 budget syncReputationWireBytes
    view.reputation opts.cursor.reputationCursor opts.limit opts.offset

/-- One page of the lifecycle dataset. -/
def exportSyncLifecycle (budget : ℤ) (view : PageView) (opts : SyncExportOptions) :
    Except String (SyncRowPage SyncLifecycleRelease) :=
  exportSyncRows "lifecycle" SyncLifecycleRelease.key 4 budget syncLifecycleWireBytes
    view.lifecycle opts.cursor.lifecycleCursor opts.limit opts.offset

/-! ## The page -/

/-- The byte budgets of a page. -/
structure SyncPageBudgets where
  vulnerabilities : ℤ := syncVulnerabilityPageByteBudget
  malicious : ℤ := syncMaliciousPageByteBudget
  reputation : ℤ := syncReputationPageByteBudget
  lifecycle : ℤ := syncLifecyclePageByteBudget

/-- A dataset that is done is not queried. -/
def unlessDone {P : Type} (done : Bool) (empty : P) (page : Except String P) : Except String P :=
  if done then .ok empty else page

/-- The datasets of one page; of several errors the first in dataset order is reported. -/
def exportSyncDatasets (budgets : SyncPageBudgets) (view : PageView) (opts : SyncExportOptions)
    (cursor : SyncCursor) : Except String SyncDatasets := do
  let vulnerabilities ← unlessDone cursor.vulnerabilitiesDone {}
    (exportSyncVulnerabilities budgets.vulnerabilities view
      (syncOptionsWithOffset opts cursor.vulnerabilities))
  let malicious ← unlessDone cursor.maliciousDone {}
    (exportSyncMalicious budgets.malicious view (syncOptionsWithOffset opts cursor.malicious))
  let reputation ← unlessDone cursor.reputationDone {}
    (exportSyncReputation budgets.reputation view (syncOptionsWithOffset opts cursor.reputation))
  let lifecycle ← unlessDone cursor.lifecycleDone {}
    (exportSyncLifecycle budgets.lifecycle view (syncOptionsWithOffset opts cursor.lifecycle))
  return .ofPages vulnerabilities malicious reputation lifecycle

/-- The pages the exporters made of a view. -/
lemma exportSyncDatasets_ok {budgets : SyncPageBudgets} {view : PageView} {opts : SyncExportOptions}
    {cursor : SyncCursor} {datasets : SyncDatasets}
    (h : exportSyncDatasets budgets view opts cursor = .ok datasets) :
    ∃ vulnerabilities malicious reputation lifecycle,
      unlessDone cursor.vulnerabilitiesDone {}
        (exportSyncVulnerabilities budgets.vulnerabilities view
          (syncOptionsWithOffset opts cursor.vulnerabilities)) = .ok vulnerabilities ∧
      unlessDone cursor.maliciousDone {} (exportSyncMalicious budgets.malicious view
        (syncOptionsWithOffset opts cursor.malicious)) = .ok malicious ∧
      unlessDone cursor.reputationDone {} (exportSyncReputation budgets.reputation view
        (syncOptionsWithOffset opts cursor.reputation)) = .ok reputation ∧
      unlessDone cursor.lifecycleDone {} (exportSyncLifecycle budgets.lifecycle view
        (syncOptionsWithOffset opts cursor.lifecycle)) = .ok lifecycle ∧
      datasets = .ofPages vulnerabilities malicious reputation lifecycle := by
  unfold exportSyncDatasets at h
  simp only [GoText.bind_eq_ok, pure, Except.pure, Except.ok.injEq] at h
  obtain ⟨vulnerabilities, hv, malicious, hm, reputation, hr, lifecycle, hl, rfl⟩ := h
  exact ⟨vulnerabilities, malicious, reputation, lifecycle, hv, hm, hr, hl, rfl⟩

/-- One page of an export at a resolved snapshot. -/
def exportSync (budgets : SyncPageBudgets) (view : PageView) (opts : SyncExportOptions)
    (snapshot : Time) (snapshotXID : ℕ) : Except String SyncExport :=
  let cursor := opts.effectiveCursor
  (exportSyncDatasets budgets view opts cursor).map
    (newSyncExport opts cursor snapshot snapshotXID)

end Packmon

import Packmon.Sync.Page

/-!
# Assembling one page of an export

The datasets of a page, the cursor of the next page (`nextSyncExportCursor`) and the export that
carries both together with the completeness and split markers (`newSyncExport`).
-/

namespace Packmon

/-- The rows and paging state of the four datasets of one page. -/
structure SyncDatasets where
  vulnerabilities : List SyncVulnerability := []
  vulnerabilitiesHaveMore : Bool := false
  vulnerabilitiesWithoutAffected : List String := []
  vulnerabilitiesLastAdvisoryID : String := ""
  vulnerabilitiesNextCursor : String := ""
  vulnerabilitiesSplit : Bool := false
  vulnerabilitiesSplitAdvisory : String := ""
  vulnerabilitiesSplitStart : Bool := false
  vulnerabilitiesSplitComplete : Bool := false
  malicious : List SyncMalicious := []
  maliciousHaveMore : Bool := false
  reputation : List SyncReputationFinding := []
  reputationHaveMore : Bool := false
  lifecycle : List SyncLifecycleRelease := []
  lifecycleHaveMore : Bool := false
  deriving DecidableEq

/-- The datasets of a page from the pages of the four exporters. -/
def SyncDatasets.ofPages (vulnerabilities : SyncVulnerabilityPage)
    (malicious : SyncRowPage SyncMalicious) (reputation : SyncRowPage SyncReputationFinding)
    (lifecycle : SyncRowPage SyncLifecycleRelease) : SyncDatasets where
  vulnerabilities := vulnerabilities.rows
  vulnerabilitiesHaveMore := vulnerabilities.hasMore
  vulnerabilitiesWithoutAffected := vulnerabilities.withoutAffected
  vulnerabilitiesLastAdvisoryID := vulnerabilities.lastAdvisoryID
  vulnerabilitiesNextCursor := vulnerabilities.nextCursor
  vulnerabilitiesSplit := vulnerabilities.split
  vulnerabilitiesSplitAdvisory := vulnerabilities.splitAdvisoryID
  vulnerabilitiesSplitStart := vulnerabilities.splitStart
  vulnerabilitiesSplitComplete := vulnerabilities.splitComplete
  malicious := malicious.rows
  maliciousHaveMore := malicious.hasMore
  reputation := reputation.rows
  reputationHaveMore := reputation.hasMore
  lifecycle := lifecycle.rows
  lifecycleHaveMore := lifecycle.hasMore

/-! ## The cursor of the next page -/

/-- The keyset string after the last row of a page; a page that continues holds at least one row. -/
def keysetAfterLast {T : Type} (key : T → List String) (rows : List T) : String :=
  match rows.getLast? with
  | some last => encodeSyncCursorKey (key last)
  | none => ""

/-- The keys by which the four row orders continue. -/
def SyncVulnerability.key (row : SyncVulnerability) : List String :=
  [row.ecosystem, row.name, row.id]
@[inherit_doc SyncVulnerability.key]
def SyncMalicious.key (row : SyncMalicious) : List String := [row.ecosystem, row.name, row.id]
@[inherit_doc SyncVulnerability.key]
def SyncReputationFinding.key (row : SyncReputationFinding) : List String :=
  [row.ecosystem, row.name, row.version]
@[inherit_doc SyncVulnerability.key]
def SyncLifecycleRelease.key (row : SyncLifecycleRelease) : List String :=
  [row.ecosystem, row.name, row.productSlug, row.cycle]

/-- The last advisory of a page, which may have no row on it. -/
def SyncDatasets.lastAdvisory (datasets : SyncDatasets) : String :=
  if datasets.vulnerabilitiesLastAdvisoryID = "" then
    (datasets.vulnerabilities.getLast?.map SyncVulnerability.id).getD ""
  else datasets.vulnerabilitiesLastAdvisoryID

/-- The vulnerability keyset string of the next page, when that dataset continues. -/
def nextVulnerabilitiesCursor (paging : SyncVulnerabilityPaging) (datasets : SyncDatasets) :
    String :=
  if datasets.vulnerabilitiesNextCursor ≠ "" ∧
      (paging = .advisoryPages ∨ paging = .advisorySplit) then
    datasets.vulnerabilitiesNextCursor
  else match paging with
    | .advisoryPages => encodeSyncAdvisoryCursor datasets.lastAdvisory
    | .deltaRowOffset => ""
    | _ => keysetAfterLast SyncVulnerability.key datasets.vulnerabilities

/-- The cursor behind a page: a dataset that does not continue is done. -/
def cursorBehind (cursor : SyncCursor) (paging : SyncVulnerabilityPaging)
    (datasets : SyncDatasets) : SyncCursor where
  vulnerabilities := cursor.vulnerabilities + datasets.vulnerabilities.length
  malicious := cursor.malicious + datasets.malicious.length
  reputation := cursor.reputation + datasets.reputation.length
  lifecycle := cursor.lifecycle + datasets.lifecycle.length
  vulnerabilitiesCursor :=
    if cursor.vulnerabilitiesDone || !datasets.vulnerabilitiesHaveMore then ""
    else nextVulnerabilitiesCursor paging datasets
  maliciousCursor :=
    if cursor.maliciousDone || !datasets.maliciousHaveMore then ""
    else keysetAfterLast SyncMalicious.key datasets.malicious
  reputationCursor :=
    if cursor.reputationDone || !datasets.reputationHaveMore then ""
    else keysetAfterLast SyncReputationFinding.key datasets.reputation
  lifecycleCursor :=
    if cursor.lifecycleDone || !datasets.lifecycleHaveMore then ""
    else keysetAfterLast SyncLifecycleRelease.key datasets.lifecycle
  vulnerabilitiesDone := cursor.vulnerabilitiesDone || !datasets.vulnerabilitiesHaveMore
  maliciousDone := cursor.maliciousDone || !datasets.maliciousHaveMore
  reputationDone := cursor.reputationDone || !datasets.reputationHaveMore
  lifecycleDone := cursor.lifecycleDone || !datasets.lifecycleHaveMore

/-- Whether data may follow this page, and the cursor of the next one. -/
def nextSyncExportCursor (cursor : SyncCursor) (paging : SyncVulnerabilityPaging)
    (datasets : SyncDatasets) (limit : ℕ) : Bool × Option SyncCursor :=
  if limit = 0 then (false, none)
  else if !datasets.vulnerabilitiesHaveMore && !datasets.maliciousHaveMore &&
      !datasets.reputationHaveMore && !datasets.lifecycleHaveMore then (false, none)
  else (true, some (cursorBehind cursor paging datasets))

/-! ## The export -/

/-- One page of an export. -/
structure SyncExport where
  syncedAt : Time
  syncedXID : ℕ
  vulnerabilities : List SyncVulnerability := []
  malicious : List SyncMalicious := []
  reputation : List SyncReputationFinding := []
  lifecycle : List SyncLifecycleRelease := []
  truncated : Bool := false
  nextCursor : Option SyncCursor := none
  vulnerabilityAffectedComplete : Bool := false
  vulnerabilitiesWithoutAffected : List String := []
  vulnerabilitySplitAdvisory : String := ""
  vulnerabilitySplitStart : Bool := false
  vulnerabilitySplitComplete : Bool := false

/-- The paging of a page allows it to promise complete affected sets. -/
def syncVulnerabilityAffectedComplete (opts : SyncExportOptions) (cursor : SyncCursor) : Bool :=
  !cursor.vulnerabilitiesDone &&
    syncVulnerabilityPagingFor (syncOptionsWithOffset opts cursor.vulnerabilities) = .advisoryPages

/-- The page promises complete affected sets: its paging allows it, and it starts no split. -/
def syncPageVulnerabilityAffectedComplete (opts : SyncExportOptions) (cursor : SyncCursor)
    (datasets : SyncDatasets) : Bool :=
  syncVulnerabilityAffectedComplete opts cursor && !datasets.vulnerabilitiesSplit

/-- The export of one page. -/
def newSyncExport (opts : SyncExportOptions) (cursor : SyncCursor) (snapshot : Time)
    (snapshotXID : ℕ) (datasets : SyncDatasets) : SyncExport :=
  let paging := syncVulnerabilityPagingFor (syncOptionsWithOffset opts cursor.vulnerabilities)
  let next := nextSyncExportCursor cursor paging datasets opts.limit
  let complete := syncPageVulnerabilityAffectedComplete opts cursor datasets
  { syncedAt := snapshot
    syncedXID := snapshotXID
    vulnerabilities := datasets.vulnerabilities
    malicious := datasets.malicious
    reputation := datasets.reputation
    lifecycle := datasets.lifecycle
    truncated := next.1
    nextCursor := next.2
    vulnerabilityAffectedComplete := complete
    vulnerabilitiesWithoutAffected :=
      if complete then datasets.vulnerabilitiesWithoutAffected else []
    vulnerabilitySplitAdvisory := datasets.vulnerabilitiesSplitAdvisory
    vulnerabilitySplitStart :=
      datasets.vulnerabilitiesSplitAdvisory ≠ "" && datasets.vulnerabilitiesSplitStart
    vulnerabilitySplitComplete :=
      datasets.vulnerabilitiesSplitAdvisory ≠ "" && datasets.vulnerabilitiesSplitComplete }

end Packmon

import Packmon.Sync.Queries
import Packmon.Sync.Window

/-!
# The server's tables and what the export reads from them

The rows of the exported tables with the columns the export or a write reads, the database with its
keys and references, and the statements of one page as functions of a database, a window and the next
transaction id.

Every row version of a table with a window filter carries a `Stamp`.  The references and sources of an
advisory carry none: they are joined to its rows but never make it a changed one.
-/

namespace Packmon

open GoText (trimSpace toLower toUpper)

/-! ## Text the tables hold -/

/-- Cut blanks off both ends; unlike `trimSpace` this knows no other white space. -/
def sqlTrim (s : String) : String :=
  String.ofList ((s.toList.dropWhile (· = ' ')).rdropWhile (· = ' '))

/-- A stored source, or `unknown` when it is blank. -/
def sourceOrUnknown (source : String) : String :=
  if sqlTrim source = "" then "unknown" else sqlTrim source

/-- A severity in upper case. -/
def normalizeSeverity (severity : String) : String :=
  if toUpper (trimSpace severity) = "" then "UNKNOWN" else toUpper (trimSpace severity)

/-- The characters a Python package name does not tell apart. -/
def isPypiSeparator (c : Char) : Bool := c = '-' || c = '_' || c = '.'

/-- Every run of separators becomes one dash. -/
def replaceSeparatorRuns : List Char → List Char
  | [] => []
  | c :: rest =>
    if isPypiSeparator c then
      match rest with
      | d :: _ => if isPypiSeparator d then replaceSeparatorRuns rest
                  else '-' :: replaceSeparatorRuns rest
      | [] => ['-']
    else c :: replaceSeparatorRuns rest

/-- The canonical name of a package. -/
def normalizePackageName (ecosystem name : String) : String :=
  let name := trimSpace name
  match toLower (trimSpace ecosystem) with
  | "actions" | "github actions" => toLower name
  | "nuget" => toLower name
  | "pypi" => String.ofList (replaceSeparatorRuns (toLower name).toList)
  | _ => name

/-! ## Rows -/

/-- One advisory. -/
structure VulnerabilityRow where
  id : String
  summary : String := ""
  details : Option String := none
  severity : String := "LOW"
  cvssScore : Option ℚ := none
  epssScore : Option ℚ := none
  epssPercentile : Option ℚ := none
  cisaKEV : Bool := false
  published : Time := 0
  modified : Time := 0
  withdrawn : Option Time := none
  stamp : Stamp
  deriving DecidableEq

/-- One affected package of an advisory. -/
structure AffectedRow where
  vulnerabilityID : String
  ecosystem : String
  name : String
  versionRanges : String := "[]"
  versionsAffected : String := "[]"
  stamp : Stamp
  deriving DecidableEq

/-- A feed that reports an advisory. -/
structure VulnerabilitySourceRow where
  id : ℕ
  vulnerabilityID : String
  source : String
  sourceID : String := ""
  url : Option String := none
  rawJSON : Option String := none
  deriving DecidableEq

/-- A link of an advisory. -/
structure VulnerabilityReferenceRow where
  id : ℕ
  vulnerabilityID : String
  type : Option String := none
  url : String
  source : String := ""
  deriving DecidableEq

/-- One malicious finding; a removed one stays as its tombstone. -/
structure MaliciousRow where
  id : String
  ecosystem : String
  name : String
  versionRanges : Option String := none
  versions : Option String := none
  referenceURLs : Option String := none
  riskType : String := "malware"
  severity : String := "CRITICAL"
  summary : String := ""
  source : String := ""
  removedAt : Option Time := none
  stamp : Stamp
  deriving DecidableEq

/-- What the reputation service said of a package version. -/
inductive ReputationStatus where
  | pending | malicious | removed | risk | clean | notFound | unsupported | error
  deriving DecidableEq

/-- One cached reputation of a package version. -/
structure ReputationRow where
  ecosystem : String
  name : String
  version : String
  source : String
  status : ReputationStatus
  severity : String := "CRITICAL"
  summary : String := ""
  description : String := ""
  referenceURLs : String := "[]"
  evidence : String := "\x7b\x7d"
  lastCheckedAt : Option Time := none
  nextCheckAt : Option Time := none
  lastError : String := ""
  stamp : Stamp
  deriving DecidableEq

/-- One product with a lifecycle. -/
structure LifecycleProductRow where
  productSlug : String
  name : String
  stamp : Stamp
  deriving DecidableEq

/-- One release cycle of a product. -/
structure LifecycleReleaseRow where
  productSlug : String
  cycle : String
  latest : String := ""
  releaseDate : Option Time := none
  isLTS : Bool := false
  ltsFrom : Option Time := none
  isEOAS : Bool := false
  eoasFrom : Option Time := none
  isEOL : Bool := false
  eolFrom : Option Time := none
  isDiscontinued : Bool := false
  discontinuedFrom : Option Time := none
  isEOES : Option Bool := none
  eoesFrom : Option Time := none
  isMaintained : Bool := false
  stamp : Stamp
  deriving DecidableEq

/-- A package that belongs to a product. -/
structure LifecyclePackageMapRow where
  ecosystem : String
  name : String
  productSlug : String
  stamp : Stamp
  deriving DecidableEq

/-- A release cycle of a package that is gone. -/
structure LifecycleTombstoneRow where
  id : String
  ecosystem : String
  name : String
  productSlug : String
  cycle : String
  stamp : Stamp
  deriving DecidableEq

/-! ## The database -/

/-- The lifecycle tables, with their keys and references. -/
structure LifecycleTables where
  products : List LifecycleProductRow := []
  releases : List LifecycleReleaseRow := []
  packageMap : List LifecyclePackageMapRow := []
  tombstones : List LifecycleTombstoneRow := []
  products_key : (products.map LifecycleProductRow.productSlug).Nodup := by decide
  releases_key : (releases.map fun r => (r.productSlug, r.cycle)).Nodup := by decide
  packageMap_key : (packageMap.map fun m => (m.ecosystem, m.name, m.productSlug)).Nodup := by decide
  tombstones_key : (tombstones.map LifecycleTombstoneRow.id).Nodup := by decide
  releases_product : ∀ r ∈ releases, ∃ p ∈ products, p.productSlug = r.productSlug := by decide
  packageMap_product : ∀ m ∈ packageMap, ∃ p ∈ products, p.productSlug = m.productSlug := by decide
  packageMap_ecosystem : ∀ m ∈ packageMap, m.ecosystem ∈ validEcosystems := by decide
  tombstones_ecosystem : ∀ t ∈ tombstones, t.ecosystem ∈ validEcosystems := by decide

/-- The tables of the server, with their keys and references. -/
structure Database where
  vulnerabilities : List VulnerabilityRow := []
  affectedPackages : List AffectedRow := []
  vulnerabilitySources : List VulnerabilitySourceRow := []
  vulnerabilityReferences : List VulnerabilityReferenceRow := []
  malicious : List MaliciousRow := []
  reputation : List ReputationRow := []
  lifecycle : LifecycleTables := {}
  vulnerabilities_key : (vulnerabilities.map VulnerabilityRow.id).Nodup := by decide
  affected_key :
    (affectedPackages.map fun a => (a.vulnerabilityID, a.ecosystem, a.name)).Nodup := by decide
  affected_vulnerability :
    ∀ a ∈ affectedPackages, ∃ v ∈ vulnerabilities, v.id = a.vulnerabilityID := by decide
  affected_ecosystem : ∀ a ∈ affectedPackages, a.ecosystem ∈ validEcosystems := by decide
  malicious_key : (malicious.map MaliciousRow.id).Nodup := by decide
  reputation_key : (reputation.map fun r => (r.ecosystem, r.name, r.version, r.source)).Nodup := by
    decide

/-- The database without rows. -/
def Database.empty : Database := {}

/-- A row version of a table with a window filter. -/
inductive Row where
  | vulnerability (row : VulnerabilityRow)
  | affected (row : AffectedRow)
  | malicious (row : MaliciousRow)
  | reputation (row : ReputationRow)
  | product (row : LifecycleProductRow)
  | release (row : LifecycleReleaseRow)
  | packageMap (row : LifecyclePackageMapRow)
  | tombstone (row : LifecycleTombstoneRow)
  deriving DecidableEq

/-- The transaction that wrote a row version. -/
def Row.stamp : Row → Stamp
  | vulnerability row => row.stamp
  | affected row => row.stamp
  | malicious row => row.stamp
  | reputation row => row.stamp
  | product row => row.stamp
  | release row => row.stamp
  | packageMap row => row.stamp
  | tombstone row => row.stamp

/-- The row versions of a database. -/
def Database.rows (db : Database) : List Row :=
  db.vulnerabilities.map .vulnerability ++ db.affectedPackages.map .affected ++
    db.malicious.map .malicious ++ db.reputation.map .reputation ++
    db.lifecycle.products.map .product ++ db.lifecycle.releases.map .release ++
    db.lifecycle.packageMap.map .packageMap ++ db.lifecycle.tombstones.map .tombstone

/-! ## The vulnerability statements -/

/-- An empty filter takes every ecosystem. -/
def inFilter (ecosystems : List String) (ecosystem : String) : Bool :=
  ecosystems.isEmpty || ecosystems.contains ecosystem

/-- The order of links: advisories first, and those of exploit reports last. -/
def referenceOrder (type : Option String) : ℕ :=
  match toUpper (type.getD "") with
  | "ADVISORY" => 0
  | "REPORT" => 1
  | "ARTICLE" => 2
  | "WEB" => 3
  | "PACKAGE" => 8
  | _ => 9

/-- The links of an advisory as type and address, in the order of the export. -/
def Database.referencesOf (db : Database) (id : String) : List (String × String) :=
  let stored := (db.vulnerabilityReferences.filter fun r => r.vulnerabilityID = id).map fun r =>
    ((referenceOrder r.type, r.id), (r.type.getD "", r.url))
  let exploits := (db.vulnerabilitySources.filter fun s =>
    s.vulnerabilityID = id ∧ s.source = "vulncheck").map fun s =>
      ((50, s.id), ("VULNCHECK", if sqlTrim (s.url.getD "") = "" then "https://vulncheck.com/"
        else sqlTrim (s.url.getD "")))
  ((stored ++ exploits).insertionSort fun a b =>
    a.1.1 < b.1.1 ∨ (a.1.1 = b.1.1 ∧ a.1.2 ≤ b.1.2)).map Prod.snd

/-- A list of links as JSON. -/
def refsJSON (references : List (String × String)) : String :=
  let object := fun r : String × String =>
    "\x7b\"type\" : " ++ String.ofList (JsonStrings.quote r.1) ++ ", \"url\" : " ++
      String.ofList (JsonStrings.quote r.2) ++ "\x7d"
  "[" ++ ", ".intercalate (references.map object) ++ "]"

/-- The source of an advisory that was stored first. -/
def Database.firstSource (db : Database) (id : String) : String :=
  match ((db.vulnerabilitySources.filter fun s => s.vulnerabilityID = id).insertionSort
      fun a b => a.id ≤ b.id).head? with
  | some s => sourceOrUnknown s.source
  | none => "unknown"

/-- The exported row of an affected package. -/
def Database.exportAffected (db : Database) (v : VulnerabilityRow) (a : AffectedRow) :
    SyncVulnerability where
  id := v.id
  ecosystem := a.ecosystem
  name := a.name
  versionRanges := a.versionRanges
  versionsAffected := a.versionsAffected
  references := refsJSON (db.referencesOf v.id)
  severity := normalizeSeverity v.severity
  cvssScore := v.cvssScore
  epssScore := v.epssScore
  epssPercentile := v.epssPercentile
  cisaKEV := v.cisaKEV
  summary := v.summary
  source := db.firstSource v.id
  withdrawn := v.withdrawn.isSome

/-- The affected packages of an advisory within the filter. -/
def Database.affectedOf (db : Database) (ecosystems : List String) (id : String) :
    List AffectedRow :=
  db.affectedPackages.filter fun a => a.vulnerabilityID = id ∧ inFilter ecosystems a.ecosystem

lemma Database.mem_affectedOf {db : Database} {ecosystems : List String} {id : String}
    {a : AffectedRow} : a ∈ db.affectedOf ecosystems id ↔
      a ∈ db.affectedPackages ∧ a.vulnerabilityID = id ∧ inFilter ecosystems a.ecosystem = true := by
  simp [affectedOf]

/-- An advisory with its current affected rows within the filter. -/
def Database.advisory (db : Database) (ecosystems : List String) (v : VulnerabilityRow) :
    Advisory where
  id := v.id
  rows := (db.affectedOf ecosystems v.id).map (db.exportAffected v)
  rows_id := by
    intro row hrow
    obtain ⟨a, -, rfl⟩ := List.mem_map.mp hrow
    rfl
  rows_nodup := by
    have hkey := db.affected_key
    rw [List.map_map]
    have hinj : ((db.affectedOf ecosystems v.id).map fun a =>
        (a.vulnerabilityID, a.ecosystem, a.name)).Nodup :=
      hkey.sublist (List.Sublist.map _ List.filter_sublist)
    refine List.Nodup.map_on ?_ hinj.of_map
    intro a ha b hb hab
    simp only [Function.comp_apply, SyncVulnerability.rowKey, Database.exportAffected,
      List.cons.injEq, and_true] at hab
    refine List.inj_on_of_nodup_map hinj ha hb ?_
    rw [(db.mem_affectedOf.mp ha).2.1, (db.mem_affectedOf.mp hb).2.1, hab.1, hab.2]

/-- The advisories a delta exports: those of which a row changed within the window. -/
def Database.changedIDs (db : Database) (w : SyncWindow) (xmax : ℕ) : List String :=
  let changed := fun t : Stamp => t.changedSince w xmax && t.upToSnapshot w xmax
  (db.vulnerabilities.filter fun v => changed v.stamp).map VulnerabilityRow.id ++
    (db.affectedPackages.filter fun a => changed a.stamp).map AffectedRow.vulnerabilityID

/-- The changed advisories of a delta; the bound on the advisory itself applies once more. -/
def Database.changed (db : Database) (w : SyncWindow) (xmax : ℕ) (ecosystems : List String) :
    List Advisory :=
  (db.vulnerabilities.filter fun v =>
    v.id ∈ db.changedIDs w xmax ∧ v.stamp.upToSnapshot w xmax).map (db.advisory ecosystems)

/-- The advisories within the snapshot. -/
def Database.current (db : Database) (w : SyncWindow) (xmax : ℕ) (ecosystems : List String) :
    List Advisory :=
  (db.vulnerabilities.filter fun v => v.stamp.upToSnapshot w xmax).map (db.advisory ecosystems)

lemma Database.changed_nodup {db : Database} {w : SyncWindow} {xmax : ℕ} {ecosystems : List String} :
    ((db.changed w xmax ecosystems).map Advisory.id).Nodup := by
  unfold changed
  rw [List.map_map]
  exact db.vulnerabilities_key.sublist (List.filter_sublist.map _)

lemma Database.current_nodup {db : Database} {w : SyncWindow} {xmax : ℕ} {ecosystems : List String} :
    ((db.current w xmax ecosystems).map Advisory.id).Nodup := by
  unfold current
  rw [List.map_map]
  exact db.vulnerabilities_key.sublist (List.filter_sublist.map _)

/-- The affected rows of row paging: a full export bounds every row by the snapshot, a delta exports
the whole affected set of a changed advisory. -/
def Database.pagedRows (db : Database) (w : SyncWindow) (xmax : ℕ) (ecosystems : List String) :
    List SyncVulnerability :=
  (db.vulnerabilities.filter fun v => v.stamp.upToSnapshot w xmax ∧
      (w.since.isSome → v.id ∈ db.changedIDs w xmax)).flatMap fun v =>
    ((db.affectedOf ecosystems v.id).filter fun a =>
      w.since.isSome ∨ a.stamp.upToSnapshot w xmax).map (db.exportAffected v)

/-- The check behind a complete split: nothing of the advisory, in any ecosystem, was written after
the snapshot. -/
def Database.syncSplitAdvisoryUnchanged (db : Database) (w : SyncWindow) (xmax : ℕ)
    (id : String) : Bool :=
  decide (w.snapshotXID ≠ 0) &&
    (db.vulnerabilities.any fun v => v.id = id && decide (v.stamp.updatedAt ≤ w.snapshot) &&
      !syncXIDAtOrAfter xmax v.stamp w.snapshotXID) &&
    !db.affectedPackages.any fun a => a.vulnerabilityID = id &&
      (decide (w.snapshot < a.stamp.updatedAt) || syncXIDAtOrAfter xmax a.stamp w.snapshotXID)

/-! ## The statements of the datasets paged by rows -/

/-- A candidate row of an export with the stamps of the row versions it is joined from. -/
structure Candidate (T : Type) where
  row : T
  ecosystem : String
  stamps : List Stamp
  /-- The row only tells the client to drop another one; a full export leaves it out. -/
  tombstone : Bool

/-- The rows of a window: all their versions within the snapshot, one of them changed since. -/
def windowRows {T : Type} (w : SyncWindow) (xmax : ℕ) (ecosystems : List String)
    (candidates : List (Candidate T)) : List T :=
  (candidates.filter fun c => inFilter ecosystems c.ecosystem &&
    c.stamps.all (Stamp.upToSnapshot w xmax) && c.stamps.any (Stamp.changedSince w xmax) &&
    (w.since.isSome || !c.tombstone)).map Candidate.row

/-- The exported row of a malicious finding. -/
def MaliciousRow.exported (m : MaliciousRow) : SyncMalicious where
  id := m.id
  ecosystem := m.ecosystem
  name := m.name
  versionRanges := m.versionRanges.getD ""
  versions := m.versions.getD ""
  referenceURLs := m.referenceURLs.getD "[]"
  riskType := m.riskType
  severity := normalizeSeverity m.severity
  summary := m.summary
  source := sourceOrUnknown m.source
  withdrawn := m.removedAt.isSome

/-- A malicious finding as a candidate of the export. -/
def MaliciousRow.candidate (m : MaliciousRow) : Candidate SyncMalicious :=
  ⟨m.exported, m.ecosystem, [m.stamp], m.removedAt.isSome⟩

/-- The malicious statement. -/
def Database.maliciousRows (db : Database) (w : SyncWindow) (xmax : ℕ)
    (ecosystems : List String) : List SyncMalicious :=
  windowRows w xmax ecosystems (db.malicious.map MaliciousRow.candidate)

/-- The reputation service whose findings are exported. -/
def reputationSourceReversingLabs : String := "reversinglabs"

/-- The id under which a reputation is exported. -/
def reputationFindingID (ecosystem name version : String) : String :=
  "reversinglabs:" ++ ecosystem ++ "/" ++ name ++ "@" ++ version

/-- A finding that only informs is of low severity. -/
def normalizeFindingSeverity (type riskType severity : String) : String :=
  if type = "supply_chain_risk" ∧ toLower (trimSpace riskType) = "malware_history" then "LOW"
  else severity

/-- A reputation of unknown severity is critical. -/
def normalizeReputationSeverity (severity : String) : String :=
  if normalizeSeverity severity = "UNKNOWN" then "CRITICAL" else normalizeSeverity severity

/-- Type, risk type and severity of a finding with this reputation, if it is one. -/
def reversingLabsReputationStatusMapping (status : ReputationStatus) (severity : String) :
    Option (String × String × String) :=
  let mapping := match status with
    | .malicious => some ("malicious", "malware")
    | .removed => some ("supply_chain_risk", "removed_package")
    | .risk => some ("supply_chain_risk", "malware_history")
    | _ => none
  mapping.map fun (type, riskType) =>
    (type, riskType, normalizeFindingSeverity type riskType (normalizeReputationSeverity severity))

/-- The exported row of a cached reputation. -/
def reputationSyncFinding (rep : ReputationRow) : SyncReputationFinding :=
  let item : SyncReputationFinding :=
    { id := reputationFindingID rep.ecosystem rep.name rep.version
      ecosystem := rep.ecosystem
      name := rep.name
      version := rep.version
      summary := rep.summary }
  match reversingLabsReputationStatusMapping rep.status rep.severity with
  | none => { item with withdrawn := true }
  | some (type, riskType, severity) => { item with type, riskType, severity }

/-- The reputations the export looks at: of the one service, and with a finding. -/
def ReputationRow.isExported (rep : ReputationRow) : Bool :=
  rep.source = reputationSourceReversingLabs &&
    (rep.status = .malicious || rep.status = .removed || rep.status = .risk)

/-- A cached reputation as a candidate of the export. -/
def ReputationRow.candidate (rep : ReputationRow) : Candidate SyncReputationFinding :=
  ⟨reputationSyncFinding rep, rep.ecosystem, [rep.stamp], false⟩

/-- The reputation statement. -/
def Database.reputationRows (db : Database) (w : SyncWindow) (xmax : ℕ)
    (ecosystems : List String) : List SyncReputationFinding :=
  windowRows w xmax ecosystems
    ((db.reputation.filter ReputationRow.isExported).map ReputationRow.candidate)

/-- The id of a release cycle of a package. -/
def lifecycleID (ecosystem name productSlug cycle : String) : String :=
  "endoflife:" ++ ecosystem ++ ":" ++ name ++ ":" ++ productSlug ++ ":" ++ cycle

/-- A release cycle of a package: package map, product and release joined. -/
structure LifecycleActive where
  packageMap : LifecyclePackageMapRow
  product : LifecycleProductRow
  release : LifecycleReleaseRow
  deriving DecidableEq

/-- The release cycles of all packages. -/
def LifecycleTables.active (tables : LifecycleTables) : List LifecycleActive :=
  tables.packageMap.flatMap fun m =>
    (tables.products.filter fun p => p.productSlug = m.productSlug).flatMap fun p =>
      (tables.releases.filter fun r => r.productSlug = p.productSlug).map fun r => ⟨m, p, r⟩

/-- The id of an active release cycle. -/
def LifecycleActive.id (e : LifecycleActive) : String :=
  lifecycleID e.packageMap.ecosystem e.packageMap.name e.product.productSlug e.release.cycle

/-- The exported row of an active release cycle. -/
def LifecycleActive.exported (e : LifecycleActive) : SyncLifecycleRelease where
  id := e.id
  ecosystem := e.packageMap.ecosystem
  name := e.packageMap.name
  productSlug := e.product.productSlug
  productLabel := e.product.name
  cycle := e.release.cycle
  latest := e.release.latest
  releaseDate := e.release.releaseDate
  isLTS := e.release.isLTS
  ltsFrom := e.release.ltsFrom
  isEOAS := e.release.isEOAS
  eoasFrom := e.release.eoasFrom
  isEOL := e.release.isEOL
  eolFrom := e.release.eolFrom
  isDiscontinued := e.release.isDiscontinued
  discontinuedFrom := e.release.discontinuedFrom
  isEOES := e.release.isEOES
  eoesFrom := e.release.eoesFrom
  isMaintained := e.release.isMaintained

/-- An active release cycle as a candidate of the export. -/
def LifecycleActive.candidate (e : LifecycleActive) : Candidate SyncLifecycleRelease :=
  ⟨e.exported, e.packageMap.ecosystem, [e.packageMap.stamp, e.product.stamp, e.release.stamp], false⟩

/-- The exported row of a release cycle that is gone. -/
def LifecycleTombstoneRow.exported (t : LifecycleTombstoneRow) : SyncLifecycleRelease where
  id := t.id
  ecosystem := t.ecosystem
  name := t.name
  productSlug := t.productSlug
  cycle := t.cycle
  withdrawn := true

/-- A release cycle that is gone as a candidate of the export. -/
def LifecycleTombstoneRow.candidate (t : LifecycleTombstoneRow) : Candidate SyncLifecycleRelease :=
  ⟨t.exported, t.ecosystem, [t.stamp], true⟩

/-- The candidates of the lifecycle export. -/
def LifecycleTables.candidates (tables : LifecycleTables) : List (Candidate SyncLifecycleRelease) :=
  tables.active.map LifecycleActive.candidate ++
    tables.tombstones.map LifecycleTombstoneRow.candidate

/-- The lifecycle statement. -/
def Database.lifecycleRows (db : Database) (w : SyncWindow) (xmax : ℕ)
    (ecosystems : List String) : List SyncLifecycleRelease :=
  windowRows w xmax ecosystems db.lifecycle.candidates

end Packmon

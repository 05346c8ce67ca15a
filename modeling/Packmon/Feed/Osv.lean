import Packmon.Feed.Common
import Packmon.Store.Malicious

/-!
# The OSV feed

An entry of the feed becomes an advisory with one affected package for each affected element of a supported
ecosystem (`mapToVulnerability`), or, when an element is flagged malicious, one malicious finding for
each flagged element (`mapToMaliciousFindings`).
-/

namespace Packmon.Feed.Osv

open GoText GoJson Version

def feedName : String := "osv"

structure OsvSeverity where
  type : String
  score : String

/-- One affected element; an absent `database_specific` is nothing. -/
structure OsvAffected where
  ecosystem : String
  name : String
  ranges : List OsvRange := []
  versions : List String := []
  databaseSpecific : Option Json := none

structure OsvReference where
  type : String := ""
  url : String

structure OsvEntry where
  id : String
  summary : String := ""
  details : String := ""
  modified : Time := 0
  published : Time := 0
  withdrawn : Option String := none
  severity : List OsvSeverity := []
  affected : List OsvAffected := []
  references : List OsvReference := []
  databaseSpecific : Option Json := none

/-! ## Ranges -/

structure ClosureSpec where
  lastKnownAffectedVersionRange : String := ""

def decodeClosureSpec : Decoder ClosureSpec := object
  [("last_known_affected_version_range", field ClosureSpec.lastKnownAffectedVersionRange
    (fun s v => { s with lastKnownAffectedVersionRange := v }) string)]

def closureEventFromDatabaseSpecific (raw : Option Json) : Option OsvRangeEvent :=
  (raw.bind (decodeClosureSpec {})).bind fun dbSpec =>
    (parseLastKnownAffectedClosure dbSpec.lastKnownAffectedVersionRange).map
      fun (fixed, lastAffected) => { fixed, lastAffected }

def hasRangeClosure (events : List OsvRangeEvent) : Bool :=
  events.any fun event => trimSpace event.fixed ≠ "" || trimSpace event.lastAffected ≠ ""

/-- Ranges that would stay open get the upper boundary that stands beside them. -/
def normalizeAffectedRanges (aff : OsvAffected) : List OsvRange :=
  match closureEventFromDatabaseSpecific aff.databaseSpecific with
  | none => aff.ranges
  | some closure =>
    aff.ranges.map fun r =>
      if r.events ≠ [] ∧ !hasRangeClosure r.events then { r with events := r.events ++ [closure] }
      else r

/-- The ecosystem of an element, without what follows a colon. -/
def ecosystemOf (aff : OsvAffected) : Option String :=
  mapOSVEcosystem (String.ofList (aff.ecosystem.toList.takeWhile (· ≠ ':')))

/-! ## Advisories -/

def extractCVSSScore (platform : Platform) (severities : List OsvSeverity) : ℚ :=
  ((severities.filter fun s => s.type = "CVSS_V3" ∨ s.type = "CVSS_V2").map fun s =>
    platform.parseCVSSVector s.score).find? (0 < ·) |>.getD 0

structure SeveritySpec where
  severity : String := ""

def decodeSeveritySpec : Decoder SeveritySpec := object
  [("severity", field SeveritySpec.severity (fun s v => { s with severity := v }) string)]

def mapSeverity (platform : Platform) (entry : OsvEntry) : String :=
  let score := extractCVSSScore platform entry.severity
  if 0 < score then cvssToSeverity score
  else
    ((entry.databaseSpecific.bind (decodeSeveritySpec {})).bind fun dbSpec =>
      spelledSeverity dbSpec.severity).getD "UNKNOWN"

/-- The affected package of an element. -/
def affectedPackage (aff : OsvAffected) (ecosystem : String) : AffectedPackage where
  ecosystem := ecosystem
  name := aff.name
  versionRanges := osvFormat.text (normalizeAffectedRanges aff)
  versionsAffected := versionsJSON aff.versions

def affectedPackages (entry : OsvEntry) : List AffectedPackage :=
  entry.affected.filterMap fun aff => (ecosystemOf aff).map (affectedPackage aff)

def mapToVulnerability (platform : Platform) (entry : OsvEntry) (rawJSON : String) :
    Vulnerability where
  id := entry.id
  summary := entry.summary
  details := entry.details
  severity := mapSeverity platform entry
  published := entry.published
  modified := entry.modified
  withdrawn := (entry.withdrawn.filter (· ≠ "")).bind platform.parseRFC3339
  cvssScore :=
    let score := extractCVSSScore platform entry.severity
    if 0 < score then some score else none
  sources := [{ source := feedName, sourceID := entry.id, rawJSON }]
  references := (entry.references.filter fun ref => ref.url ≠ "").map fun ref =>
    { type := ref.type, url := ref.url, source := feedName }
  affectedPackages := affectedPackages entry

/-! ## Malicious findings -/

structure CategoriesSpec where
  categories : Slice String := {}

def decodeCategoriesSpec : Decoder CategoriesSpec := object
  [("categories", field CategoriesSpec.categories (fun s v => { s with categories := v })
    (slice string ""))]

def affectedHasMaliciousCategory (aff : OsvAffected) : Bool :=
  (aff.databaseSpecific.bind (decodeCategoriesSpec {})).any fun dbSpec =>
    dbSpec.categories.items.any fun category => equalFold (trimSpace category) "malicious"

/-- The listed versions, and the first versions of the ranges as if they were listed. -/
def maliciousVersionList (aff : OsvAffected) : List String :=
  aff.versions ++ ((aff.ranges.flatMap OsvRange.events).map OsvRangeEvent.introduced).filter
    fun introduced => introduced ≠ "" ∧ introduced ≠ "0" ∧ introduced ≠ "0.0.0-0"

def maliciousVersions (aff : OsvAffected) : String :=
  if maliciousVersionList aff = [] then "" else versionsJSON (maliciousVersionList aff)

def marshalReferenceURLs (refs : List OsvReference) : String :=
  marshal (.arr (((refs.map OsvReference.url).filter (· ≠ "")).map .str))

/-- The id of the finding for the affected element at a position. -/
def findingID (entry : OsvEntry) (i : ℕ) : String :=
  if 0 < i then entry.id ++ "-" ++ itoa i else entry.id

def maliciousFinding (entry : OsvEntry) (aff : OsvAffected) (i : ℕ) (ecosystem : String) :
    MaliciousFinding where
  id := findingID entry i
  ecosystem := ecosystem
  name := aff.name
  versions := maliciousVersions aff
  source := feedName
  riskType :=
    if maliciousRiskTypeFromJSON aff.databaseSpecific ≠ "" then
      maliciousRiskTypeFromJSON aff.databaseSpecific
    else classifyMaliciousRiskType entry.databaseSpecific entry.summary entry.details
  severity := "CRITICAL"
  summary := entry.summary
  referenceURLs := marshalReferenceURLs entry.references

def mapToMaliciousFindings (entry : OsvEntry) : List MaliciousFinding :=
  entry.affected.zipIdx.filterMap fun (aff, i) =>
    if affectedHasMaliciousCategory aff then (ecosystemOf aff).map (maliciousFinding entry aff i)
    else none

/-! ## One entry -/

inductive OsvEntryOutcome where
  | error | skipped | deleted | malicious | vulnerability
  deriving DecidableEq

structure OsvEntryProcessResult where
  outcome : OsvEntryOutcome
  synced : ℕ := 0
  errors : ℕ := 0

/-- The finding belongs to another feed. -/
def isMaliciousPackageEntry (entry : OsvEntry) : Bool := "MAL-".toList.isPrefixOf entry.id.toList

def isWithdrawn (entry : OsvEntry) : Bool := entry.withdrawn.any fun raw => trimSpace raw ≠ ""

section

variable (platform : Platform) (stamps : ℕ → Stamp) (entry : OsvEntry) (rawJSON : String)
  (db : Database)

/-- An entry with findings is stored as those; its advisory is taken away. -/
def processMalicious (findings : List MaliciousFinding) : OsvEntryProcessResult × Database :=
  let (deleteErrors, db') :=
    match deleteVulnerabilityForSourceTx (stamps 0) entry.id feedName db with
    | .ok db' => (0, db')
    | .error _ => (1, db)
  let (failures, db'') := upsertEach (fun i => stamps (i + 1)) findings db'
  let errors := deleteErrors + failures.length
  ({ outcome := if 0 < errors then .error else .malicious
     synced := findings.length - failures.length
     errors }, db'')

/-- Process one entry; every call of the store is a transaction with a stamp of its own. -/
def processOSVEntry : OsvEntryProcessResult × Database :=
  if isMaliciousPackageEntry entry then ({ outcome := .skipped }, db)
  else if isWithdrawn entry then
    match deleteVulnerabilityForSourceTx (stamps 0) entry.id feedName db with
    | .ok db' => ({ outcome := .deleted, synced := 1 }, db')
    | .error _ => ({ outcome := .error, errors := 1 }, db)
  else
    match mapToMaliciousFindings entry with
    | [] =>
      match upsertVulnerabilityTx (stamps 0) platform.shouldStoreVulnerabilityReference
          (mapToVulnerability platform entry rawJSON) db with
      | .ok db' => ({ outcome := .vulnerability, synced := 1 }, db')
      | .error _ => ({ outcome := .error, errors := 1 }, db)
    | finding :: findings => processMalicious stamps entry db (finding :: findings)

end

end Packmon.Feed.Osv

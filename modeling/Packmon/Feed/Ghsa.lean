import Packmon.Feed.Common

/-!
# The GHSA feed

The affected elements of an advisory that name the same package, letter by letter, are merged into one
affected package with the ranges and versions of all of them.
-/

namespace Packmon.Feed.Ghsa

open GoText GoJson Version

def feedName : String := "ghsa"

structure GhsaSeverity where
  type : String
  score : String

/-- One affected element; the expression of the last known range may be absent. -/
structure GhsaAffected where
  ecosystem : String
  name : String
  ranges : List GhsaRange := []
  versions : List String := []
  lastKnownAffectedVersionRange : Option String := none

structure GhsaReference where
  type : String := ""
  url : String

structure GhsaAdvisory where
  id : String
  summary : String := ""
  details : String := ""
  modified : Time := 0
  published : Time := 0
  withdrawn : Option String := none
  severity : List GhsaSeverity := []
  affected : List GhsaAffected := []
  references : List GhsaReference := []
  /-- The severity of `database_specific`, when there is such an object. -/
  databaseSeverity : Option String := none

/-! ## Ranges -/

def closureEventFromLastKnownAffectedRange (specific : Option String) : Option GhsaEvent :=
  (specific.bind parseLastKnownAffectedClosure).map fun (fixed, lastAffected) =>
    { fixed, lastAffected }

def hasRangeClosure (events : List GhsaEvent) : Bool :=
  events.any fun event => trimSpace event.fixed ≠ "" || trimSpace event.lastAffected ≠ ""

/-- Ranges that would stay open get the upper boundary that stands beside them. -/
def normalizeAffectedRanges (aff : GhsaAffected) : List GhsaRange :=
  match closureEventFromLastKnownAffectedRange aff.lastKnownAffectedVersionRange with
  | none => aff.ranges
  | some closure =>
    aff.ranges.map fun r =>
      if r.events ≠ [] ∧ !hasRangeClosure r.events then { r with events := r.events ++ [closure] }
      else r

/-! ## Merging -/

/-- The ranges and versions of the elements of one package. -/
structure MergedAffected where
  ecosystem : String
  name : String
  ranges : List GhsaRange := []
  versions : List String := []

namespace MergedAffected

def key (merged : MergedAffected) : String × String := (merged.ecosystem, merged.name)

/-- The element alone. -/
def ofAffected (aff : GhsaAffected) (ecosystem : String) : MergedAffected where
  ecosystem := ecosystem
  name := aff.name
  ranges := normalizeAffectedRanges aff
  versions := aff.versions.foldl (fun versions v => if v ∈ versions then versions else versions ++ [v]) []

/-- Add the ranges of an element, and those of its versions that are not there yet. -/
def add (merged new : MergedAffected) : MergedAffected :=
  { merged with
    ranges := merged.ranges ++ new.ranges
    versions := new.versions.foldl
      (fun versions v => if v ∈ versions then versions else versions ++ [v]) merged.versions }

def package (merged : MergedAffected) : AffectedPackage where
  ecosystem := merged.ecosystem
  name := merged.name
  versionRanges := ghsaFormat.text merged.ranges
  versionsAffected := versionsJSON merged.versions

end MergedAffected

/-- The merged packages, in the order of their first elements. -/
def mergedAffected (advisory : GhsaAdvisory) : List MergedAffected :=
  Tables.upsertAll MergedAffected.key MergedAffected.add
    (advisory.affected.filterMap fun aff =>
      (mapGHSAEcosystem aff.ecosystem).map (MergedAffected.ofAffected aff)) []

/-! ## Advisories -/

def mapSeverity (platform : Platform) (advisory : GhsaAdvisory) : String :=
  match advisory.databaseSeverity.bind spelledSeverity with
  | some severity => severity
  | none =>
    (((advisory.severity.map fun s => platform.parseCVSSVector s.score).find? (0 < ·)).map
      cvssToSeverity).getD "UNKNOWN"

def parseWithdrawn (platform : Platform) (advisory : GhsaAdvisory) : Except String (Option Time) :=
  match advisory.withdrawn.filter (· ≠ "") with
  | none => .ok none
  | some raw =>
    match platform.parseRFC3339 raw with
    | some time => .ok (some time)
    | none => .error ("parse withdrawn timestamp for advisory " ++ advisory.id)

def mapToVulnerability (platform : Platform) (advisory : GhsaAdvisory) (rawJSON : String) :
    Except String Vulnerability := do
  let withdrawn ← parseWithdrawn platform advisory
  return {
    id := advisory.id
    summary := advisory.summary
    details := advisory.details
    severity := mapSeverity platform advisory
    published := advisory.published
    modified := advisory.modified
    withdrawn
    sources := [{ source := feedName, sourceID := advisory.id, rawJSON }]
    references := (advisory.references.filter fun ref => ref.url ≠ "").map fun ref =>
      { type := ref.type, url := ref.url, source := feedName }
    affectedPackages := (mergedAffected advisory).map MergedAffected.package }

end Packmon.Feed.Ghsa

import Packmon.Store.Vulnerabilities

/-!
# What the feeds share

The names of ecosystems, the upper boundary that GHSA advisories carry beside their ranges, scores and
severities, and the kind of risk of a malicious package.  Scoring a CVSS vector, reading a timestamp and
the filter of reference hosts are parameters (`Platform`): nothing below depends on what they answer.
-/

namespace Packmon

open GoText GoJson Version

/-- What the feeds take from libraries. -/
structure Platform where
  parseCVSSVector : String → ℚ
  parseRFC3339 : String → Option Time
  shouldStoreVulnerabilityReference : String → Bool

namespace Feed

/-! ## Ecosystems -/

def osvEcosystemMap : List (String × String) :=
  [("npm", "npm"), ("pypi", "pypi"), ("go", "go"), ("maven", "maven"), ("crates.io", "cargo"),
    ("nuget", "nuget"), ("packagist", "composer"), ("rubygems", "gem"), ("pub", "pub"),
    ("cocoapods", "cocoapods"), ("swifturl", "swiftpm"), ("hex", "hex"), ("cran", "cran"),
    ("github actions", "actions"), ("cargo", "cargo"), ("composer", "composer"), ("gem", "gem")]

def mapOSVEcosystem (osv : String) : Option String := osvEcosystemMap.lookup (toLower osv)

def ghsaEcosystemMap : List (String × String) :=
  [("npm", "npm"), ("pip", "pypi"), ("pypi", "pypi"), ("go", "go"), ("maven", "maven"),
    ("nuget", "nuget"), ("composer", "composer"), ("packagist", "composer"), ("rubygems", "gem"),
    ("crates.io", "cargo"), ("pub", "pub"), ("swifturl", "swiftpm"), ("hex", "hex"),
    ("actions", "actions"), ("github actions", "actions"), ("rust", "cargo"), ("cargo", "cargo")]

def mapGHSAEcosystem (ghsa : String) : Option String := ghsaEcosystemMap.lookup (toLower ghsa)

lemma mem_of_lookup {table : List (String × String)} {name ecosystem : String}
    (h : table.lookup name = some ecosystem) : (name, ecosystem) ∈ table := by
  induction table with
  | nil => cases h
  | cons entry table ih =>
    rw [List.lookup_cons] at h
    split at h
    · next heq =>
      obtain rfl := Option.some.inj h
      rw [eq_of_beq heq]
      exact List.mem_cons_self
    · exact List.mem_cons_of_mem _ (ih h)

/-- The feeds name ecosystems the way the store does. -/
lemma mapOSVEcosystem_canonical {osv ecosystem : String} (h : mapOSVEcosystem osv = some ecosystem) :
    toLower (trimSpace ecosystem) = ecosystem := by
  have hall : ∀ entry ∈ osvEcosystemMap, toLower (trimSpace entry.2) = entry.2 := by decide
  exact hall (toLower osv, ecosystem) (mem_of_lookup h)

lemma mapGHSAEcosystem_canonical {ghsa ecosystem : String}
    (h : mapGHSAEcosystem ghsa = some ecosystem) : toLower (trimSpace ecosystem) = ecosystem := by
  have hall : ∀ entry ∈ ghsaEcosystemMap, toLower (trimSpace entry.2) = entry.2 := by decide
  exact hall (toLower ghsa, ecosystem) (mem_of_lookup h)

/-! ## The upper boundary beside the ranges -/

/-- Quotes of three kinds are cut off a version. -/
def cleanLastKnownConstraintVersion (version : List Char) : String :=
  let isQuote := fun c : Char => c.toNat = 0x60 || c.toNat = 0x22 || c.toNat = 0x27
  String.ofList (((trimChars version).dropWhile isQuote).rdropWhile isQuote)

/-- The fixed and the last affected version of the first part of an expression that has one. -/
def parseLastKnownAffectedClosure (rangeExpr : String) : Option (String × String) :=
  (rangeExpr.toList.splitOn ',').findSome? fun part =>
    match trimChars part with
    | '<' :: '=' :: rest =>
      let version := cleanLastKnownConstraintVersion rest
      if version ≠ "" then some ("", version) else none
    | '<' :: rest =>
      let version := cleanLastKnownConstraintVersion rest
      if version ≠ "" then some (version, "") else none
    | _ => none

/-! ## Scores -/

def cvssToSeverity (score : ℚ) : String :=
  if 9 ≤ score then "CRITICAL"
  else if 7 ≤ score then "HIGH"
  else if 4 ≤ score then "MEDIUM"
  else if 0 < score then "LOW"
  else "UNKNOWN"

/-- The severity a feed spells out, if it is one of the known ones. -/
def spelledSeverity (severity : String) : Option String :=
  match toUpper severity with
  | "CRITICAL" => some "CRITICAL"
  | "HIGH" => some "HIGH"
  | "MODERATE" | "MEDIUM" => some "MEDIUM"
  | "LOW" => some "LOW"
  | _ => none

/-! ## Risk types -/

def normalizeMaliciousRiskType (raw : String) : String :=
  let label := toLower (trimSpace raw)
  if label ∈ ["malware", "trojan", "backdoor", "cryptominer", "cryptomining", "exfiltration",
      "protestware"] then "malware"
  else if label ∈ ["typosquat", "typosquatting", "typo-squatting"] then "typosquatting"
  else if label ∈ ["supply_chain", "supply-chain", "supply chain", "dependency_confusion",
      "dependency confusion"] then "supply_chain"
  else ""

structure RiskSpec where
  riskType : String := ""
  type : String := ""
  classification : String := ""
  categories : Slice String := {}

def decodeRiskSpec : Decoder RiskSpec := object
  [("risk_type", field RiskSpec.riskType (fun s v => { s with riskType := v }) string),
    ("type", field RiskSpec.type (fun s v => { s with type := v }) string),
    ("classification", field RiskSpec.classification (fun s v => { s with classification := v }) string),
    ("categories", field RiskSpec.categories (fun s v => { s with categories := v }) (slice string ""))]

/-- The first known label, or the empty string. -/
def maliciousRiskTypeFromJSON (raw : Option Json) : String :=
  match raw.bind (decodeRiskSpec {}) with
  | none => ""
  | some spec =>
    ((([spec.riskType, spec.type, spec.classification] ++ spec.categories.items).map
      normalizeMaliciousRiskType).find? (· ≠ "")).getD ""

def classifyMaliciousRiskType (raw : Option Json) (summary details : String) : String :=
  if maliciousRiskTypeFromJSON raw ≠ "" then maliciousRiskTypeFromJSON raw
  else
    let lower := toLower (summary ++ " " ++ details)
    if contains lower "typosquat" then "typosquatting"
    else if contains lower "supply chain" || contains lower "supply-chain" then "supply_chain"
    else if contains lower "dependency confusion" then "supply_chain"
    else "malware"

end Feed

end Packmon

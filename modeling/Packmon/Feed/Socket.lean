import Packmon.Feed.Common
import Packmon.Store.Lookup

/-!
# The Socket.dev worker

Every issue of a response whose type is a risk becomes a finding under an id made of the package and the
type.  Of several issues of one type the last one replaces the versions of the others
(`processIssues_keeps_coverage_iff`).
-/

namespace Packmon.Feed.Socket

open GoText Version

def feedName : String := "socket"

def ecosystemMap : List (String × String) :=
  [("npm", "npm"), ("pypi", "pypi"), ("go", "go"), ("maven", "maven"), ("cargo", "cargo"),
    ("nuget", "nuget"), ("composer", "packagist"), ("gem", "rubygems")]

def socketIssueRiskTypes : List (String × String) :=
  [("malware", "malware"), ("installScripts", "supply_chain"), ("networkAccess", "supply_chain"),
    ("shellAccess", "supply_chain"), ("filesystemAccess", "supply_chain"), ("envVars", "supply_chain"),
    ("obfuscatedCode", "supply_chain"), ("typosquat", "typosquatting"), ("protestware", "malware"),
    ("criticalCVE", "supply_chain"), ("highEntropyStrings", "supply_chain"),
    ("telemetry", "supply_chain")]

/-- The package of a job. -/
structure RefreshJob where
  ecosystem : String
  name : String

structure IssueEntry where
  type : String
  severity : String := ""
  title : String := ""
  version : String := ""
  packageVersion : String := ""
  versions : List String := []
  affectedVersions : List String := []

/-- A response; the version of its package may be absent. -/
structure ScoreResponse where
  issues : List IssueEntry := []
  packageVersion : Option String := none

def mapSocketSeverity (socketSev : String) : String :=
  match toLower socketSev with
  | "critical" => "CRITICAL"
  | "high" => "HIGH"
  | "medium" | "moderate" => "MEDIUM"
  | "low" => "LOW"
  | _ => "CRITICAL"

/-- The versions of an issue and of the package, each once and without blank ones. -/
def issueVersionList (issue : IssueEntry) (packageVersion : Option String) : List String :=
  (([issue.version, issue.packageVersion] ++ packageVersion.toList ++ issue.versions ++
    issue.affectedVersions).map trimSpace).foldl
      (fun out value => if value = "" ∨ value ∈ out then out else out ++ [value]) []

def socketIssueVersions (issue : IssueEntry) (packageVersion : Option String) : String :=
  if issueVersionList issue packageVersion = [] then ""
  else versionsJSON (issueVersionList issue packageVersion)

def findingID (job : RefreshJob) (issueType : String) : String :=
  "socket:" ++ job.ecosystem ++ "/" ++ job.name ++ ":" ++ issueType

def issueFinding (job : RefreshJob) (resp : ScoreResponse) (issue : IssueEntry) (riskType : String) :
    MaliciousFinding where
  id := findingID job issue.type
  ecosystem := job.ecosystem
  name := job.name
  versions := socketIssueVersions issue resp.packageVersion
  source := feedName
  riskType := riskType
  severity := mapSocketSeverity issue.severity
  summary := if issue.title = "" then
      "Socket.dev: " ++ issue.type ++ " detected in " ++ job.name
    else issue.title
  referenceURLs := marshal (.arr [.str ("https://socket.dev/" ++
    (ecosystemMap.lookup job.ecosystem).getD "" ++ "/package/" ++ job.name)])

def issueFindings (job : RefreshJob) (resp : ScoreResponse) : List MaliciousFinding :=
  resp.issues.filterMap fun issue =>
    (socketIssueRiskTypes.lookup issue.type).map (issueFinding job resp issue)

/-- Store the findings of a response; the errors and the store afterwards. -/
def processIssues (stamps : ℕ → Stamp) (job : RefreshJob) (resp : ScoreResponse) (db : Database) :
    List String × Database :=
  let (failures, db') := upsertEach stamps (issueFindings job resp) db
  (failures.map fun (mf, message) => "upsert malicious finding " ++ mf.id ++ ": " ++ message, db')

/-! ## Which versions are reported -/

/-- The issues that become findings. -/
def riskyIssues (resp : ScoreResponse) : List IssueEntry :=
  resp.issues.filter fun issue => (socketIssueRiskTypes.lookup issue.type).isSome

/-- The issue names the version, which is not blank. -/
def Named (issue : IssueEntry) (version : String) : Prop :=
  trimSpace version ≠ "" ∧
    ∃ value ∈ [issue.version, issue.packageVersion] ++ issue.versions ++ issue.affectedVersions,
      trimSpace value = version

/-- The ecosystem of a job as the store spells it. -/
def storedEcosystem (job : RefreshJob) : String := toLower (trimSpace job.ecosystem)

/-- The last issue of some type names the version or no version at all; or a finding that no issue
replaces reports it. -/
def KeptByIssues (job : RefreshJob) (resp : ScoreResponse) (db : Database) (version : String) : Prop :=
  (∃ issue, Tables.IsLast IssueEntry.type issue (riskyIssues resp) ∧
      (issueVersionList issue resp.packageVersion = [] ∨
        ∃ candidate ∈ issueVersionList issue resp.packageVersion,
          versionsEqual version candidate (storedEcosystem job) = true)) ∨
    ∃ row ∈ db.malicious, (∀ issue ∈ riskyIssues resp, findingID job issue.type ≠ row.id) ∧
      row.Affects (storedEcosystem job) (normalizePackageName (storedEcosystem job) job.name) version

section

variable {job : RefreshJob} {resp : ScoreResponse}

lemma findingID_injective : Function.Injective (findingID job) := by
  intro a b h
  have hlist := congrArg String.toList h
  simp only [findingID, String.toList_append] at hlist
  exact String.toList_inj.mp (List.append_cancel_left hlist)

/-- The findings are those of the risky issues, in turn. -/
lemma forall₂_issueFindings :
    List.Forall₂ (fun issue mf => ∃ riskType, socketIssueRiskTypes.lookup issue.type = some riskType ∧
        mf = issueFinding job resp issue riskType)
      (riskyIssues resp) (issueFindings job resp) := by
  unfold riskyIssues issueFindings
  generalize resp.issues = issues
  induction issues with
  | nil => exact .nil
  | cons issue issues ih =>
    cases h : socketIssueRiskTypes.lookup issue.type with
    | none =>
      rw [List.filter_cons_of_neg (by simp [h]), List.filterMap_cons_none (by simp [h])]
      exact ih
    | some riskType =>
      rw [List.filter_cons_of_pos (by simp [h]),
        List.filterMap_cons_some (b := issueFinding job resp issue riskType) (by simp [h])]
      exact .cons ⟨riskType, h, rfl⟩ ih

lemma source_of_mem_issueFindings : ∀ mf ∈ issueFindings job resp, mf.source = feedName := by
  intro mf h
  obtain ⟨issue, -, riskType, -, rfl⟩ := Tables.exists_of_mem_right forall₂_issueFindings h
  rfl

lemma map_id_issueFindings :
    (issueFindings job resp).map MaliciousFinding.id =
      (riskyIssues resp).map fun issue => findingID job issue.type := by
  refine (Tables.map_key_eq forall₂_issueFindings ?_).symm
  rintro issue mf ⟨riskType, -, rfl⟩
  rfl

/-- What the stored finding of an issue affects. -/
lemma holds_affects_iff {issue : IssueEntry} {riskType version : String} {row : MaliciousRow}
    (h : (issueFinding job resp issue riskType).Holds row) (hversion : trimSpace version ≠ "") :
    row.Affects (storedEcosystem job) (normalizePackageName (storedEcosystem job) job.name) version ↔
      issueVersionList issue resp.packageVersion = [] ∨
        ∃ candidate ∈ issueVersionList issue resp.packageVersion,
          versionsEqual version candidate (storedEcosystem job) = true := by
  obtain ⟨-, -, hactive, hecosystem, hname, -⟩ := h.columns
  have hlists : (issueFinding job resp issue riskType).Lists
      (issueVersionList issue resp.packageVersion) := ⟨rfl, rfl⟩
  have hrowEcosystem : row.ecosystem = storedEcosystem job := hecosystem
  have hrowName : row.name = normalizePackageName (storedEcosystem job) job.name := hname
  rw [MaliciousRow.Affects, hlists.accepts_iff h, or_iff_right hversion, and_iff_right hactive,
    and_iff_right hrowEcosystem, and_iff_right hrowName]

end

/-- When all findings of a response were stored, the versions its risky issues name are reported
exactly when the last issues of the types keep them. -/
theorem processIssues_keeps_coverage_iff (stamps : ℕ → Stamp) (job : RefreshJob)
    (resp : ScoreResponse) (db : Database) (hok : (processIssues stamps job resp db).1 = [])
    (version : String) :
    (∀ issue ∈ riskyIssues resp, Named issue version →
        (processIssues stamps job resp db).2.findMalicious (storedEcosystem job) job.name version ≠
          []) ↔
      ∀ issue ∈ riskyIssues resp, Named issue version → KeptByIssues job resp db version := by
  refine forall₂_congr fun issue _ => imp_congr_right fun hnamed => ?_
  obtain ⟨herrors, -⟩ :=
    @upsertEach_spec stamps (issueFindings job resp) feedName db source_of_mem_issueFindings
  have hall : (issueFindings job resp).filter (·.writable db) = issueFindings job resp := by
    have hnil : (upsertEach stamps (issueFindings job resp) db).1 = [] := List.map_eq_nil_iff.mp hok
    rw [hnil, List.length_nil, eq_comm, List.countP_eq_zero] at herrors
    exact List.filter_eq_self.mpr fun mf hmf => by simpa using herrors mf hmf
  have hstored : ∀ mf ∈ issueFindings job resp, ∃ row, mf.Holds row := by
    intro mf hmf
    rw [← hall] at hmf
    obtain ⟨⟨make, hmake⟩, -⟩ := writable_iff.mp (List.of_mem_filter hmf)
    exact ⟨make (stamps 0), make, stamps 0, hmake, rfl⟩
  have haffects : ∀ mf ∈ issueFindings job resp, ∀ row, mf.Holds row →
      ((∃ row', mf.Holds row' ∧ row'.Affects (storedEcosystem job)
        (normalizePackageName (storedEcosystem job) job.name) version) ↔
        row.Affects (storedEcosystem job) (normalizePackageName (storedEcosystem job) job.name)
          version) := by
    intro mf hmf row hrow
    obtain ⟨other, -, riskType, -, rfl⟩ := Tables.exists_of_mem_right forall₂_issueFindings hmf
    refine ⟨?_, fun h => ⟨row, hrow, h⟩⟩
    rintro ⟨row', hrow', h⟩
    exact (holds_affects_iff hrow hnamed.1).mpr ((holds_affects_iff hrow' hnamed.1).mp h)
  have hlast : (∃ mf, Tables.IsLast MaliciousFinding.id mf (issueFindings job resp) ∧
      ∃ row, mf.Holds row ∧ row.Affects (storedEcosystem job)
        (normalizePackageName (storedEcosystem job) job.name) version) ↔
      ∃ issue, Tables.IsLast (fun issue => findingID job issue.type) issue (riskyIssues resp) ∧
        (issueVersionList issue resp.packageVersion = [] ∨
          ∃ candidate ∈ issueVersionList issue resp.packageVersion,
            versionsEqual version candidate (storedEcosystem job) = true) := by
    refine Tables.exists_isLast_iff forall₂_issueFindings ?_ ?_
    · rintro other mf ⟨riskType, -, rfl⟩
      rfl
    · rintro other hother mf ⟨riskType, hrisk, rfl⟩
      have hmf : issueFinding job resp other riskType ∈ issueFindings job resp :=
        List.mem_filterMap.mpr ⟨other, List.mem_of_mem_filter hother, by rw [hrisk, Option.map_some]⟩
      obtain ⟨row, hrow⟩ := hstored _ hmf
      rw [haffects _ hmf row hrow, holds_affects_iff hrow hnamed.1]
  rw [findMalicious_ne_nil_iff]
  change (∃ row ∈ (upsertEach stamps (issueFindings job resp) db).2.malicious, _) ↔ _
  rw [exists_malicious_upsertEach_iff source_of_mem_issueFindings haffects, hall, hlast]
  simp only [Tables.isLast_comp_iff findingID_injective, map_id_issueFindings, List.mem_map, not_exists,
    not_and, KeptByIssues, ne_eq]

section Example

/-- Two issues of one type that name different versions. -/
def twoIssues : ScoreResponse where
  issues := [{ type := "malware", version := "1.0.0" }, { type := "malware", version := "2.0.0" }]

theorem processIssues_keeps_last_issue :
    KeptByIssues ⟨"npm", "left"⟩ twoIssues {} "2.0.0" :=
  (processIssues_keeps_coverage_iff (fun i => ⟨i + 1, i + 1⟩) ⟨"npm", "left"⟩ twoIssues {}
    (by decide +kernel) "2.0.0").mp (fun _ _ _ => by decide +kernel)
    { type := "malware", version := "2.0.0" }
    (List.mem_filter.mpr ⟨List.mem_cons_of_mem _ List.mem_cons_self, by decide⟩)
    ⟨by decide, "2.0.0", List.mem_cons_self, by decide⟩

/-- The second issue takes the place of the first. -/
theorem processIssues_loses_first_issue :
    (processIssues (fun i => ⟨i + 1, i + 1⟩) ⟨"npm", "left"⟩ twoIssues {}).1 = [] ∧
      (∃ issue ∈ riskyIssues twoIssues, Named issue "1.0.0") ∧
      (processIssues (fun i => ⟨i + 1, i + 1⟩) ⟨"npm", "left"⟩ twoIssues {}).2.findMalicious "npm"
        "left" "1.0.0" = [] := by
  refine ⟨by decide +kernel, ⟨{ type := "malware", version := "1.0.0" }, ?_, ?_⟩, by decide +kernel⟩
  · exact List.mem_filter.mpr ⟨List.mem_cons_self, by decide⟩
  · exact ⟨by decide, "1.0.0", List.mem_cons_self, by decide⟩

end Example

end Packmon.Feed.Socket

import Packmon.Library.Chunking
import Packmon.Local.Lookup
import Packmon.Local.NameNormalisation
import Packmon.Store.Lookup
import Packmon.Version.FixAdvice
import Mathlib.Data.Multiset.Bind

/-!
# Single and batch lookups in the local store

A lookup of one package version filters the rows of the package.  A batch groups the requested versions by
package, asks for the rows of many packages in one statement, and reports every row for each requested
version of its package.  Whatever is requested, the batch reports the same findings as the lookups of the
distinct requests, one by one (`batchLookup_eq_lookups`).

The statements have no order, so the rows come in any (`Scan`).
-/

namespace Packmon.Local

open GoText Version Chunking

/-! ### Findings -/

structure ResourceLink where
  label : String
  url : String
  deriving DecidableEq, Repr

/-- How links are read from the references of a row. -/
structure FindingLinks where
  resourceLinksFromVulnerabilityReferences : String → String → List ResourceLink
  firstURLFromJSON : String → String

structure LocalFinding extends Finding where
  url : String
  resources : List ResourceLink := []
  fixedVersion : String := ""
  deriving DecidableEq

/-- The rows of the two tables. -/
structure LocalStore where
  vulnerabilities : List SyncVulnerability
  malicious : List SyncMalicious

def localFindingSource (source : String) : String :=
  if trimSpace source = "" then "local" else trimSpace source

def extractFixedVersionConstraintFor (installed versionRangesJSON ecosystem : String) : String :=
  let fixed := extractFixedVersionFor installed versionRangesJSON ecosystem
  if fixed = "" then "" else ">= " ++ fixed

def localVulnerabilityFinding (links : FindingLinks) (row : SyncVulnerability) (version : String) :
    LocalFinding :=
  let resources := links.resourceLinksFromVulnerabilityReferences row.id row.references
  { name := row.name
    version := version
    ecosystem := row.ecosystem
    type := .vulnerability
    severity := row.severity
    advisoryID := row.id
    title := if row.summary = "" then row.id else row.summary
    url := (resources.head?.map ResourceLink.url).getD ""
    resources := resources
    fixedVersion := extractFixedVersionConstraintFor version row.versionRanges row.ecosystem
    source := localFindingSource row.source }

def localMaliciousFinding (links : FindingLinks) (row : SyncMalicious) (version : String) : LocalFinding where
  name := row.name
  version := version
  ecosystem := row.ecosystem
  type := findingTypeForMaliciousRiskType row.riskType
  severity := row.severity
  advisoryID := row.id
  title := if row.summary = "" then "malicious package: " ++ row.name ++ " (" ++ row.riskType ++ ")"
    else row.summary
  url := links.firstURLFromJSON row.referenceURLs
  riskType := row.riskType
  source := localFindingSource row.source

/-! ### Statements -/

/-- The order in which the rows of a statement come. -/
structure Scan (ρ : Type) where
  order : List ρ → List ρ
  perm : ∀ rows, (order rows).Perm rows

structure LocalPackageKey where
  ecosystem : String
  name : String
  deriving DecidableEq, Repr

/-- The rows of one package. -/
def rowsOf {ρ : Type} (keyOf : ρ → LocalPackageKey) (rows : List ρ) (key : LocalPackageKey) : List ρ :=
  rows.filter fun row => keyOf row = key

/-- The rows joined with the requested packages. -/
def joined {ρ : Type} (keyOf : ρ → LocalPackageKey) (rows : List ρ) (keys : List LocalPackageKey) : List ρ :=
  rows.flatMap fun row => (keys.filter fun key => key = keyOf row).map fun _ => row

/-- Runs a step that can fail for every item, and joins what it reports. -/
def collectM {α β : Type} (step : α → Except String (List β)) (items : List α) : Except String (List β) :=
  (items.mapM step).map List.flatten

/-! ### Requests -/

structure PackageQuery where
  ecosystem : String
  name : String
  version : String := ""
  deriving DecidableEq, Repr

/-- The package and version a query asks for; one without an ecosystem or name asks for none. -/
def PackageQuery.request (pkg : PackageQuery) : Option (LocalPackageKey × String) :=
  let ecosystem := trimSpace pkg.ecosystem
  let name := normalizePackageName ecosystem (trimSpace pkg.name)
  if ecosystem = "" || name = "" then none else some (⟨ecosystem, name⟩, trimSpace pkg.version)

/-- The distinct packages and versions that are asked for. -/
def distinctRequests (packages : List PackageQuery) : List (LocalPackageKey × String) :=
  (packages.filterMap PackageQuery.request).dedup

def localPackagePredicateChunkSize : ℕ := 400

/-- The largest number of keys in a chunk. -/
def chunkSize (maxKeys : ℤ) : ℕ := if maxKeys ≤ 0 then localPackagePredicateChunkSize else maxKeys.toNat

/-- The chunks of the requests.  The keys of a chunk are the arguments of its statement, in which every key
has one and the same fragment. -/
def localPackagePredicateChunks (packages : List PackageQuery) (maxKeys : ℤ) :
    List (Chunk LocalPackageKey String) :=
  (build (chunkSize maxKeys) (packages.filterMap PackageQuery.request)).filter fun chunk => chunk.keys ≠ []

/-! ### Vulnerabilities -/

def vulnerabilityKey (row : SyncVulnerability) : LocalPackageKey := ⟨row.ecosystem, row.name⟩

section

variable (links : FindingLinks) (store : LocalStore)

def findVulnerabilities (scan : Scan SyncVulnerability) (ecosystem name version : String) :
    List LocalFinding :=
  let ecosystem := trimSpace ecosystem
  let name := normalizePackageName ecosystem (trimSpace name)
  let version := trimSpace version
  (scan.order (rowsOf vulnerabilityKey store.vulnerabilities ⟨ecosystem, name⟩)).flatMap fun row =>
    if localVulnerabilityAffectsVersion row version then
      [{ localVulnerabilityFinding links row version with
          fixedVersion := extractFixedVersionConstraintFor version row.versionRanges ecosystem }]
    else []

/-- What a row reports for one requested version. -/
def vulnerabilityReport (row : SyncVulnerability) (version : String) : List LocalFinding :=
  if localVulnerabilityAffectsVersion row version then [localVulnerabilityFinding links row version] else []

def findVulnerabilitiesBatchChunk (scan : Scan SyncVulnerability)
    (chunk : Chunk LocalPackageKey String) : List LocalFinding :=
  (scan.order (joined vulnerabilityKey store.vulnerabilities chunk.keys)).flatMap fun row =>
    match chunk.values (vulnerabilityKey row) with
    | [] => [localVulnerabilityFinding links row ""]
    | versions => versions.flatMap (vulnerabilityReport links row)

def findVulnerabilitiesBatch (scan : Scan SyncVulnerability) (packages : List PackageQuery) :
    List LocalFinding :=
  (localPackagePredicateChunks packages localPackagePredicateChunkSize).flatMap
    (findVulnerabilitiesBatchChunk links store scan)

/-! ### Malicious packages -/

def maliciousKey (row : SyncMalicious) : LocalPackageKey := ⟨row.ecosystem, row.name⟩

/-- What a row reports for one requested version. -/
def maliciousReport (row : SyncMalicious) (version : String) : Except String (List LocalFinding) :=
  (localMaliciousAffectsVersion row.id row.ecosystem version row.versionRanges row.versions).map
    fun affected => if affected then [localMaliciousFinding links row version] else []

def findMalicious (scan : Scan SyncMalicious) (ecosystem name version : String) :
    Except String (List LocalFinding) :=
  let ecosystem := trimSpace ecosystem
  let name := normalizePackageName ecosystem (trimSpace name)
  let version := trimSpace version
  collectM (fun row => maliciousReport links row version)
    (scan.order (rowsOf maliciousKey store.malicious ⟨ecosystem, name⟩))

def findMaliciousBatchChunk (scan : Scan SyncMalicious) (chunk : Chunk LocalPackageKey String) :
    Except String (List LocalFinding) :=
  collectM (fun row =>
    match chunk.values (maliciousKey row) with
    | [] => .ok [localMaliciousFinding links row ""]
    | versions => collectM (maliciousReport links row) versions)
    (scan.order (joined maliciousKey store.malicious chunk.keys))

def findMaliciousBatch (scan : Scan SyncMalicious) (packages : List PackageQuery) :
    Except String (List LocalFinding) :=
  collectM (findMaliciousBatchChunk links store scan)
    (localPackagePredicateChunks packages localPackagePredicateChunkSize)

end

/-! ### Chunks of the requests -/

lemma chunkSize_pos (maxKeys : ℤ) : 0 < chunkSize maxKeys := by
  unfold chunkSize localPackagePredicateChunkSize
  split <;> omega

/-- No chunk is empty. -/
lemma localPackagePredicateChunks_eq (packages : List PackageQuery) (maxKeys : ℤ) :
    localPackagePredicateChunks packages maxKeys =
      build (chunkSize maxKeys) (packages.filterMap PackageQuery.request) := by
  refine List.filter_eq_self.mpr fun chunk hchunk => ?_
  simpa using (length_keys_build (chunkSize_pos maxKeys) _ hchunk).1

/-- A request is canonical already. -/
lemma request_canonical {pkg : PackageQuery} {key : LocalPackageKey} {version : String}
    (h : pkg.request = some (key, version)) :
    trimSpace key.ecosystem = key.ecosystem ∧
      normalizePackageName key.ecosystem (trimSpace key.name) = key.name ∧ trimSpace version = version := by
  simp only [PackageQuery.request] at h
  split at h
  · cases h
  · obtain ⟨rfl, rfl⟩ := Prod.ext_iff.mp (Option.some.inj h)
    refine ⟨trimSpace_trimSpace _, ?_, trimSpace_trimSpace _⟩
    dsimp only
    rw [trimSpace_normalizePackageName, normalizePackageName_idem]

/-! ### Rows of a chunk -/

section

variable {ρ β : Type} {keyOf : ρ → LocalPackageKey} {rows : List ρ}

lemma mem_joined {keys : List LocalPackageKey} {row : ρ} :
    row ∈ joined keyOf rows keys ↔ row ∈ rows ∧ keyOf row ∈ keys := by
  simp only [joined, List.mem_flatMap, List.mem_map, List.mem_filter, decide_eq_true_eq]
  constructor
  · rintro ⟨row', hrow, key, ⟨hkey, rfl⟩, rfl⟩
    exact ⟨hrow, hkey⟩
  · rintro ⟨hrow, hkey⟩
    exact ⟨row, hrow, _, ⟨hkey, rfl⟩, rfl⟩

/-- A filter in front of a loop is a condition in it. -/
lemma flatMap_filter_eq {α : Type} (items : List α) (p : α → Prop) [DecidablePred p] (f : α → List β) :
    (items.filter fun a => p a).flatMap f = items.flatMap fun a => if p a then f a else [] := by
  induction items with
  | nil => rfl
  | cons a items ih =>
    rw [List.flatMap_cons, ← ih]
    by_cases h : p a <;> simp [h]

/-- Two loops can be exchanged. -/
lemma flatMap_swap_perm {α γ : Type} (xs : List α) (ys : List γ) (f : α → γ → List β) :
    (xs.flatMap fun a => ys.flatMap (f a)).Perm (ys.flatMap fun b => xs.flatMap fun a => f a b) := by
  rw [← Multiset.coe_eq_coe]
  simp only [← Multiset.coe_bind]
  exact Multiset.bind_bind _ _

/-- The rows of a chunk, each with the versions requested for it. -/
lemma flatMap_joined_eq (report : ρ → String → List β) (chunk : Chunk LocalPackageKey String) :
    ((joined keyOf rows chunk.keys).flatMap fun row => (chunk.values (keyOf row)).flatMap (report row)) =
      rows.flatMap fun row => chunk.pairs.flatMap fun request =>
        if keyOf row = request.1 then report row request.2 else [] := by
  rw [joined, List.flatMap_assoc]
  congr 1
  funext row
  rw [Chunk.pairs, List.flatMap_map, flatMap_filter_eq, List.flatMap_assoc]
  congr 1
  funext key
  rw [List.flatMap_map]
  by_cases h : key = keyOf row
  · subst h
    simp
  · simp [h, Ne.symm h]

/-- Reporting the rows of a chunk row by row, or request by request. -/
lemma flatMap_joined_perm (report : ρ → String → List β) (scan scan' : Scan ρ)
    (chunk : Chunk LocalPackageKey String) :
    ((scan.order (joined keyOf rows chunk.keys)).flatMap fun row =>
      (chunk.values (keyOf row)).flatMap (report row)).Perm
    (chunk.pairs.flatMap fun request =>
      (scan'.order (rowsOf keyOf rows request.1)).flatMap fun row => report row request.2) := by
  have hrows (request : LocalPackageKey × String) :
      ((scan'.order (rowsOf keyOf rows request.1)).flatMap fun row => report row request.2).Perm
        (rows.flatMap fun row => if keyOf row = request.1 then report row request.2 else []) := by
    rw [← flatMap_filter_eq]
    exact (scan'.perm _).flatMap_right _
  have hpairs := List.Perm.flatMap_left chunk.pairs fun request _ => hrows request
  refine ((scan.perm _).flatMap_right _).trans (.trans ?_ hpairs.symm)
  rw [flatMap_joined_eq]
  exact flatMap_swap_perm _ _ _

end

/-! ### Steps that can fail -/

section

variable {α β : Type} {step : α → Except String (List β)} {items : List α} {out : List β}

/-- What a step reports where it does not fail. -/
def reported (step : α → Except String (List β)) (item : α) : List β := (step item).toOption.getD []

lemma eq_map_reported {results : List (List β)} (h : items.mapM step = .ok results) :
    results = items.map (reported step) := by
  have hforall := forall₂_of_mapM h
  clear h
  induction hforall with
  | nil => rfl
  | cons hstep _ ih =>
    rw [List.map_cons, ← ih, reported, hstep]
    rfl

/-- The loop succeeds when every step does, and then reports what the steps report. -/
lemma collectM_eq_ok :
    collectM step items = .ok out ↔ (∀ item ∈ items, ∃ result, step item = .ok result) ∧
      items.flatMap (reported step) = out := by
  rw [collectM, map_eq_ok, ← exists_mapM_eq_ok, List.flatMap_def]
  constructor
  · rintro ⟨results, hresults, rfl⟩
    exact ⟨⟨results, hresults⟩, by rw [← eq_map_reported hresults]⟩
  · rintro ⟨⟨results, hresults⟩, rfl⟩
    exact ⟨results, hresults, by rw [eq_map_reported hresults]⟩

lemma exists_collectM_eq_ok :
    (∃ out, collectM step items = .ok out) ↔ ∀ item ∈ items, ∃ result, step item = .ok result := by
  simp only [collectM_eq_ok, exists_and_left, exists_eq', and_true]

lemma collectM_congr {step' : α → Except String (List β)} (h : ∀ item ∈ items, step item = step' item) :
    collectM step items = collectM step' items := by
  have hmap : items.mapM step = items.mapM step' := by
    induction items with
    | nil => rfl
    | cons item items ih =>
      rw [List.mapM_cons, List.mapM_cons, h item List.mem_cons_self,
        ih fun item hitem => h item (List.mem_cons_of_mem _ hitem)]
  rw [collectM, collectM, hmap]

lemma reported_collectM (h : ∀ item ∈ items, ∃ result, step item = .ok result) :
    (collectM step items).toOption.getD [] = items.flatMap (reported step) := by
  rw [collectM_eq_ok.mpr ⟨h, rfl⟩]
  rfl

end

/-- Both fail, or both report the same findings, as multisets. -/
def SameFindings : Except String (List LocalFinding) → Except String (List LocalFinding) → Prop
  | .ok findings, .ok findings' => findings.Perm findings'
  | .error _, .error _ => True
  | _, _ => False

lemma sameFindings_of_ok {x y : Except String (List LocalFinding)}
    (hok : (∃ out, x = .ok out) ↔ ∃ out, y = .ok out)
    (hperm : ∀ out out', x = .ok out → y = .ok out' → out.Perm out') : SameFindings x y := by
  cases x with
  | error message =>
    cases y with
    | error message' => trivial
    | ok out' =>
      obtain ⟨out, hout⟩ := hok.mpr ⟨out', rfl⟩
      cases hout
  | ok out =>
    cases y with
    | error message' =>
      obtain ⟨out', hout'⟩ := hok.mp ⟨out, rfl⟩
      cases hout'
    | ok out' => exact hperm out out' rfl rfl

/-! ### Batches and single lookups -/

section

variable {links : FindingLinks} {store : LocalStore} {packages : List PackageQuery}

/-- In a chunk, every row that is joined has a requested version. -/
lemma values_ne_of_mem_joined {ρ : Type} {keyOf : ρ → LocalPackageKey} {rows : List ρ} {maxKeys : ℤ}
    {chunk : Chunk LocalPackageKey String} (hchunk : chunk ∈ localPackagePredicateChunks packages maxKeys)
    {row : ρ} (hrow : row ∈ joined keyOf rows chunk.keys) : chunk.values (keyOf row) ≠ [] := by
  rw [localPackagePredicateChunks_eq] at hchunk
  exact values_ne_build (chunkSize_pos maxKeys) _ hchunk (mem_joined.mp hrow).2

lemma pairs_perm_distinctRequests (packages : List PackageQuery) (maxKeys : ℤ) :
    ((localPackagePredicateChunks packages maxKeys).flatMap Chunk.pairs).Perm (distinctRequests packages) := by
  rw [localPackagePredicateChunks_eq]
  exact pairs_build_perm (chunkSize_pos maxKeys) _

/-- Reporting the rows of all chunks, or those of each distinct request. -/
lemma flatMap_chunks_perm {ρ β : Type} {keyOf : ρ → LocalPackageKey} {rows : List ρ}
    (report : ρ → String → List β) (scan scan' : Scan ρ) (maxKeys : ℤ) :
    ((localPackagePredicateChunks packages maxKeys).flatMap fun chunk =>
      (scan.order (joined keyOf rows chunk.keys)).flatMap fun row =>
        (chunk.values (keyOf row)).flatMap (report row)).Perm
    ((distinctRequests packages).flatMap fun request =>
      (scan'.order (rowsOf keyOf rows request.1)).flatMap fun row => report row request.2) := by
  refine .trans ?_ ((pairs_perm_distinctRequests packages maxKeys).flatMap_right _)
  rw [List.flatMap_assoc]
  exact List.Perm.flatMap_left _ fun chunk _ => flatMap_joined_perm report scan scan' chunk

lemma mem_distinctRequests {request : LocalPackageKey × String} :
    request ∈ distinctRequests packages ↔ ∃ pkg ∈ packages, pkg.request = some request := by
  rw [distinctRequests, List.mem_dedup, List.mem_filterMap]

lemma findVulnerabilitiesBatch_eq (scan : Scan SyncVulnerability) :
    findVulnerabilitiesBatch links store scan packages =
      (localPackagePredicateChunks packages localPackagePredicateChunkSize).flatMap fun chunk =>
        (scan.order (joined vulnerabilityKey store.vulnerabilities chunk.keys)).flatMap fun row =>
          (chunk.values (vulnerabilityKey row)).flatMap (vulnerabilityReport links row) := by
  refine List.flatMap_congr fun chunk hchunk => List.flatMap_congr fun row hrow => ?_
  have hne := values_ne_of_mem_joined hchunk ((scan.perm _).mem_iff.mp hrow)
  split
  · next hnil => exact absurd hnil hne
  · rfl

/-- The lookup of a request. -/
lemma findVulnerabilities_request (scan : Scan SyncVulnerability) {request : LocalPackageKey × String}
    (hrequest : request ∈ distinctRequests packages) :
    findVulnerabilities links store scan request.1.ecosystem request.1.name request.2 =
      (scan.order (rowsOf vulnerabilityKey store.vulnerabilities request.1)).flatMap fun row =>
        vulnerabilityReport links row request.2 := by
  obtain ⟨pkg, -, hpkg⟩ := mem_distinctRequests.mp hrequest
  obtain ⟨hecosystem, hname, hversion⟩ := request_canonical hpkg
  simp only [findVulnerabilities, hecosystem, hname, hversion]
  refine List.flatMap_congr fun row hrow => ?_
  have hkey : vulnerabilityKey row = request.1 := by
    simpa using (List.mem_filter.mp ((scan.perm _).mem_iff.mp hrow)).2
  rw [← hkey]
  rfl

lemma findMalicious_request (scan : Scan SyncMalicious) {request : LocalPackageKey × String}
    (hrequest : request ∈ distinctRequests packages) :
    findMalicious links store scan request.1.ecosystem request.1.name request.2 =
      collectM (fun row => maliciousReport links row request.2)
        (scan.order (rowsOf maliciousKey store.malicious request.1)) := by
  obtain ⟨pkg, -, hpkg⟩ := mem_distinctRequests.mp hrequest
  obtain ⟨hecosystem, hname, hversion⟩ := request_canonical hpkg
  simp only [findMalicious, hecosystem, hname, hversion]

lemma findMaliciousBatchChunk_eq (scan : Scan SyncMalicious) {chunk : Chunk LocalPackageKey String}
    {maxKeys : ℤ} (hchunk : chunk ∈ localPackagePredicateChunks packages maxKeys) :
    findMaliciousBatchChunk links store scan chunk =
      collectM (fun row => collectM (maliciousReport links row) (chunk.values (maliciousKey row)))
        (scan.order (joined maliciousKey store.malicious chunk.keys)) := by
  refine collectM_congr fun row hrow => ?_
  have hne := values_ne_of_mem_joined hchunk ((scan.perm _).mem_iff.mp hrow)
  split
  · next hnil => exact absurd hnil hne
  · rfl

/-- A row can be evaluated for the versions of every chunk when it can be for every distinct request. -/
lemma forall_chunks_iff {ρ : Type} {keyOf : ρ → LocalPackageKey} {rows : List ρ} {P : ρ → String → Prop}
    (maxKeys : ℤ) :
    (∀ chunk ∈ localPackagePredicateChunks packages maxKeys, ∀ row ∈ joined keyOf rows chunk.keys,
      ∀ version ∈ chunk.values (keyOf row), P row version) ↔
    ∀ request ∈ distinctRequests packages, ∀ row ∈ rowsOf keyOf rows request.1, P row request.2 := by
  constructor
  · intro h request hrequest row hrow
    have hpairs := (pairs_perm_distinctRequests packages maxKeys).mem_iff.mpr hrequest
    obtain ⟨chunk, hchunk, hpair⟩ := List.mem_flatMap.mp hpairs
    obtain ⟨hkey, hversion⟩ := Chunk.mem_pairs.mp hpair
    obtain ⟨hmem, hrowKey⟩ := List.mem_filter.mp hrow
    have heq : keyOf row = request.1 := by simpa using hrowKey
    exact h chunk hchunk row (mem_joined.mpr ⟨hmem, heq ▸ hkey⟩) request.2 (heq ▸ hversion)
  · intro h chunk hchunk row hrow version hversion
    obtain ⟨hmem, hkey⟩ := mem_joined.mp hrow
    have hrequest : (keyOf row, version) ∈ distinctRequests packages :=
      (pairs_perm_distinctRequests packages maxKeys).mem_iff.mp
        (List.mem_flatMap.mpr ⟨chunk, hchunk, Chunk.mem_pairs.mpr ⟨hkey, hversion⟩⟩)
    exact h _ hrequest row (List.mem_filter.mpr ⟨hmem, by simp⟩)

lemma exists_findMaliciousBatch_eq_ok (scan : Scan SyncMalicious) :
    (∃ out, findMaliciousBatch links store scan packages = .ok out) ↔
      ∀ chunk ∈ localPackagePredicateChunks packages localPackagePredicateChunkSize,
        ∀ row ∈ joined maliciousKey store.malicious chunk.keys,
          ∀ version ∈ chunk.values (maliciousKey row), ∃ out, maliciousReport links row version = .ok out := by
  rw [findMaliciousBatch, exists_collectM_eq_ok]
  refine forall₂_congr fun chunk hchunk => ?_
  rw [findMaliciousBatchChunk_eq scan hchunk, exists_collectM_eq_ok]
  simp only [(scan.perm _).mem_iff, exists_collectM_eq_ok]

lemma exists_lookups_eq_ok (scan : Scan SyncMalicious) :
    (∃ out, collectM (fun request => findMalicious links store scan request.1.ecosystem request.1.name request.2)
      (distinctRequests packages) = .ok out) ↔
      ∀ request ∈ distinctRequests packages, ∀ row ∈ rowsOf maliciousKey store.malicious request.1,
        ∃ out, maliciousReport links row request.2 = .ok out := by
  rw [exists_collectM_eq_ok]
  refine forall₂_congr fun request hrequest => ?_
  rw [findMalicious_request scan hrequest, exists_collectM_eq_ok]
  simp only [(scan.perm _).mem_iff]

/-- What a batch that succeeds reports. -/
lemma findMaliciousBatch_ok (scan : Scan SyncMalicious) {out : List LocalFinding}
    (h : findMaliciousBatch links store scan packages = .ok out) :
    out = (localPackagePredicateChunks packages localPackagePredicateChunkSize).flatMap fun chunk =>
      (scan.order (joined maliciousKey store.malicious chunk.keys)).flatMap fun row =>
        (chunk.values (maliciousKey row)).flatMap (reported (maliciousReport links row)) := by
  have hok := (exists_findMaliciousBatch_eq_ok scan).mp ⟨out, h⟩
  rw [← (collectM_eq_ok.mp h).2]
  refine List.flatMap_congr fun chunk hchunk => ?_
  have hrows : ∀ row ∈ scan.order (joined maliciousKey store.malicious chunk.keys),
      ∀ version ∈ chunk.values (maliciousKey row), ∃ out, maliciousReport links row version = .ok out := by
    intro row hrow
    exact hok chunk hchunk row ((scan.perm _).mem_iff.mp hrow)
  rw [reported, findMaliciousBatchChunk_eq scan hchunk,
    reported_collectM fun row hrow => exists_collectM_eq_ok.mpr (hrows row hrow)]
  exact List.flatMap_congr fun row hrow => reported_collectM (hrows row hrow)

lemma lookups_ok (scan : Scan SyncMalicious) {out : List LocalFinding}
    (h : collectM (fun request => findMalicious links store scan request.1.ecosystem request.1.name request.2)
      (distinctRequests packages) = .ok out) :
    out = (distinctRequests packages).flatMap fun request =>
      (scan.order (rowsOf maliciousKey store.malicious request.1)).flatMap fun row =>
        reported (maliciousReport links row) request.2 := by
  have hok := (exists_lookups_eq_ok scan).mp ⟨out, h⟩
  rw [← (collectM_eq_ok.mp h).2]
  refine List.flatMap_congr fun request hrequest => ?_
  have hrows : ∀ row ∈ scan.order (rowsOf maliciousKey store.malicious request.1),
      ∃ out, maliciousReport links row request.2 = .ok out := by
    intro row hrow
    exact hok request hrequest row ((scan.perm _).mem_iff.mp hrow)
  rw [reported, findMalicious_request scan hrequest, reported_collectM hrows]
  rfl

end

/-- A batch reports, as a multiset, what the lookups of the distinct requests report, and fails when one of
them does; and of the packages that are asked for, each is in one chunk, once, and no chunk is larger than
allowed. -/
theorem batchLookup_eq_lookups (links : FindingLinks) (store : LocalStore) (packages : List PackageQuery)
    (scan scan' : Scan SyncVulnerability) (scanMalicious scanMalicious' : Scan SyncMalicious) :
    (findVulnerabilitiesBatch links store scan packages).Perm
      ((distinctRequests packages).flatMap fun request =>
        findVulnerabilities links store scan' request.1.ecosystem request.1.name request.2) ∧
    SameFindings (findMaliciousBatch links store scanMalicious packages)
      (collectM (fun request =>
        findMalicious links store scanMalicious' request.1.ecosystem request.1.name request.2)
        (distinctRequests packages)) ∧
    ∀ maxKeys : ℤ,
      ((localPackagePredicateChunks packages maxKeys).flatMap Chunk.keys).Nodup ∧
      (∀ key, key ∈ (localPackagePredicateChunks packages maxKeys).flatMap Chunk.keys ↔
        ∃ pkg ∈ packages, ∃ version, pkg.request = some (key, version)) ∧
      ∀ chunk ∈ localPackagePredicateChunks packages maxKeys, chunk.keys.length ≤ chunkSize maxKeys := by
  refine ⟨?_, ?_, ?_⟩
  · rw [findVulnerabilitiesBatch_eq]
    refine (flatMap_chunks_perm (vulnerabilityReport links) scan scan' _).trans ?_
    exact List.Perm.of_eq (List.flatMap_congr fun request hrequest =>
      (findVulnerabilities_request scan' hrequest).symm)
  · apply sameFindings_of_ok
    · rw [exists_findMaliciousBatch_eq_ok, exists_lookups_eq_ok]
      exact forall_chunks_iff _
    · intro out out' hout hout'
      rw [findMaliciousBatch_ok scanMalicious hout, lookups_ok scanMalicious' hout']
      exact flatMap_chunks_perm (fun row => reported (maliciousReport links row)) _ _ _
  · intro maxKeys
    rw [localPackagePredicateChunks_eq]
    refine ⟨nodup_keys_build (chunkSize_pos maxKeys) _, ?_, ?_⟩
    · intro key
      rw [mem_keys_build (chunkSize_pos maxKeys)]
      simp only [List.mem_map, List.mem_filterMap, Prod.exists]
      constructor
      · rintro ⟨_, version, ⟨pkg, hpkg, hrequest⟩, rfl⟩
        exact ⟨pkg, hpkg, version, hrequest⟩
      · rintro ⟨pkg, hpkg, version, hrequest⟩
        exact ⟨key, version, ⟨pkg, hpkg, hrequest⟩, rfl⟩
    · intro chunk hchunk
      exact (length_keys_build (chunkSize_pos maxKeys) _ hchunk).2

end Packmon.Local

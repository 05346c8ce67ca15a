import Packmon.Sync.Queries

/-!
# The cursor of a page comes back with the next request

A page that is not the last one hands out a cursor, the client echoes it, and the server reads it
again.  The keyset strings and the done flags survive; the legacy row offsets only as long as they
stay within the bound the server puts on them, although they grow with every page.

`parseSyncCursor_nextSyncExportCursor_iff` is the exact condition under which a request that follows
`next_cursor` is accepted and reads back as the cursor that was handed out.
-/

namespace Packmon

open GoText (Values trimSpace)

/-! ## Accepted requests -/

/-- An accepted request carries an accepted cursor, a positive limit, and a since window exactly when
its since text is not blank. -/
lemma parseSyncExportOptions_ok {parseTime : String → Option Time} {query : Values}
    {opts : SyncExportOptions} (h : parseSyncExportOptions parseTime query = .ok opts) :
    parseSyncCursor query = .ok opts.cursor ∧
      (opts.since = none ↔ trimSpace (query.get "since") = "") := by
  unfold parseSyncExportOptions at h
  simp only [GoText.bind_eq_ok, pure, Except.pure, Except.ok.injEq] at h
  obtain ⟨since, hsince, _, -, _, -, _, -, _, -, _, -, cursor, hcursor, _, -, rfl⟩ := h
  refine ⟨hcursor, ?_⟩
  unfold parseSyncTimestamp at hsince
  split_ifs at hsince with hblank
  · simp only [Except.ok.injEq] at hsince
    simp [← hsince, hblank]
  · cases hparse : parseTime (trimSpace (query.get "since")) with
    | none => simp [hparse] at hsince
    | some time =>
      simp only [hparse, Except.ok.injEq] at hsince
      simp [← hsince, hblank]

/-! ## The keyset string of the vulnerability dataset -/

/-- Where a dataset paged by advisories continues has a name: behind a whole advisory the advisory's
id is not empty, and inside an advisory no part of the row is. -/
def SyncDatasets.ContinuesNamed (paging : SyncVulnerabilityPaging) (datasets : SyncDatasets) :
    Prop :=
  datasets.vulnerabilitiesHaveMore = true → paging = .advisoryPages ∨ paging = .advisorySplit →
    (paging = .advisoryPages → datasets.vulnerabilitiesNextCursor = "" →
      datasets.lastAdvisory ≠ "") ∧
    ∀ last ∈ datasets.vulnerabilities.getLast?,
      datasets.vulnerabilitiesNextCursor =
        encodeSyncAdvisoryRowCursor last.id last.ecosystem last.name → last.Named

open SyncVulnerabilityPageBuilder (OwnCursor)

/-- Off the advisory pages a query returns package rows only. -/
lemma withoutAffected_of_mem_query {view : PageView} {opts : SyncExportOptions}
    {rows : List ScannedRow} (hquery : exportSyncVulnerabilitiesQuery view opts = .ok rows)
    (hpaging : syncVulnerabilityPagingFor opts ≠ .advisoryPages) :
    ∀ row ∈ rows, row.withoutAffected = false := by
  have hitems (items : List SyncVulnerability) :
      ∀ row ∈ items.map (fun item => ({ item } : ScannedRow)), row.withoutAffected = false := by
    simp
  unfold exportSyncVulnerabilitiesQuery at hquery
  cases hp : syncVulnerabilityPagingFor opts with
  | advisoryPages => exact absurd hp hpaging
  | advisorySplit =>
    simp only [hp] at hquery
    cases hdecode : decodeSyncAdvisoryRowCursor opts.cursor.vulnerabilitiesCursor with
    | none => simp [hdecode] at hquery
    | some parts =>
      simp only [hdecode, Except.ok.injEq] at hquery
      exact hquery ▸ hitems _
  | rowKeyset =>
    simp only [hp] at hquery
    obtain ⟨cursor, -, rfl⟩ := GoText.map_eq_ok.mp hquery
    exact hitems _
  | deltaRowOffset =>
    simp only [hp] at hquery
    obtain ⟨cursor, -, rfl⟩ := GoText.map_eq_ok.mp hquery
    exact hitems _

/-- A request that continues inside an advisory names it. -/
lemma splitAdvisoryOf_ne_empty {opts : SyncExportOptions}
    (hpaging : syncVulnerabilityPagingFor opts = .advisorySplit) : splitAdvisoryOf opts ≠ "" := by
  obtain ⟨parts, hparts⟩ := decodeSyncAdvisoryRowCursor_of_split hpaging
  rw [splitAdvisoryOf, if_pos hpaging, hparts.1]
  exact hparts.2.1

/-- Every vulnerability page sets no keyset string itself, or one behind a whole advisory, or one
behind its last row. -/
lemma ownCursor_exportSyncVulnerabilities {budget : ℤ} {view : PageView} {opts : SyncExportOptions}
    {page : SyncVulnerabilityPage} (h : exportSyncVulnerabilities budget view opts = .ok page) :
    OwnCursor page := by
  unfold exportSyncVulnerabilities at h
  obtain ⟨rows, hrows, rfl⟩ := GoText.map_eq_ok.mp h
  set builder := newSyncVulnerabilityPageBuilder (syncVulnerabilityPagingFor opts) opts.limit
    (splitAdvisoryOf opts) budget with hbuilder
  have hfinish : OwnCursor (builder.addAll rows).finish := by
    by_cases hadvisory : syncVulnerabilityPagingFor opts = .advisoryPages
    · have hown := SyncVulnerabilityPageBuilder.ownCursor_addAll (b := builder) hadvisory rfl rfl rows
      have hpaging := SyncVulnerabilityPageBuilder.addAll_paging builder rows
      rw [show builder.paging = .advisoryPages from hadvisory] at hpaging
      unfold SyncVulnerabilityPageBuilder.finish
      rw [hpaging]
      dsimp only
      split_ifs
      · exact hown
      · exact hown
    · obtain ⟨taken, rest, -, h⟩ :=
        SyncVulnerabilityPageBuilder.exists_takesRows (b := builder) rfl hadvisory rfl rows
          (withoutAffected_of_mem_query hrows hadvisory)
      have hpaging' : (builder.addAll rows).paging = syncVulnerabilityPagingFor opts := h.paging
      have hnone : (builder.addAll rows).page.nextCursor = "" := by rw [h.page]; rfl
      unfold SyncVulnerabilityPageBuilder.finish
      cases hp : syncVulnerabilityPagingFor opts with
      | advisoryPages => exact absurd hp hadvisory
      | advisorySplit =>
        have hbehind : OwnCursor { (builder.addAll rows).page with
            nextCursor := encodeSyncAdvisoryCursor (builder.addAll rows).splitID } :=
          Or.inr (Or.inl ⟨_, by rw [h.splitID]; exact splitAdvisoryOf_ne_empty hp, rfl⟩)
        simp only [hpaging', hp]
        cases hlast : (builder.addAll rows).page.rows.getLast? with
        | none => exact hbehind
        | some last =>
          dsimp only
          split_ifs
          · exact Or.inr (Or.inr ⟨last, hlast, rfl⟩)
          · exact hbehind
      | rowKeyset => simp only [hpaging', hp]; exact Or.inl hnone
      | deltaRowOffset => simp only [hpaging', hp]; exact Or.inl hnone
  unfold SyncVulnerabilityPage.checkSplit
  split_ifs
  · exact hfinish
  · exact hfinish

/-! ## The round trip -/

/-- The vulnerability part of a page: its keyset string has one of the three shapes, and a dataset
that is done does not continue. -/
lemma exportSyncDatasets_vulnerabilities {budgets : SyncPageBudgets} {view : PageView}
    {opts : SyncExportOptions} {cursor : SyncCursor} {datasets : SyncDatasets}
    (h : exportSyncDatasets budgets view opts cursor = .ok datasets) :
    (datasets.vulnerabilitiesNextCursor = "" ∨
      (∃ id, id ≠ "" ∧ datasets.vulnerabilitiesNextCursor = encodeSyncAdvisoryCursor id) ∨
      ∃ last, datasets.vulnerabilities.getLast? = some last ∧
        datasets.vulnerabilitiesNextCursor =
          encodeSyncAdvisoryRowCursor last.id last.ecosystem last.name) ∧
      (cursor.vulnerabilitiesDone = true → datasets.vulnerabilitiesHaveMore = false) := by
  obtain ⟨page, malicious, reputation, lifecycle, hpage, -, -, -, rfl⟩ := exportSyncDatasets_ok h
  unfold unlessDone at hpage
  split_ifs at hpage with hdone
  · obtain rfl := Except.ok.inj hpage
    exact ⟨Or.inl rfl, fun _ => rfl⟩
  · exact ⟨ownCursor_exportSyncVulnerabilities hpage, fun h => absurd h hdone⟩

lemma isKeyset_keysetAfterLast {T : Type} {key : T → List String} {parts : ℕ}
    (hkey : ∀ row, (key row).length = parts) (rows : List T) :
    IsKeyset parts (keysetAfterLast key rows) := by
  unfold keysetAfterLast
  cases rows.getLast? with
  | none => exact Or.inl rfl
  | some last => exact Or.inr ⟨key last, hkey last, rfl⟩

/-- A dataset that is done carries no keyset string. -/
lemma IsKeyset.unlessDone {parts : ℕ} {raw : String} (h : IsKeyset parts raw) (done : Bool) :
    IsKeyset parts (if done then "" else raw) := by
  cases done
  · exact h
  · exact Or.inl rfl

/-- The keyset string a vulnerability page continues with is accepted, in a request with the since
window of the page, exactly when it continues behind something with a name. -/
lemma parse_nextVulnerabilitiesCursor_iff {query : Values} {paging : SyncVulnerabilityPaging}
    {datasets : SyncDatasets} (hmore : datasets.vulnerabilitiesHaveMore = true)
    (hsince : paging = .advisoryPages ∨ paging = .advisorySplit →
      trimSpace (query.get "since") ≠ "")
    (hown : datasets.vulnerabilitiesNextCursor = "" ∨
      (∃ id, id ≠ "" ∧ datasets.vulnerabilitiesNextCursor = encodeSyncAdvisoryCursor id) ∨
      ∃ last, datasets.vulnerabilities.getLast? = some last ∧
        datasets.vulnerabilitiesNextCursor =
          encodeSyncAdvisoryRowCursor last.id last.ecosystem last.name)
    (hget : query.get "vulnerabilities_cursor" = nextVulnerabilitiesCursor paging datasets) :
    parseSyncVulnerabilitiesKeyset query = .ok (nextVulnerabilitiesCursor paging datasets) ↔
      datasets.ContinuesNamed paging := by
  have hrowEmpty (a b c : String) : encodeSyncAdvisoryRowCursor a b c ≠ "" :=
    encodeSyncCursorKey_ne_empty _
  have hkeyset : IsKeyset 3 (keysetAfterLast SyncVulnerability.key datasets.vulnerabilities) := by
    apply isKeyset_keysetAfterLast
    intro row
    rfl
  by_cases hpaging : paging = .advisoryPages ∨ paging = .advisorySplit
  · replace hsince := hsince hpaging
    rcases hown with hown | ⟨id, hid, hown⟩ | ⟨last, hlast, hown⟩
    · -- the page left the choice to the assembly: behind its last advisory
      rcases hpaging with rfl | rfl
      · have hnext : nextVulnerabilitiesCursor .advisoryPages datasets =
            encodeSyncAdvisoryCursor datasets.lastAdvisory := by
          simp [nextVulnerabilitiesCursor, hown]
        rw [hnext] at hget ⊢
        rw [parseSyncVulnerabilitiesKeyset_advisory hsince hget]
        simp [SyncDatasets.ContinuesNamed, hmore, hown, (hrowEmpty _ _ _).symm]
      · have hnext : nextVulnerabilitiesCursor .advisorySplit datasets =
            keysetAfterLast SyncVulnerability.key datasets.vulnerabilities := by
          simp [nextVulnerabilitiesCursor, hown]
        rw [hnext] at hget ⊢
        simp [SyncDatasets.ContinuesNamed, hown, (hrowEmpty _ _ _).symm,
          hkeyset.parseVulnerabilities hget]
    · have hempty : encodeSyncAdvisoryCursor id ≠ "" := encodeSyncCursorKey_ne_empty _
      have hnext : nextVulnerabilitiesCursor paging datasets = encodeSyncAdvisoryCursor id := by
        simp [nextVulnerabilitiesCursor, hown, hempty, hpaging]
      have hshape (a b c : String) :
          encodeSyncAdvisoryCursor id ≠ encodeSyncAdvisoryRowCursor a b c := by
        intro heq
        have hdecode := congrArg decodeSyncCursorValues heq
        simp [encodeSyncAdvisoryCursor, encodeSyncAdvisoryRowCursor] at hdecode
      rw [hnext] at hget ⊢
      rw [parseSyncVulnerabilitiesKeyset_advisory hsince hget]
      simp [SyncDatasets.ContinuesNamed, hown, hempty, hshape, hid]
    · have hnext : nextVulnerabilitiesCursor paging datasets =
          encodeSyncAdvisoryRowCursor last.id last.ecosystem last.name := by
        simp [nextVulnerabilitiesCursor, hown, hrowEmpty, hpaging]
      rw [hnext] at hget ⊢
      rw [parseSyncVulnerabilitiesKeyset_row hsince hget]
      simp [SyncDatasets.ContinuesNamed, hmore, hown, hrowEmpty, hpaging, hlast,
        SyncVulnerability.Named]
  · -- row paging: three parts, which need no name
    have hnamed : datasets.ContinuesNamed paging := fun _ h => absurd h hpaging
    have hnext : IsKeyset 3 (nextVulnerabilitiesCursor paging datasets) := by
      unfold nextVulnerabilitiesCursor
      rw [if_neg fun h => hpaging h.2]
      cases paging with
      | advisoryPages => exact absurd (Or.inl rfl) hpaging
      | advisorySplit => exact absurd (Or.inr rfl) hpaging
      | deltaRowOffset => exact Or.inl rfl
      | rowKeyset => exact hkeyset
    exact iff_of_true (hnext.parseVulnerabilities hget) hnamed

section RoundTrip

variable {parseTime : String → Option Time} {query : Values} {opts : SyncExportOptions}
  {budgets : SyncPageBudgets} {view : PageView} {datasets : SyncDatasets} {next : SyncCursor}

/-- Following the cursor of a page: the request is accepted and reads back as that cursor exactly
when no legacy offset has grown past the bound, and the vulnerability dataset continues behind
something with a name.  `opts` are the options of an accepted request, with the reputation dataset
withheld or not, and `datasets` what the page exported. -/
theorem parseSyncCursor_nextSyncExportCursor_iff
    (hquery : parseSyncExportOptions parseTime query = .ok { opts with excludeReputation := false })
    (hdatasets : exportSyncDatasets budgets view opts opts.effectiveCursor = .ok datasets)
    (hnext : (nextSyncExportCursor opts.effectiveCursor
      (syncVulnerabilityPagingFor (syncOptionsWithOffset opts opts.effectiveCursor.vulnerabilities))
      datasets opts.limit).2 = some next)
    (sinceXID snapshot snapshotXID : String) (limit : ℕ) (ecosystems : List String) :
    parseSyncCursor (fetchSyncPageQuery (query.get "since") sinceXID snapshot snapshotXID limit
        (syncCursorResponse next) ecosystems) = .ok next ↔
      (opts.effectiveCursor.vulnerabilities + datasets.vulnerabilities.length ≤ syncMaxOffset ∧
        opts.effectiveCursor.malicious + datasets.malicious.length ≤ syncMaxOffset ∧
        opts.effectiveCursor.reputation + datasets.reputation.length ≤ syncMaxOffset ∧
        opts.effectiveCursor.lifecycle + datasets.lifecycle.length ≤ syncMaxOffset) ∧
      datasets.ContinuesNamed (syncVulnerabilityPagingFor
        (syncOptionsWithOffset opts opts.effectiveCursor.vulnerabilities)) := by
  obtain ⟨-, hsince⟩ := parseSyncExportOptions_ok hquery
  obtain ⟨hown, hdone⟩ := exportSyncDatasets_vulnerabilities hdatasets
  set cursor := opts.effectiveCursor with hcursor
  set paging := syncVulnerabilityPagingFor (syncOptionsWithOffset opts cursor.vulnerabilities)
    with hpaging
  set request := fetchSyncPageQuery (query.get "since") sinceXID snapshot snapshotXID limit
    (syncCursorResponse next) ecosystems with hrequest
  have hcarries : Carries request (syncCursorResponse next) := carries_fetchSyncPageQuery ..
  -- a delta paged by advisories has a since window, so its next request has one too
  have hrequestSince : paging = .advisoryPages ∨ paging = .advisorySplit →
      trimSpace (request.get "since") ≠ "" := by
    intro hadvisory hblank
    rw [hrequest, (get_fetchSyncPageQuery ..).1] at hblank
    have hnone : opts.since = none := hsince.mpr hblank
    have hrows : paging = .rowKeyset := by
      rw [hpaging]
      simp [syncVulnerabilityPagingFor, syncOptionsWithOffset, hnone]
    rcases hadvisory with h | h <;> rw [hrows] at h <;> cases h
  unfold nextSyncExportCursor at hnext
  split_ifs at hnext
  obtain rfl := Option.some.inj hnext
  have hmalicious : IsKeyset 3 (keysetAfterLast SyncMalicious.key datasets.malicious) :=
    isKeyset_keysetAfterLast (by intro row; rfl) _
  have hreputation :
      IsKeyset 3 (keysetAfterLast SyncReputationFinding.key datasets.reputation) :=
    isKeyset_keysetAfterLast (by intro row; rfl) _
  have hlifecycle : IsKeyset 4 (keysetAfterLast SyncLifecycleRelease.key datasets.lifecycle) :=
    isKeyset_keysetAfterLast (by intro row; rfl) _
  rw [parseSyncCursor_eq_ok_iff hcarries (hmalicious.unlessDone _) (hreputation.unlessDone _)
    (hlifecycle.unlessDone _)]
  refine and_congr Iff.rfl ?_
  have hget := hcarries.vulnerabilitiesCursor
  simp only [syncCursorResponse, cursorBehind] at hget ⊢
  by_cases hmore : datasets.vulnerabilitiesHaveMore = true
  · have hnotDone : cursor.vulnerabilitiesDone = false := by
      by_contra h
      rw [Bool.not_eq_false] at h
      rw [hdone h] at hmore
      exact absurd hmore (by simp)
    simp only [hmore, hnotDone, Bool.not_true, Bool.or_false, Bool.false_eq_true, if_false]
      at hget ⊢
    exact parse_nextVulnerabilitiesCursor_iff hmore hrequestSince hown hget
  · have hempty : (cursor.vulnerabilitiesDone || !datasets.vulnerabilitiesHaveMore) = true := by
      simp [hmore]
    simp only [hempty, if_true] at hget ⊢
    have hnone : IsKeyset 3 "" := Or.inl rfl
    exact iff_of_true (hnone.parseVulnerabilities hget) fun h => absurd h hmore

end RoundTrip

/-- A request for one more malicious finding, when the other datasets are done and `offset` findings
have been delivered. -/
def maliciousRequest (offset : ℕ) : SyncExportOptions :=
  { since := none, limit := 1
    cursor :=
      { malicious := offset, maliciousCursor := encodeSyncCursorKey ["npm", "left-pad", "M1"]
        vulnerabilitiesDone := true, reputationDone := true, lifecycleDone := true } }

/-- The server accepts such a request up to the bound on offsets. -/
lemma parse_maliciousRequest {offset : ℕ} (h : offset ≤ syncMaxOffset) :
    parseSyncExportOptions (fun _ => none) (fetchSyncPageQuery "" "" "" "" 1
      (syncCursorResponse (maliciousRequest offset).cursor) []) = .ok (maliciousRequest offset) := by
  refine parseSyncExportOptions_fullRequest (by decide) ?_
  have hcarries := carries_fetchSyncPageQuery "" "" "" "" 1
    (syncCursorResponse (maliciousRequest offset).cursor) []
  refine (parseSyncCursor_eq_ok_iff hcarries (Or.inr ⟨_, rfl, rfl⟩) (Or.inl rfl)
    (Or.inl rfl)).mpr ⟨⟨Nat.zero_le _, h, Nat.zero_le _, Nat.zero_le _⟩, ?_⟩
  exact IsKeyset.parseVulnerabilities (Or.inl rfl) hcarries.vulnerabilitiesCursor

/-- The next finding. -/
def nextFinding : SyncMalicious := { id := "M2", ecosystem := "npm", name := "right-pad" }

@[simp] lemma effectiveCursor_maliciousRequest (offset : ℕ) :
    (maliciousRequest offset).effectiveCursor = (maliciousRequest offset).cursor := by
  simp [SyncExportOptions.effectiveCursor, maliciousRequest]

/-- A page of one row is full when the limit is one, whatever its bytes. -/
lemma exportSyncRows_single {T : Type} {dataset raw : String} {key : T → List String}
    {values : List String} {row : T} {parts offset : ℕ} {budget : ℤ} {wireBytes : T → ℕ}
    (hraw : raw ≠ "") (hcursor : rowCursor dataset raw parts = .ok (some values))
    (hlt : values < key row) :
    exportSyncRows dataset key parts budget wireBytes [row] raw 1 offset =
      .ok { rows := [row], hasMore := true } := by
  unfold exportSyncRows
  rw [hcursor]
  simp [Except.map, limitOffset, hraw, Keyset.behind, Keyset.orderBy, hlt,
    SyncRowPageBuilder.addAll, SyncRowPageBuilder.add, newSyncRowPageBuilder,
    SyncRowPageBuilder.finish]

/-- Its page holds the next finding and continues, because the limit is one row. -/
lemma exportSyncDatasets_maliciousRequest (offset : ℕ) :
    exportSyncDatasets {} { malicious := [nextFinding] } (maliciousRequest offset)
        (maliciousRequest offset).effectiveCursor =
      .ok { malicious := [nextFinding], maliciousHaveMore := true } := by
  have hpage : exportSyncMalicious syncMaliciousPageByteBudget { malicious := [nextFinding] }
      (syncOptionsWithOffset (maliciousRequest offset) offset) =
        .ok { rows := [nextFinding], hasMore := true } :=
    exportSyncRows_single (encodeSyncCursorKey_ne_empty _) (rowCursor_encode _ _) (by decide)
  rw [effectiveCursor_maliciousRequest]
  simp only [exportSyncDatasets, unlessDone, maliciousRequest, if_true]
  simp only [maliciousRequest] at hpage
  simp only [Bool.false_eq_true, if_false, hpage]
  rfl

/-- The cursor of that page. -/
lemma next_maliciousRequest (offset : ℕ) :
    (nextSyncExportCursor (maliciousRequest offset).effectiveCursor
      (syncVulnerabilityPagingFor (syncOptionsWithOffset (maliciousRequest offset)
        (maliciousRequest offset).effectiveCursor.vulnerabilities))
      { malicious := [nextFinding], maliciousHaveMore := true } (maliciousRequest offset).limit).2 =
    some { malicious := offset + 1, maliciousCursor := encodeSyncCursorKey nextFinding.key
           vulnerabilitiesDone := true, reputationDone := true, lifecycleDone := true } := by
  rw [effectiveCursor_maliciousRequest]
  simp [nextSyncExportCursor, maliciousRequest, cursorBehind, keysetAfterLast]

/-- The first finding of a run is within the bound. -/
theorem parseSyncCursor_nextSyncExportCursor_first :
    ∃ next, parseSyncCursor (fetchSyncPageQuery "" "" "" "" 1 (syncCursorResponse next) []) =
      .ok next ∧ next.malicious = 1 := by
  have hnamed (paging : SyncVulnerabilityPaging) : SyncDatasets.ContinuesNamed paging
      { malicious := [nextFinding], maliciousHaveMore := true } := by
    intro h
    cases h
  have h := (parseSyncCursor_nextSyncExportCursor_iff
    (parse_maliciousRequest (Nat.zero_le _)) (exportSyncDatasets_maliciousRequest 0)
    (next_maliciousRequest 0) "" "" "" 1 []).mpr
      ⟨by rw [effectiveCursor_maliciousRequest]; decide, hnamed _⟩
  rw [(get_fetchSyncPageQuery ..).1] at h
  exact ⟨_, h, rfl⟩

/-- Ten thousand delivered findings are one too many: the request that follows the cursor of this
page is refused. -/
theorem parseSyncCursor_nextSyncExportCursor_refused :
    ∃ (query : Values) (opts : SyncExportOptions) (view : PageView) (datasets : SyncDatasets)
      (next : SyncCursor),
      parseSyncExportOptions (fun _ => none) query = .ok opts ∧
      exportSyncDatasets {} view opts opts.effectiveCursor = .ok datasets ∧
      (nextSyncExportCursor opts.effectiveCursor
        (syncVulnerabilityPagingFor
          (syncOptionsWithOffset opts opts.effectiveCursor.vulnerabilities))
        datasets opts.limit).2 = some next ∧
      parseSyncCursor (fetchSyncPageQuery (query.get "since") "" "" "" opts.limit
        (syncCursorResponse next) []) = .error "invalid malicious_offset parameter" := by
  refine ⟨_, _, _, _, _, parse_maliciousRequest (le_refl syncMaxOffset),
    exportSyncDatasets_maliciousRequest syncMaxOffset, next_maliciousRequest syncMaxOffset, ?_⟩
  set next : SyncCursor :=
    { malicious := syncMaxOffset + 1, maliciousCursor := encodeSyncCursorKey nextFinding.key
      vulnerabilitiesDone := true, reputationDone := true, lifecycleDone := true } with hnext
  rw [(get_fetchSyncPageQuery ..).1]
  have hcarries := carries_fetchSyncPageQuery "" "" "" "" 1 (syncCursorResponse next) []
  have hfirst := parseSyncOffset_of_get hcarries.vulnerabilities
  have hsecond := parseSyncOffset_of_get hcarries.malicious
  unfold parseSyncCursor
  simp only [maliciousRequest]
  rw [hfirst, hsecond]
  rfl

end Packmon

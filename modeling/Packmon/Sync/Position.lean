import Packmon.Sync.AdvisoryPage

/-!
# The position of a page sequence

A cursor says where each of the four datasets continues.  `CursorPosition` is that meaning, without
the keyset strings, and `SyncCursor.At` relates the two.  `exportSyncDatasets_step` is the step of a
sequence: whatever the statements of a page read, the page holds an initial segment of the rows
behind its position, and the cursor it hands out stands for the position behind these rows.
-/

namespace Packmon

open Keyset (behind)

/-! ## Positions -/

namespace SyncPosition

/-- The keyset string of a position. -/
def raw : SyncPosition → String
  | rows none => ""
  | rows (some key) => encodeSyncCursorKey key
  | advisories none => ""
  | advisories (some id) => encodeSyncAdvisoryCursor id
  | inside id ecosystem name => encodeSyncAdvisoryRowCursor id ecosystem name

/-- The keyset string of a position can be read back. -/
def Readable : SyncPosition → Prop
  | rows none => True
  | rows (some key) => key.length = 3
  | advisories none => True
  | advisories (some id) => id ≠ ""
  | inside id ecosystem name => id ≠ "" ∧ ecosystem ≠ "" ∧ name ≠ ""

/-- The position belongs to a delta. -/
def isDelta : SyncPosition → Bool
  | rows _ => false
  | _ => true

/-- How a page at the position is paged. -/
def paging : SyncPosition → SyncVulnerabilityPaging
  | rows _ => .rowKeyset
  | advisories _ => .advisoryPages
  | inside _ _ _ => .advisorySplit

/-- The vulnerability dataset continues at the position, or is done. -/
def At (delta : Bool) (raw : String) (offset : ℕ) (done : Bool) : Option SyncPosition → Prop
  | none => done = true
  | some p => done = false ∧ raw = p.raw ∧ (raw = "" → offset = 0) ∧ p.isDelta = delta

end SyncPosition

/-- A dataset paged by rows continues behind the cursor, or is done. -/
def RowsAt (parts : ℕ) (raw : String) (offset : ℕ) (done : Bool) :
    Option (Option (List String)) → Prop
  | none => done = true
  | some none => done = false ∧ raw = "" ∧ offset = 0
  | some (some values) => done = false ∧ raw = encodeSyncCursorKey values ∧ values.length = parts

/-- Where the four datasets of a request continue; a dataset that is done has no position. -/
structure CursorPosition where
  vulnerabilities : Option SyncPosition
  malicious : Option (Option (List String))
  reputation : Option (Option (List String))
  lifecycle : Option (Option (List String))

/-- The position of the first request. -/
def CursorPosition.start (delta : Bool) : CursorPosition where
  vulnerabilities := some (if delta then .advisories none else .rows none)
  malicious := some none
  reputation := some none
  lifecycle := some none

/-- Every dataset is done. -/
def CursorPosition.done : CursorPosition := ⟨none, none, none, none⟩

/-- A withheld reputation dataset is done. -/
def CursorPosition.excluding (p : CursorPosition) (excludeReputation : Bool) : CursorPosition :=
  { p with reputation := if excludeReputation then none else p.reputation }

/-- The cursor stands for the position. -/
structure SyncCursor.At (cursor : SyncCursor) (delta : Bool) (p : CursorPosition) : Prop where
  vulnerabilities : SyncPosition.At delta cursor.vulnerabilitiesCursor cursor.vulnerabilities
    cursor.vulnerabilitiesDone p.vulnerabilities
  malicious : RowsAt 3 cursor.maliciousCursor cursor.malicious cursor.maliciousDone p.malicious
  reputation :
    RowsAt 3 cursor.reputationCursor cursor.reputation cursor.reputationDone p.reputation
  lifecycle : RowsAt 4 cursor.lifecycleCursor cursor.lifecycle cursor.lifecycleDone p.lifecycle

/-- The empty cursor is the start. -/
lemma SyncCursor.at_start (delta : Bool) : ({} : SyncCursor).At delta (.start delta) where
  vulnerabilities := by cases delta <;> exact ⟨rfl, rfl, fun _ => rfl, rfl⟩
  malicious := ⟨rfl, rfl, rfl⟩
  reputation := ⟨rfl, rfl, rfl⟩
  lifecycle := ⟨rfl, rfl, rfl⟩

/-- Withholding the reputation dataset changes nothing else of a cursor. -/
lemma effectiveCursor_of_offset {opts : SyncExportOptions} (hoffset : opts.offset = 0) :
    opts.effectiveCursor = { opts.cursor with
      reputationCursor := if opts.excludeReputation then "" else opts.cursor.reputationCursor
      reputationDone := opts.excludeReputation || opts.cursor.reputationDone } := by
  have hlegacy : ¬(opts.cursor.isZero = true ∧ opts.offset > 0) := by omega
  unfold SyncExportOptions.effectiveCursor
  rw [if_neg hlegacy]
  cases opts.excludeReputation <;> rfl

lemma RowsAt.excluding {parts offset : ℕ} {raw : String} {done : Bool}
    {p : Option (Option (List String))} (h : RowsAt parts raw offset done p) (exclude : Bool) :
    RowsAt parts raw offset (exclude || done) (if exclude then none else p) := by
  cases exclude with
  | false => exact h
  | true => exact rfl

/-! ## One page of a dataset paged by rows -/

/-- The rows a row query returns: at most the limit. -/
lemma limitOffset_eq_take {T : Type} {raw : String} {limit offset : ℕ} (hlimit : 0 < limit)
    (hoffset : raw = "" → offset = 0) (rows : List T) :
    limitOffset raw limit offset rows = rows.take limit := by
  have hdrop : ¬(offset > 0 ∧ raw = "") := by
    rintro ⟨hpos, hraw⟩
    rw [hoffset hraw] at hpos
    exact absurd hpos (lt_irrefl 0)
  unfold limitOffset
  rw [if_pos hlimit, if_neg hdrop]

/-- The cursor of a position is read back. -/
lemma RowsAt.rowCursor {parts offset : ℕ} {raw : String} {done : Bool}
    {after : Option (List String)} (h : RowsAt parts raw offset done (some after))
    (dataset : String) :
    rowCursor dataset raw parts = .ok after ∧ (raw = "" → offset = 0) ∧ done = false := by
  cases after with
  | none =>
    obtain ⟨hdone, rfl, hoffset⟩ := h
    exact ⟨rowCursor_empty _ _, fun _ => hoffset, hdone⟩
  | some values =>
    obtain ⟨hdone, rfl, rfl⟩ := h
    exact ⟨rowCursor_encode _ _, fun hempty => absurd hempty (encodeSyncCursorKey_ne_empty _),
      hdone⟩

/-- Cutting a query result of at most the limit into a page, when the page continues exactly if it
was cut or filled. -/
lemma keysetPage_of_segment {T : Type} (key : T → List String) {selected rows rest : List T}
    {limit : ℕ} {hasMore : Bool} (hrows : selected.take limit = rows ++ rest)
    (hlast : hasMore = false → rest = [] ∧ rows.length ≠ limit)
    (hmore : hasMore = true → rows ≠ []) :
    ∃ next, Keyset.Page key selected rows next ∧ hasMore = next.isSome := by
  cases hasMore with
  | false =>
    obtain ⟨rfl, hlength⟩ := hlast rfl
    rw [List.append_nil] at hrows
    have hall : selected = rows := by
      rw [← hrows, List.take_of_length_le]
      have := congrArg List.length hrows
      rw [List.length_take] at this
      omega
    rw [hall]
    exact ⟨none, .last, rfl⟩
  | true =>
    obtain ⟨taken, last, rfl⟩ := (List.eq_nil_or_concat' rows).resolve_left (hmore rfl)
    have hsplit : selected = taken ++ last :: (rest ++ selected.drop limit) := by
      conv_lhs => rw [← List.take_append_drop limit selected, hrows]
      simp
    exact ⟨_, .more hsplit, rfl⟩

/-- A page of a dataset paged by rows holds the rows behind its cursor, as far as it goes. -/
lemma exportSyncRows_step {T : Type} (dataset : String) {raw : String} (key : T → List String)
    {parts limit offset : ℕ} {done : Bool} {after : Option (List String)} (budget : ℤ)
    (wireBytes : T → ℕ) (rows : List T) (hlimit : 0 < limit)
    (hat : RowsAt parts raw offset done (some after)) :
    ∃ page next,
      exportSyncRows dataset key parts budget wireBytes rows raw limit offset = .ok page ∧
        Keyset.Page key (behind key after rows) page.rows next ∧ page.hasMore = next.isSome := by
  obtain ⟨hcursor, hoffset, -⟩ := hat.rowCursor dataset
  unfold exportSyncRows
  rw [hcursor]
  simp only [Except.map, limitOffset_eq_take hlimit hoffset]
  obtain ⟨rest, hrows, hlast, hmore⟩ := SyncRowPageBuilder.finish_addAll_spec limit budget wireBytes
    ((behind key after rows).take limit)
  obtain ⟨next, hpage, hnext⟩ := keysetPage_of_segment key hrows
    (fun h => ⟨(hlast h).1, (hlast h).2 hlimit⟩) hmore
  exact ⟨_, next, rfl, hpage, hnext⟩

/-! ## One page of the vulnerability dataset -/

/-- What the builders rely on: no advisory is selected twice, and every advisory has an id. -/
structure PageView.Identified (view : PageView) : Prop where
  ids_nodup : (view.changed.map Advisory.id).Nodup
  id_ne_empty : ∀ a ∈ view.changed, a.id ≠ ""

/-- One page of the vulnerability dataset: from a position, what it holds and where it continues. -/
inductive VulnerabilityStep (view : PageView) :
    SyncPosition → SyncVulnerabilityPage → Option SyncPosition → Prop
  | rows {after key : Option (List String)} {rows : List SyncVulnerability}
      {lastAdvisoryID : String} (h : Keyset.Page SyncVulnerability.key
        (behind SyncVulnerability.key after view.vulnerabilities) rows key) :
      VulnerabilityStep view (.rows after) { rows, hasMore := key.isSome, lastAdvisoryID }
        (key.map fun k => .rows (some k))
  | advisories {after : Option String} {page : SyncVulnerabilityPage} {next : Option SyncPosition}
      (h : AdvisoryPageOutcome (behind Advisory.id after view.changed) page next) :
      VulnerabilityStep view (.advisories after) page next
  | inside {id ecosystem name : String} {page : SyncVulnerabilityPage} {next : Option SyncPosition}
      (h : SplitPageOutcome id (behind SyncVulnerability.rowKey (some [ecosystem, name])
        (affectedRows view.current id)) (view.splitUnchanged id) page next) :
      VulnerabilityStep view (.inside id ecosystem name) page next

/-- The request asks for the vulnerability rows behind the position. -/
structure SyncExportOptions.Asks (opts : SyncExportOptions) (position : SyncPosition) : Prop where
  raw : opts.cursor.vulnerabilitiesCursor = position.raw
  readable : position.Readable
  start : position.raw = "" → opts.offset = 0 ∧ opts.cursor.vulnerabilities = 0
  delta : position.isDelta = opts.since.isSome

/-- A request whose cursor stands for the position asks for it. -/
lemma SyncPosition.At.asks {opts : SyncExportOptions} {offset : ℕ} {done : Bool}
    {position : SyncPosition} (hoffset : opts.cursor.vulnerabilities = offset)
    (hreadable : position.Readable) (hat : SyncPosition.At opts.since.isSome
      opts.cursor.vulnerabilitiesCursor offset done (some position)) :
    (syncOptionsWithOffset opts offset).Asks position := by
  obtain ⟨-, hraw, hstart, hdelta⟩ := hat
  refine ⟨hraw, hreadable, fun hempty => ?_, hdelta⟩
  have hzero := hstart (hraw.trans hempty)
  exact ⟨hzero, hoffset.trans hzero⟩

/-- The paging of a request is that of its position. -/
lemma SyncExportOptions.Asks.paging {opts : SyncExportOptions} {position : SyncPosition}
    (h : opts.Asks position) : syncVulnerabilityPagingFor opts = position.paging := by
  obtain ⟨hraw, hreadable, hstart, hdelta⟩ := h
  unfold syncVulnerabilityPagingFor
  rw [hraw]
  rcases position with after | (_ | id) | ⟨id, ecosystem, name⟩
  · have hnone : opts.since = none := Option.isNone_iff_eq_none.mp (by
      rw [← Option.not_isSome, ← hdelta]; rfl)
    rw [if_pos hnone]
    rfl
  · have hsome : ¬opts.since = none := Option.isSome_iff_ne_none.mp hdelta.symm
    obtain ⟨hoffset, hcursor⟩ := hstart rfl
    have hlegacy : ¬(opts.offset > 0 ∨ opts.cursor.vulnerabilities > 0) := by omega
    have hempty : ¬(SyncPosition.advisories none).raw ≠ "" := not_not_intro rfl
    rw [if_neg hsome, if_neg hempty, if_neg hlegacy]
    rfl
  · have hsome : ¬opts.since = none := Option.isSome_iff_ne_none.mp hdelta.symm
    have hne : (SyncPosition.advisories (some id)).raw ≠ "" := encodeSyncCursorKey_ne_empty _
    have hdecode : (decodeSyncAdvisoryCursor (SyncPosition.advisories (some id)).raw).isSome := by
      have hid : id ≠ "" := hreadable
      simp [SyncPosition.raw, hid]
    rw [if_neg hsome, if_pos hne, if_pos hdecode]
    rfl
  · have hsome : ¬opts.since = none := Option.isSome_iff_ne_none.mp hdelta.symm
    obtain ⟨hid, hecosystem, hname⟩ := hreadable
    have hne : (SyncPosition.inside id ecosystem name).raw ≠ "" := encodeSyncCursorKey_ne_empty _
    have hnot : ¬(decodeSyncAdvisoryCursor
        (SyncPosition.inside id ecosystem name).raw).isSome = true := by
      simp [SyncPosition.raw]
    have hdecode : (decodeSyncAdvisoryRowCursor
        (SyncPosition.inside id ecosystem name).raw).isSome := by
      simp [SyncPosition.raw, hid, hecosystem, hname]
    rw [if_neg hsome, if_pos hne, if_neg hnot, if_pos hdecode]
    rfl

/-- A full export pages its affected rows like the other datasets. -/
lemma rowPage_outcome (budget : ℤ) {limit : ℕ} (hlimit : 0 < limit) (splitID : String)
    (unchanged : String → Bool) (selected : List SyncVulnerability) :
    ∃ rows key lastAdvisoryID, Keyset.Page SyncVulnerability.key selected rows key ∧
      (((newSyncVulnerabilityPageBuilder .rowKeyset limit splitID budget).addAll
        ((selected.take limit).map fun item => { item })).finish.checkSplit unchanged) =
          { rows, hasMore := key.isSome, lastAdvisoryID } := by
  set b := newSyncVulnerabilityPageBuilder .rowKeyset limit splitID budget
  obtain ⟨taken, rest, hitems, h⟩ := SyncVulnerabilityPageBuilder.exists_takesRows_map (b := b) rfl
    (by simp [b, newSyncVulnerabilityPageBuilder]) rfl (selected.take limit)
  set b' := b.addAll ((selected.take limit).map fun item => { item })
  have hpage : b'.page = { rows := taken, lastAdvisoryID := b'.page.lastAdvisoryID } := h.page
  have hrows : b'.page.rows = taken := by rw [hpage]
  have hpaging : b'.paging = .rowKeyset := h.paging
  have hlim : b'.limit = limit := h.limit
  set hasMore := b'.stopped || (decide (limit > 0) && decide (b'.page.rows.length = limit))
    with hhasMore
  have hfinish : b'.finish.checkSplit unchanged =
      { rows := taken, hasMore, lastAdvisoryID := b'.page.lastAdvisoryID } := by
    unfold SyncVulnerabilityPageBuilder.finish
    simp only [hpaging, hlim, ← hhasMore]
    rw [hpage]
    rfl
  have hlast : hasMore = false → rest = [] ∧ taken.length ≠ limit := by
    intro hlast
    rw [hhasMore, Bool.or_eq_false_iff, Bool.and_eq_false_imp] at hlast
    refine ⟨h.whole hlast.1, ?_⟩
    have := hlast.2 (by simpa using hlimit)
    rw [hrows] at this
    simpa using this
  have hsome : hasMore = true → taken ≠ [] := by
    intro hmore
    rw [hhasMore, Bool.or_eq_true, Bool.and_eq_true] at hmore
    rw [← hrows]
    rcases hmore with hstopped | ⟨-, hfull⟩
    · exact h.cut hstopped
    · rw [decide_eq_true_eq] at hfull
      exact List.ne_nil_of_length_pos (by omega)
  obtain ⟨next, hnext, hmore⟩ := keysetPage_of_segment SyncVulnerability.key hitems hlast hsome
  exact ⟨_, next, _, hnext, by rw [hfinish, hmore]⟩

/-- The result rows of the vulnerability query at a position. -/
def PageView.scanned (view : PageView) (limit : ℕ) : SyncPosition → List ScannedRow
  | .rows after =>
    ((behind SyncVulnerability.key after view.vulnerabilities).take limit).map fun item => { item }
  | .advisories after => exportSyncVulnerabilityAdvisoryPageQuery view.changed after limit
  | .inside id ecosystem name =>
    exportSyncSplitAdvisoryQuery view.current id ecosystem name limit

/-- The vulnerability query of a request reads its position. -/
lemma SyncExportOptions.Asks.query {opts : SyncExportOptions} {position : SyncPosition}
    (h : opts.Asks position) (hlimit : 0 < opts.limit) (view : PageView) :
    exportSyncVulnerabilitiesQuery view opts = .ok (view.scanned opts.limit position) := by
  have hpaging := h.paging
  obtain ⟨hraw, hreadable, hstart, -⟩ := h
  unfold exportSyncVulnerabilitiesQuery
  simp only [hpaging, hraw]
  rcases position with after | (_ | id) | ⟨id, ecosystem, name⟩
  · have hcursor : rowCursor "vulnerability" (SyncPosition.rows after).raw 3 = .ok after := by
      cases after with
      | none => exact rowCursor_empty _ _
      | some key =>
        have hlength : key.length = 3 := hreadable
        rw [← hlength]
        exact rowCursor_encode _ _
    simp only [SyncPosition.paging, hcursor, Except.map,
      limitOffset_eq_take hlimit fun h => (hstart h).1]
    rfl
  · rfl
  · have hid : id ≠ "" := hreadable
    have hne : ¬(SyncPosition.advisories (some id)).raw = "" := encodeSyncCursorKey_ne_empty _
    simp only [SyncPosition.paging, if_neg hne]
    simp [SyncPosition.raw, PageView.scanned, hid]
  · obtain ⟨hid, hecosystem, hname⟩ := hreadable
    simp [SyncPosition.paging, SyncPosition.raw, PageView.scanned, hid, hecosystem, hname]

/-- A request inside a split advisory names the advisory. -/
lemma SyncExportOptions.Asks.splitAdvisory {opts : SyncExportOptions} {id ecosystem name : String}
    (h : opts.Asks (.inside id ecosystem name)) : splitAdvisoryOf opts = id := by
  have hpaging : syncVulnerabilityPagingFor opts = .advisorySplit := h.paging
  obtain ⟨hid, hecosystem, hname⟩ := h.readable
  unfold splitAdvisoryOf
  rw [if_pos hpaging, h.raw]
  simp [SyncPosition.raw, hid, hecosystem, hname]

/-- One page of the vulnerability dataset is a step from its position. -/
theorem exportSyncVulnerabilities_step (budget : ℤ) {view : PageView} (hview : view.Identified)
    {opts : SyncExportOptions} {position : SyncPosition} (hlimit : 0 < opts.limit)
    (h : opts.Asks position) :
    ∃ page next, exportSyncVulnerabilities budget view opts = .ok page ∧
      VulnerabilityStep view position page next := by
  have hpaging := h.paging
  have hquery := h.query hlimit view
  unfold exportSyncVulnerabilities
  rw [hquery, hpaging]
  cases position with
  | rows after =>
    obtain ⟨rows, key, lastAdvisoryID, hpage, hfinish⟩ := rowPage_outcome budget hlimit
      (splitAdvisoryOf opts) view.splitUnchanged
      (behind SyncVulnerability.key after view.vulnerabilities)
    exact ⟨_, _, congrArg Except.ok hfinish, .rows hpage⟩
  | advisories after =>
    obtain ⟨next, hnext⟩ := advisoryPage_outcome budget hlimit (splitAdvisoryOf opts)
      hview.ids_nodup hview.id_ne_empty after
    have hcheck := checkSplit_of_advisoryPage hnext view.splitUnchanged
    exact ⟨_, next, congrArg Except.ok hcheck, .advisories hnext⟩
  | inside id ecosystem name =>
    rw [h.splitAdvisory]
    obtain ⟨next, hnext⟩ := splitPage_outcome budget hlimit view.current view.splitUnchanged id
      ecosystem name
    exact ⟨_, next, rfl, .inside hnext⟩

section Steps

variable {view : PageView} {position : SyncPosition} {page : SyncVulnerabilityPage}
  {next : Option SyncPosition}

/-- The dataset continues exactly when the page says so. -/
lemma VulnerabilityStep.hasMore (h : VulnerabilityStep view position page next) :
    page.hasMore = next.isSome := by
  cases h with
  | rows h => exact Option.isSome_map.symm
  | advisories h => cases h <;> rfl
  | inside h => cases h <;> rfl

/-- A delta stays a delta. -/
lemma VulnerabilityStep.isDelta (h : VulnerabilityStep view position page next) {q : SyncPosition}
    (hq : next = some q) : q.isDelta = position.isDelta := by
  cases h with
  | rows h =>
    obtain ⟨k, -, rfl⟩ := Option.map_eq_some_iff.mp hq
    rfl
  | advisories h => cases h <;> cases hq <;> rfl
  | inside h => cases h <;> cases hq <;> rfl

/-- Behind a page the position has a keyset string. -/
lemma VulnerabilityStep.raw_ne_empty (h : VulnerabilityStep view position page next)
    {q : SyncPosition} (hq : next = some q) : q.raw ≠ "" := by
  cases h with
  | rows h =>
    obtain ⟨k, -, rfl⟩ := Option.map_eq_some_iff.mp hq
    exact encodeSyncCursorKey_ne_empty _
  | advisories h => cases h <;> cases hq <;> exact encodeSyncCursorKey_ne_empty _
  | inside h => cases h <;> cases hq <;> exact encodeSyncCursorKey_ne_empty _

lemma affectedRows_id {current : List Advisory} {id : String} {row : SyncVulnerability}
    (h : row ∈ affectedRows current id) : row.id = id := by
  obtain ⟨a, ha, hrow⟩ := List.mem_flatMap.mp h
  rw [a.rows_id row hrow]
  simpa using (List.mem_filter.mp ha).2

/-- Selected advisories have an id, the last of them too. -/
lemma PageView.Identified.lastID_ne_empty (hview : view.Identified) {after : Option String}
    {done rest : List Advisory} (hsplit : behind Advisory.id after view.changed = done ++ rest)
    (hdone : done ≠ []) : lastID done ≠ "" := by
  obtain ⟨a, ha, hid⟩ := exists_mem_lastID hdone
  have hmem : a ∈ behind Advisory.id after view.changed := by
    rw [hsplit]
    exact List.mem_append_left _ ha
  rw [hid]
  exact hview.id_ne_empty a (Keyset.mem_behind.mp hmem).1

/-- The remaining rows of a split advisory belong to it. -/
lemma id_of_behind {after : Option (List String)} {id : String} {taken left : List SyncVulnerability}
    {last : SyncVulnerability} (hrows : behind SyncVulnerability.rowKey after
      (affectedRows view.current id) = taken ++ last :: left) : last.id = id := by
  have hmem : last ∈ behind SyncVulnerability.rowKey after (affectedRows view.current id) := by
    rw [hrows]
    simp
  exact affectedRows_id (Keyset.mem_behind.mp hmem).1

/-- The cursor of the next page is the keyset string of the next position. -/
lemma VulnerabilityStep.nextVulnerabilitiesCursor (hview : view.Identified)
    (h : VulnerabilityStep view position page next) {q : SyncPosition} (hq : next = some q)
    (malicious : SyncRowPage SyncMalicious) (reputation : SyncRowPage SyncReputationFinding)
    (lifecycle : SyncRowPage SyncLifecycleRelease) :
    nextVulnerabilitiesCursor position.paging
      (.ofPages page malicious reputation lifecycle) = q.raw := by
  -- a cursor the page set itself is taken over
  have hown {paging : SyncVulnerabilityPaging} {page : SyncVulnerabilityPage}
      (hpaging : paging = .advisoryPages ∨ paging = .advisorySplit) (hne : page.nextCursor ≠ "") :
      Packmon.nextVulnerabilitiesCursor paging (.ofPages page malicious reputation lifecycle) =
        page.nextCursor := by
    unfold Packmon.nextVulnerabilitiesCursor
    exact if_pos ⟨hne, hpaging⟩
  cases h with
  | rows h =>
    cases h with
    | last => cases hq
    | more h =>
      cases hq
      simp [Packmon.nextVulnerabilitiesCursor, SyncDatasets.ofPages, SyncPosition.paging,
        keysetAfterLast, SyncPosition.raw]
  | advisories h =>
    cases h with
    | whole => cases hq
    | @boundary done rest nextCursor hsplit hdone hrest hcursor =>
      cases hq
      rcases hcursor with rfl | rfl
      · have hne := hview.lastID_ne_empty hsplit hdone
        simp [Packmon.nextVulnerabilitiesCursor, SyncDatasets.ofPages, SyncDatasets.lastAdvisory,
          SyncPosition.paging, SyncPosition.raw, wholePage, hne]
      · exact hown (Or.inl rfl) (encodeSyncCursorKey_ne_empty _)
    | @split a rest taken left last hfirst hrows hleft =>
      cases hq
      have hid : last.id = a.id := Advisory.ordered_id (by rw [hrows]; simp)
      refine (hown (Or.inl rfl) (encodeSyncCursorKey_ne_empty _)).trans ?_
      rw [splitStartPage, hid]
      rfl
  | inside h =>
    cases h with
    | @inside taken left last lastAdvisoryID hrows =>
      cases hq
      refine (hown (Or.inr rfl) (encodeSyncCursorKey_ne_empty _)).trans ?_
      rw [splitPage, id_of_behind hrows]
      rfl
    | last =>
      cases hq
      exact hown (Or.inr rfl) (encodeSyncCursorKey_ne_empty _)

end Steps

/-! ## One page of all datasets -/

/-- A page of the vulnerability dataset; a dataset that is done has an empty page. -/
def VulnerabilityPageAt (view : PageView) (page : SyncVulnerabilityPage)
    (next : Option SyncPosition) : Option SyncPosition → Prop
  | none => page = {} ∧ next = none
  | some position => VulnerabilityStep view position page next

/-- A page of a dataset paged by rows; a dataset that is done has an empty page. -/
def RowPageAt {T : Type} (key : T → List String) (rows : List T) (page : SyncRowPage T)
    (next : Option (Option (List String))) : Option (Option (List String)) → Prop
  | none => page = {} ∧ next = none
  | some after => ∃ k, Keyset.Page key (behind key after rows) page.rows k ∧
      page.hasMore = k.isSome ∧ next = k.map some

/-- The pages of the four datasets, from one position to the next. -/
structure PageStep (view : PageView) (p : CursorPosition) (vulnerabilities : SyncVulnerabilityPage)
    (malicious : SyncRowPage SyncMalicious) (reputation : SyncRowPage SyncReputationFinding)
    (lifecycle : SyncRowPage SyncLifecycleRelease) (next : CursorPosition) : Prop where
  vulnerabilities : VulnerabilityPageAt view vulnerabilities next.vulnerabilities p.vulnerabilities
  malicious : RowPageAt SyncMalicious.key view.malicious malicious next.malicious p.malicious
  reputation :
    RowPageAt SyncReputationFinding.key view.reputation reputation next.reputation p.reputation
  lifecycle : RowPageAt SyncLifecycleRelease.key view.lifecycle lifecycle next.lifecycle p.lifecycle

/-- The position of a vulnerability dataset that is not done can be read back. -/
def CursorPosition.Readable (p : CursorPosition) : Prop :=
  ∀ position ∈ p.vulnerabilities, position.Readable

/-- The page of a dataset paged by rows, unless it is done, and the cursor behind it. -/
lemma unlessDone_rows_step {T : Type} (dataset : String) {raw : String} (key : T → List String)
    {parts limit offset : ℕ} {done : Bool} {p : Option (Option (List String))} (budget : ℤ)
    (wireBytes : T → ℕ) (rows : List T) (hkey : ∀ row, (key row).length = parts)
    (hlimit : 0 < limit) (hat : RowsAt parts raw offset done p) :
    ∃ page next,
      unlessDone done {} (exportSyncRows dataset key parts budget wireBytes rows raw limit offset) =
        .ok page ∧
      RowPageAt key rows page next p ∧ page.hasMore = next.isSome ∧
      RowsAt parts (if done || !page.hasMore then "" else keysetAfterLast key page.rows)
        (offset + page.rows.length) (done || !page.hasMore) next := by
  cases p with
  | none =>
    obtain rfl : done = true := hat
    exact ⟨{}, none, rfl, ⟨rfl, rfl⟩, rfl, rfl⟩
  | some after =>
    obtain ⟨-, -, rfl⟩ := hat.rowCursor dataset
    obtain ⟨page, k, hpage, hstep, hmore⟩ :=
      exportSyncRows_step dataset key budget wireBytes rows hlimit hat
    refine ⟨page, k.map some, ?_, ⟨k, hstep, hmore, rfl⟩, by rw [hmore, Option.isSome_map], ?_⟩
    · unfold unlessDone
      exact hpage
    · cases hstep' : k with
      | none => simp [hmore, hstep', RowsAt]
      | some c =>
        subst hstep'
        have hlast : keysetAfterLast key page.rows = encodeSyncCursorKey c ∧ c.length = parts := by
          generalize hrows : page.rows = r at hstep
          cases hstep with
          | more h => simp [keysetAfterLast, hkey]
        simp [hmore, RowsAt, hlast]

/-- The page of the vulnerability dataset, unless it is done, and the cursor behind it. -/
lemma unlessDone_vulnerabilities_step (budget : ℤ) {view : PageView} (hview : view.Identified)
    {opts : SyncExportOptions} {offset : ℕ} {done : Bool} {p : Option SyncPosition}
    (hlimit : 0 < opts.limit) (hreadable : ∀ position ∈ p, position.Readable)
    (hoffset : opts.cursor.vulnerabilities = offset)
    (hat : SyncPosition.At opts.since.isSome opts.cursor.vulnerabilitiesCursor offset done p)
    (malicious : SyncRowPage SyncMalicious) (reputation : SyncRowPage SyncReputationFinding)
    (lifecycle : SyncRowPage SyncLifecycleRelease) :
    ∃ page next,
      unlessDone done {} (exportSyncVulnerabilities budget view (syncOptionsWithOffset opts offset)) =
        .ok page ∧
      VulnerabilityPageAt view page next p ∧ page.hasMore = next.isSome ∧
      SyncPosition.At opts.since.isSome
        (if done || !page.hasMore then "" else nextVulnerabilitiesCursor
          (syncVulnerabilityPagingFor (syncOptionsWithOffset opts offset))
          (.ofPages page malicious reputation lifecycle))
        (offset + page.rows.length) (done || !page.hasMore) next := by
  cases p with
  | none =>
    obtain rfl : done = true := hat
    exact ⟨{}, none, rfl, ⟨rfl, rfl⟩, rfl, rfl⟩
  | some position =>
    have hasks := SyncPosition.At.asks hoffset (hreadable position rfl) hat
    obtain ⟨rfl, -, -, hdelta⟩ := hat
    have hlimit' : 0 < (syncOptionsWithOffset opts offset).limit := hlimit
    obtain ⟨page, next, hpage, hstep⟩ := exportSyncVulnerabilities_step budget hview hlimit' hasks
    refine ⟨page, next, hpage, hstep, hstep.hasMore, ?_⟩
    rw [hstep.hasMore, hasks.paging]
    cases hnext : next with
    | none => exact rfl
    | some q =>
      refine ⟨rfl, hstep.nextVulnerabilitiesCursor hview hnext _ _ _, fun hempty => ?_,
        (hstep.isDelta hnext).trans hdelta⟩
      have hne : q.raw ≠ "" := hstep.raw_ne_empty hnext
      exact absurd ((hstep.nextVulnerabilitiesCursor hview hnext _ _ _).symm.trans hempty) hne

lemma nextSyncExportCursor_ofPages {cursor : SyncCursor} {paging : SyncVulnerabilityPaging}
    {v : SyncVulnerabilityPage} {m : SyncRowPage SyncMalicious}
    {r : SyncRowPage SyncReputationFinding} {l : SyncRowPage SyncLifecycleRelease} {limit : ℕ}
    (hlimit : 0 < limit) :
    (nextSyncExportCursor cursor paging (.ofPages v m r l) limit).2 =
      if !v.hasMore && !m.hasMore && !r.hasMore && !l.hasMore then none
      else some (cursorBehind cursor paging (.ofPages v m r l)) := by
  unfold nextSyncExportCursor
  rw [if_neg (Nat.pos_iff_ne_zero.mp hlimit), apply_ite Prod.snd]
  rfl

/-- One page of an export: it goes from the position of its cursor to the position of the cursor it
hands out, and it hands out none when every dataset is done. -/
theorem exportSyncDatasets_step (budgets : SyncPageBudgets) {view : PageView}
    (hview : view.Identified) {opts : SyncExportOptions} {p : CursorPosition}
    (hlimit : 0 < opts.limit) (hoffset : opts.offset = 0)
    (hat : opts.cursor.At opts.since.isSome p) (hreadable : p.Readable) :
    ∃ vulnerabilities malicious reputation lifecycle next,
      exportSyncDatasets budgets view opts opts.effectiveCursor =
        .ok (.ofPages vulnerabilities malicious reputation lifecycle) ∧
      PageStep view (p.excluding opts.excludeReputation) vulnerabilities malicious reputation
        lifecycle next ∧
      let cursor := (nextSyncExportCursor opts.effectiveCursor (syncVulnerabilityPagingFor
        (syncOptionsWithOffset opts opts.effectiveCursor.vulnerabilities))
        (.ofPages vulnerabilities malicious reputation lifecycle) opts.limit).2
      (cursor = none ∧ next = .done) ∨
        (∃ c, cursor = some c ∧ c.At opts.since.isSome next ∧ next ≠ .done) := by
  obtain ⟨m, nm, hm, hms, hmm, hmc⟩ := unlessDone_rows_step "malicious" SyncMalicious.key
    budgets.malicious syncMaliciousWireBytes view.malicious (fun _ => rfl) hlimit hat.malicious
  obtain ⟨r, nr, hr, hrs, hrm, hrc⟩ := unlessDone_rows_step "reputation" SyncReputationFinding.key
    budgets.reputation syncReputationWireBytes view.reputation (fun _ => rfl) hlimit
    (hat.reputation.excluding opts.excludeReputation)
  obtain ⟨l, nl, hl, hls, hlm, hlc⟩ := unlessDone_rows_step "lifecycle" SyncLifecycleRelease.key
    budgets.lifecycle syncLifecycleWireBytes view.lifecycle (fun _ => rfl) hlimit hat.lifecycle
  obtain ⟨v, nv, hv, hvs, hvm, hvc⟩ := unlessDone_vulnerabilities_step budgets.vulnerabilities hview
    hlimit hreadable rfl hat.vulnerabilities m r l
  rw [effectiveCursor_of_offset hoffset]
  refine ⟨v, m, r, l, ⟨nv, nm, nr, nl⟩, ?_, ⟨hvs, hms, hrs, hls⟩, ?_⟩
  · unfold exportSyncDatasets
    simp only [exportSyncMalicious, exportSyncReputation, exportSyncLifecycle,
      syncOptionsWithOffset] at hm hr hl hv ⊢
    rw [hv, hm, hr, hl]
    rfl
  · rw [nextSyncExportCursor_ofPages hlimit]
    by_cases hlast : (!v.hasMore && !m.hasMore && !r.hasMore && !l.hasMore) = true
    · left
      rw [if_pos hlast]
      rw [hvm, hmm, hrm, hlm] at hlast
      simp only [Bool.and_eq_true, Bool.not_eq_true', Option.isSome_eq_false_iff,
        Option.isNone_iff_eq_none] at hlast
      obtain ⟨⟨⟨rfl, rfl⟩, rfl⟩, rfl⟩ := hlast
      exact ⟨rfl, rfl⟩
    · right
      rw [if_neg hlast]
      refine ⟨_, rfl, ⟨hvc, hmc, hrc, hlc⟩, ?_⟩
      rintro hdone
      rw [CursorPosition.done, CursorPosition.mk.injEq] at hdone
      obtain ⟨rfl, rfl, rfl, rfl⟩ := hdone
      exact hlast (by rw [hvm, hmm, hrm, hlm]; rfl)

/-! ## The export -/

/-- The page carries what the exporters of the four datasets made. -/
structure SyncExport.Holds (page : SyncExport) (position : Option SyncPosition)
    (v : SyncVulnerabilityPage) (m : SyncRowPage SyncMalicious)
    (r : SyncRowPage SyncReputationFinding) (l : SyncRowPage SyncLifecycleRelease) : Prop where
  vulnerabilities : page.vulnerabilities = v.rows
  withoutAffected : page.vulnerabilitiesWithoutAffected = v.withoutAffected
  complete : page.vulnerabilityAffectedComplete =
    (position.any (fun p => p.paging = .advisoryPages) && !v.split)
  splitAdvisory : page.vulnerabilitySplitAdvisory = v.splitAdvisoryID
  splitStart : page.vulnerabilitySplitStart = (v.splitAdvisoryID ≠ "" && v.splitStart)
  splitComplete : page.vulnerabilitySplitComplete = (v.splitAdvisoryID ≠ "" && v.splitComplete)
  malicious : page.malicious = m.rows
  reputation : page.reputation = r.rows
  lifecycle : page.lifecycle = l.rows

/-- Only a page of whole advisories lists advisories without rows. -/
lemma VulnerabilityStep.withoutAffected_eq_nil {view : PageView} {position : SyncPosition}
    {page : SyncVulnerabilityPage} {next : Option SyncPosition}
    (h : VulnerabilityStep view position page next)
    (hother : position.paging ≠ .advisoryPages ∨ page.split = true) :
    page.withoutAffected = [] := by
  cases h with
  | rows h => rfl
  | advisories h =>
    cases h with
    | split => rfl
    | whole => exact absurd rfl (hother.resolve_right Bool.false_ne_true)
    | boundary => exact absurd rfl (hother.resolve_right Bool.false_ne_true)
  | inside h => cases h <;> rfl

/-- One page of an export, as the client gets it. -/
theorem exportSync_step (budgets : SyncPageBudgets) {view : PageView} (hview : view.Identified)
    (opts : SyncExportOptions) {p : CursorPosition} (hlimit : 0 < opts.limit)
    (hoffset : opts.offset = 0) (hat : opts.cursor.At opts.since.isSome p)
    (hreadable : p.Readable) (snapshot : Time) (snapshotXID : ℕ) :
    ∃ page v m r l next, exportSync budgets view opts snapshot snapshotXID = .ok page ∧
      PageStep view (p.excluding opts.excludeReputation) v m r l next ∧
      page.Holds p.vulnerabilities v m r l ∧
      page.syncedAt = snapshot ∧ page.syncedXID = snapshotXID ∧
      ((page.nextCursor = none ∧ next = .done) ∨
        (∃ c, page.nextCursor = some c ∧ c.At opts.since.isSome next ∧ next ≠ .done)) := by
  obtain ⟨v, m, r, l, next, hdatasets, hstep, hnext⟩ :=
    exportSyncDatasets_step budgets hview hlimit hoffset hat hreadable
  have hcursor : opts.effectiveCursor.vulnerabilities = opts.cursor.vulnerabilities ∧
      opts.effectiveCursor.vulnerabilitiesDone = opts.cursor.vulnerabilitiesDone := by
    rw [effectiveCursor_of_offset hoffset]
    exact ⟨rfl, rfl⟩
  have hcomplete : syncPageVulnerabilityAffectedComplete opts opts.effectiveCursor
      (.ofPages v m r l) =
        (p.vulnerabilities.any (fun p => p.paging = .advisoryPages) && !v.split) := by
    unfold syncPageVulnerabilityAffectedComplete syncVulnerabilityAffectedComplete
    rw [hcursor.1, hcursor.2]
    have hat' := hat.vulnerabilities
    cases hp : p.vulnerabilities with
    | none =>
      rw [hp] at hat'
      rw [show opts.cursor.vulnerabilitiesDone = true from hat']
      rfl
    | some position =>
      rw [hp] at hat'
      rw [(SyncPosition.At.asks rfl (hreadable position hp) hat').paging, hat'.1]
      rfl
  have hwithout (h : ¬syncPageVulnerabilityAffectedComplete opts opts.effectiveCursor
      (.ofPages v m r l) = true) : v.withoutAffected = [] := by
    rw [hcomplete] at h
    have hv := hstep.vulnerabilities
    change VulnerabilityPageAt view v next.vulnerabilities p.vulnerabilities at hv
    cases hp : p.vulnerabilities with
    | none =>
      rw [hp] at hv
      rw [hv.1]
    | some position =>
      rw [hp] at hv h
      refine VulnerabilityStep.withoutAffected_eq_nil hv ?_
      by_cases hpaging : position.paging = .advisoryPages
      · right
        simpa [hpaging] using h
      · exact Or.inl hpaging
  refine ⟨newSyncExport opts opts.effectiveCursor snapshot snapshotXID (.ofPages v m r l), v, m, r,
    l, next, ?_, hstep, ⟨rfl, ?_, hcomplete, rfl, rfl, rfl, rfl, rfl, rfl⟩, rfl, rfl, hnext⟩
  · unfold exportSync
    simp only [hdatasets]
    rfl
  · unfold newSyncExport
    dsimp only
    split_ifs with h
    · rfl
    · exact (hwithout h).symm

end Packmon

import Packmon.Sync.Cursor
import Mathlib.Data.Rat.Defs

/-!
# Exported rows and the page builders

The four row types of a sync export, the estimate of their JSON size, and the builders that cut one
page out of a query result: `SyncVulnerabilityPageBuilder` for the vulnerability dataset, in its four
ways of paging, and `SyncRowPageBuilder` for the datasets paged by rows only.

A builder is offered the rows of its query in order (`addAll`) and refuses the first row that no
longer fits; `finish` says whether and where the dataset continues.
-/

namespace Packmon

/-! ## Rows -/

/-- One affected package of an advisory. -/
structure SyncVulnerability where
  id : String
  ecosystem : String := ""
  name : String := ""
  versionRanges : String := "[]"
  versionsAffected : String := "[]"
  references : String := "[]"
  severity : String := "LOW"
  cvssScore : Option ℚ := none
  epssScore : Option ℚ := none
  epssPercentile : Option ℚ := none
  cisaKEV : Bool := false
  summary : String := ""
  source : String := "unknown"
  withdrawn : Bool := false
  deriving DecidableEq

/-- One malicious finding. -/
structure SyncMalicious where
  id : String
  ecosystem : String
  name : String
  versionRanges : String := ""
  versions : String := ""
  referenceURLs : String := "[]"
  riskType : String := ""
  severity : String := ""
  summary : String := ""
  source : String := "unknown"
  withdrawn : Bool := false
  deriving DecidableEq

/-- One cached reputation row, or its tombstone. -/
structure SyncReputationFinding where
  id : String
  ecosystem : String
  name : String
  version : String
  type : String := ""
  riskType : String := ""
  severity : String := ""
  summary : String := ""
  withdrawn : Bool := false
  deriving DecidableEq

/-- One release cycle of a package, or its tombstone. -/
structure SyncLifecycleRelease where
  id : String
  ecosystem : String
  name : String
  productSlug : String
  productLabel : String := ""
  cycle : String
  latest : String := ""
  releaseDate : Option Time := none
  isLTS : Bool := false
  ltsFrom : Option Time := none
  isEOAS : Bool := false
  eoasFrom : Option Time := none
  isEOL : Bool := false
  eolFrom : Option Time := none
  isDiscontinued : Bool := false
  discontinuedFrom : Option Time := none
  isEOES : Option Bool := none
  eoesFrom : Option Time := none
  isMaintained : Bool := false
  withdrawn : Bool := false
  deriving DecidableEq

/-! ## Estimated size on the wire -/

/-- The JSON bytes of one character inside a string, at most. -/
def jsonCharWireBytes (c : Char) : ℕ :=
  if c = '"' ∨ c = '\\' then 2
  else if c.toNat < 0x20 ∨ c = '<' ∨ c = '>' ∨ c = '&' ∨ c.toNat = 0x2028 ∨ c.toNat = 0x2029 then 6
  else c.utf8Size

/-- The JSON bytes of a string, at most; the two quotes are counted. -/
def jsonStringWireBytes (s : String) : ℕ := 2 + (s.toList.map jsonCharWireBytes).sum

/-- The JSON bytes of a vulnerability row, at most. -/
def syncVulnerabilityWireBytes (row : SyncVulnerability) : ℕ :=
  320 + jsonStringWireBytes row.id + jsonStringWireBytes row.ecosystem +
    jsonStringWireBytes row.name + jsonStringWireBytes row.versionRanges +
    jsonStringWireBytes row.versionsAffected + jsonStringWireBytes row.references +
    jsonStringWireBytes row.severity + jsonStringWireBytes row.summary +
    jsonStringWireBytes row.source

/-- The JSON bytes of one advisory listed as having no affected package, at most. -/
def syncAdvisoryIDWireBytes (id : String) : ℕ := jsonStringWireBytes id + 1

/-- The JSON bytes of a malicious row, at most. -/
def syncMaliciousWireBytes (row : SyncMalicious) : ℕ :=
  192 + jsonStringWireBytes row.id + jsonStringWireBytes row.ecosystem +
    jsonStringWireBytes row.name + jsonStringWireBytes row.versionRanges +
    jsonStringWireBytes row.versions + jsonStringWireBytes row.referenceURLs +
    jsonStringWireBytes row.riskType + jsonStringWireBytes row.severity +
    jsonStringWireBytes row.summary + jsonStringWireBytes row.source

/-- The JSON bytes of a reputation row, at most. -/
def syncReputationWireBytes (row : SyncReputationFinding) : ℕ :=
  160 + jsonStringWireBytes row.id + jsonStringWireBytes row.ecosystem +
    jsonStringWireBytes row.name + jsonStringWireBytes row.version +
    jsonStringWireBytes row.type + jsonStringWireBytes row.riskType +
    jsonStringWireBytes row.severity + jsonStringWireBytes row.summary

/-- The JSON bytes of a lifecycle row, at most. -/
def syncLifecycleWireBytes (row : SyncLifecycleRelease) : ℕ :=
  448 + jsonStringWireBytes row.id + jsonStringWireBytes row.ecosystem +
    jsonStringWireBytes row.name + jsonStringWireBytes row.productSlug +
    jsonStringWireBytes row.productLabel + jsonStringWireBytes row.cycle +
    jsonStringWireBytes row.latest

/-- The byte budgets of the four datasets on one page. -/
def syncVulnerabilityPageByteBudget : ℤ := 12 * 2 ^ 20
@[inherit_doc syncVulnerabilityPageByteBudget]
def syncMaliciousPageByteBudget : ℤ := 8 * 2 ^ 20
@[inherit_doc syncVulnerabilityPageByteBudget]
def syncReputationPageByteBudget : ℤ := 4 * 2 ^ 20
@[inherit_doc syncVulnerabilityPageByteBudget]
def syncLifecyclePageByteBudget : ℤ := 4 * 2 ^ 20

/-! ## Pages of the vulnerability dataset -/

/-- How the vulnerability dataset of a request is paged. -/
inductive SyncVulnerabilityPaging where
  /-- By affected rows in (ecosystem, name, id) order. -/
  | rowKeyset
  /-- By affected rows in (id, ecosystem, name) order behind a legacy offset. -/
  | deltaRowOffset
  /-- By whole advisories in id order. -/
  | advisoryPages
  /-- By the rows of one advisory too large for a page. -/
  | advisorySplit
  deriving DecidableEq

/-- The paging of a request, from the options of the vulnerability dataset. -/
def syncVulnerabilityPagingFor (opts : SyncExportOptions) : SyncVulnerabilityPaging :=
  if opts.since = none then .rowKeyset
  else if opts.cursor.vulnerabilitiesCursor ≠ "" then
    if (decodeSyncAdvisoryCursor opts.cursor.vulnerabilitiesCursor).isSome then .advisoryPages
    else if (decodeSyncAdvisoryRowCursor opts.cursor.vulnerabilitiesCursor).isSome then
      .advisorySplit
    else .rowKeyset
  else if opts.offset > 0 ∨ opts.cursor.vulnerabilities > 0 then .deltaRowOffset
  else .advisoryPages

/-- A request pages a split advisory only behind a readable row cursor. -/
lemma decodeSyncAdvisoryRowCursor_of_split {opts : SyncExportOptions}
    (hpaging : syncVulnerabilityPagingFor opts = .advisorySplit) :
    ∃ parts : String × String × String,
      decodeSyncAdvisoryRowCursor opts.cursor.vulnerabilitiesCursor = some parts ∧
        parts.1 ≠ "" ∧ parts.2.1 ≠ "" ∧ parts.2.2 ≠ "" := by
  unfold syncVulnerabilityPagingFor at hpaging
  split_ifs at hpaging with _ _ _ hrow
  obtain ⟨parts, hparts⟩ := Option.isSome_iff_exists.mp hrow
  refine ⟨parts, hparts, ?_⟩
  obtain ⟨values, -, hparts⟩ := Option.bind_eq_some_iff.mp hparts
  unfold advisoryRowOfValues at hparts
  split at hparts
  · split_ifs at hparts with hempty
    rw [not_or, not_or, not_or] at hempty
    obtain rfl := Option.some.inj hparts
    exact hempty.2
  · exact absurd hparts (by simp)

/-- One exported page of the vulnerability dataset. -/
structure SyncVulnerabilityPage where
  rows : List SyncVulnerability := []
  hasMore : Bool := false
  /-- The advisories of the page without an affected row in scope. -/
  withoutAffected : List String := []
  /-- The last advisory of the page, with or without rows. -/
  lastAdvisoryID : String := ""
  /-- The keyset string of the next page, when the page itself decides it. -/
  nextCursor : String := ""
  /-- The page holds part of an advisory too large for a page. -/
  split : Bool := false
  splitAdvisoryID : String := ""
  splitStart : Bool := false
  splitLast : Bool := false
  splitComplete : Bool := false
  deriving DecidableEq

/-- One row of a query result: the exported row, whether it only marks an advisory without affected
rows, and the query's verdict on whether advisories follow. -/
structure ScannedRow where
  item : SyncVulnerability
  withoutAffected : Bool := false
  hasMore : Bool := false
  deriving DecidableEq

/-- The builder of one page of the vulnerability dataset. -/
structure SyncVulnerabilityPageBuilder where
  paging : SyncVulnerabilityPaging
  limit : ℕ
  splitID : String
  budget : ℤ
  page : SyncVulnerabilityPage := {}
  used : ℕ := 0
  sqlHasMore : Bool := false
  stopped : Bool := false
  currentID : String := ""
  currentRows : ℕ := 0
  currentMarkers : ℕ := 0
  lastWholeID : String := ""

/-- The byte budget of an export that is not paginated. -/
def maxInt : ℤ := 2 ^ 63 - 1

/-- A builder for one page.  Without a limit there is no next page, and no byte budget. -/
def newSyncVulnerabilityPageBuilder (paging : SyncVulnerabilityPaging) (limit : ℕ)
    (splitID : String) (budget : ℤ) : SyncVulnerabilityPageBuilder :=
  { paging, limit, splitID, budget := if limit = 0 then maxInt else budget }

/-- Record one row; a marker row lists its advisory instead of becoming a package row. -/
def SyncVulnerabilityPage.add (p : SyncVulnerabilityPage) (item : SyncVulnerability)
    (withoutAffected : Bool) : SyncVulnerabilityPage :=
  if withoutAffected then
    { p with lastAdvisoryID := item.id, withoutAffected := p.withoutAffected ++ [item.id] }
  else { p with lastAdvisoryID := item.id, rows := p.rows ++ [item] }

namespace SyncVulnerabilityPageBuilder

/-- The estimated size of a scanned row. -/
def wireBytes (row : ScannedRow) : ℕ :=
  if row.withoutAffected then syncAdvisoryIDWireBytes row.item.id
  else syncVulnerabilityWireBytes row.item

/-- The row fits the budget; the first row of a page always does. -/
def fits (b : SyncVulnerabilityPageBuilder) (row : ScannedRow) : Bool :=
  ((b.used + wireBytes row : ℕ) : ℤ) ≤ b.budget ||
    (b.page.rows.isEmpty && b.page.withoutAffected.isEmpty)

/-- End an advisory page at a row that no longer fits: after the last whole advisory, or inside the
first advisory of the page. -/
def stopAdvisoryPage (b : SyncVulnerabilityPageBuilder) : SyncVulnerabilityPageBuilder :=
  if b.lastWholeID ≠ "" then
    { b with
      stopped := true
      page := { b.page with
        hasMore := true
        rows := b.page.rows.take b.currentRows
        withoutAffected := b.page.withoutAffected.take b.currentMarkers
        lastAdvisoryID := b.lastWholeID
        nextCursor := encodeSyncAdvisoryCursor b.lastWholeID } }
  else
    -- a marker row fits as the first row of a page, so a package row has been accepted
    match b.page.rows.getLast? with
    | none => { b with stopped := true, page := { b.page with hasMore := true } }
    | some last =>
      { b with
        stopped := true
        page := { b.page with
          hasMore := true
          split := true
          splitAdvisoryID := last.id
          splitStart := true
          nextCursor := encodeSyncAdvisoryRowCursor last.id last.ecosystem last.name } }

/-- The advisory bookkeeping of an advisory page, before the row is accepted or refused. -/
def enterAdvisory (b : SyncVulnerabilityPageBuilder) (row : ScannedRow) :
    SyncVulnerabilityPageBuilder :=
  if row.item.id ≠ b.currentID then
    { b with
      sqlHasMore := row.hasMore
      lastWholeID := b.currentID
      currentID := row.item.id
      currentRows := b.page.rows.length
      currentMarkers := b.page.withoutAffected.length }
  else { b with sqlHasMore := row.hasMore }

/-- Record a row that fits. -/
def accept (b : SyncVulnerabilityPageBuilder) (row : ScannedRow) : SyncVulnerabilityPageBuilder :=
  { b with used := b.used + wireBytes row, page := b.page.add row.item row.withoutAffected }

/-- Offer the next row; the flag says whether it was accepted. -/
def add (b : SyncVulnerabilityPageBuilder) (row : ScannedRow) :
    SyncVulnerabilityPageBuilder × Bool :=
  if b.stopped then (b, false)
  else match b.paging with
    | .advisoryPages =>
      let entered := b.enterAdvisory row
      if !b.fits row then (entered.stopAdvisoryPage, false) else (entered.accept row, true)
    | .advisorySplit =>
      if !b.fits row ∨ (b.limit > 0 ∧ b.page.rows.length = b.limit) then
        ({ b with stopped := true }, false)
      else (b.accept row, true)
    | _ => if !b.fits row then ({ b with stopped := true }, false) else (b.accept row, true)

/-- Offer the rows of a query result until one is refused. -/
def addAll (b : SyncVulnerabilityPageBuilder) : List ScannedRow → SyncVulnerabilityPageBuilder
  | [] => b
  | row :: rest =>
    match b.add row with
    | (b, true) => b.addAll rest
    | (b, false) => b

/-- The page, with whether and where the dataset continues. -/
def finish (b : SyncVulnerabilityPageBuilder) : SyncVulnerabilityPage :=
  match b.paging with
  | .advisoryPages => if !b.stopped then { b.page with hasMore := b.sqlHasMore } else b.page
  | .advisorySplit =>
    let page := { b.page with split := true, splitAdvisoryID := b.splitID, hasMore := true }
    match page.rows.getLast? with
    | some last =>
      if b.stopped then
        { page with
          nextCursor := encodeSyncAdvisoryRowCursor last.id last.ecosystem last.name }
      else
        { page with
          splitLast := true
          lastAdvisoryID := b.splitID
          nextCursor := encodeSyncAdvisoryCursor b.splitID }
    | none =>
      { page with
        splitLast := true
        lastAdvisoryID := b.splitID
        nextCursor := encodeSyncAdvisoryCursor b.splitID }
  | _ => { b.page with hasMore := b.stopped || (b.limit > 0 && b.page.rows.length = b.limit) }

/-! ### What a page of rows or of a split advisory holds -/

lemma addAll_cons (b : SyncVulnerabilityPageBuilder) (row : ScannedRow) (rest : List ScannedRow) :
    b.addAll (row :: rest) =
      if (b.add row).2 then (b.add row).1.addAll rest else (b.add row).1 := by
  rcases h : b.add row with ⟨b', _ | _⟩ <;> simp [addAll, h]

/-- Offering a row changes neither the paging nor the split advisory of a builder. -/
lemma add_paging (b : SyncVulnerabilityPageBuilder) (row : ScannedRow) :
    (b.add row).1.paging = b.paging := by
  have hstop (b' : SyncVulnerabilityPageBuilder) : b'.stopAdvisoryPage.paging = b'.paging := by
    unfold stopAdvisoryPage
    split_ifs
    · rfl
    · cases b'.page.rows.getLast? <;> rfl
  have henter : (b.enterAdvisory row).paging = b.paging := by
    unfold enterAdvisory
    split_ifs <;> rfl
  unfold add
  cases hp : b.paging <;> dsimp only <;> split_ifs <;>
    simp [accept, hstop, henter, hp]

lemma addAll_paging (b : SyncVulnerabilityPageBuilder) (rows : List ScannedRow) :
    (b.addAll rows).paging = b.paging := by
  induction rows generalizing b with
  | nil => rfl
  | cons row rest ih =>
    rw [addAll_cons]
    split_ifs
    · rw [ih, add_paging]
    · exact add_paging b row

/-- Off the advisory pages a running builder takes a package row, or stops on a page that already
has one. -/
lemma add_cases_rows {b : SyncVulnerabilityPageBuilder} (hrunning : b.stopped = false)
    (hpaging : b.paging ≠ .advisoryPages) (row : ScannedRow) :
    (b.add row = (b.accept row, true) ∧
        (b.paging = .advisorySplit → b.limit > 0 → b.page.rows.length ≠ b.limit)) ∨
      (b.add row = ({ b with stopped := true }, false) ∧
        (b.page.rows ≠ [] ∨ b.page.withoutAffected ≠ [])) := by
  have hfirst : b.fits row = false → b.page.rows ≠ [] ∨ b.page.withoutAffected ≠ [] := by
    intro hfits
    simp only [fits, Bool.or_eq_false_iff, Bool.and_eq_false_iff, List.isEmpty_eq_false_iff]
      at hfits
    exact hfits.2
  unfold add
  rw [if_neg (by simp [hrunning])]
  cases hp : b.paging with
  | advisoryPages => exact absurd hp hpaging
  | advisorySplit =>
    by_cases hstop : (!b.fits row) = true ∨ (b.limit > 0 ∧ b.page.rows.length = b.limit)
    · right
      simp only [if_pos hstop, true_and]
      rcases hstop with h | ⟨hpos, hlen⟩
      · exact hfirst (by simpa using h)
      · exact Or.inl (List.ne_nil_of_length_pos (by omega))
    · left
      simp only [if_neg hstop, true_and]
      intro _ hpos hlen
      exact hstop (Or.inr ⟨hpos, hlen⟩)
  | rowKeyset =>
    by_cases hfits : b.fits row = true
    · left
      simp [hfits]
    · right
      simp only [Bool.not_eq_true] at hfits
      simp [hfits, hfirst hfits]
  | deltaRowOffset =>
    by_cases hfits : b.fits row = true
    · left
      simp [hfits]
    · right
      simp only [Bool.not_eq_true] at hfits
      simp [hfits, hfirst hfits]

/-- From `b` the builder got to `b'` by taking the package rows `taken` and leaving `rest`. -/
structure TakesRows (b b' : SyncVulnerabilityPageBuilder) (taken rest : List SyncVulnerability) :
    Prop where
  page : b'.page = { b.page with
    rows := b.page.rows ++ taken, lastAdvisoryID := b'.page.lastAdvisoryID }
  paging : b'.paging = b.paging
  splitID : b'.splitID = b.splitID
  limit : b'.limit = b.limit
  /-- A builder that still runs has taken every row. -/
  whole : b'.stopped = false → rest = []
  /-- A builder stops only on a page that has a row. -/
  cut : b'.stopped = true → b'.page.rows ≠ []
  /-- A split page takes no more rows than the limit. -/
  bounded : b.paging = .advisorySplit → b.limit > 0 → b.page.rows.length ≤ b.limit →
    b'.page.rows.length ≤ b.limit

/-- Off the advisory pages a running builder takes an initial segment of the package rows. -/
lemma exists_takesRows {b : SyncVulnerabilityPageBuilder} (hrunning : b.stopped = false)
    (hpaging : b.paging ≠ .advisoryPages) (hmarkers : b.page.withoutAffected = [])
    (rows : List ScannedRow) (hrows : ∀ row ∈ rows, row.withoutAffected = false) :
    ∃ taken rest, rows.map ScannedRow.item = taken ++ rest ∧
      TakesRows b (b.addAll rows) taken rest := by
  induction rows generalizing b with
  | nil =>
    exact ⟨[], [], rfl, by simp [addAll], rfl, rfl, rfl, fun _ => rfl,
      fun h => by simp [addAll, hrunning] at h, fun _ _ h => h⟩
  | cons row rest ih =>
    have hrow : row.withoutAffected = false := hrows row (by simp)
    have hpage : (b.accept row).page =
        { b.page with lastAdvisoryID := row.item.id, rows := b.page.rows ++ [row.item] } := by
      simp [accept, SyncVulnerabilityPage.add, hrow]
    rcases add_cases_rows hrunning hpaging row with ⟨hadd, hroom⟩ | ⟨hadd, hne⟩
    · have hstep : b.addAll (row :: rest) = (b.accept row).addAll rest := by
        rw [addAll_cons, hadd, if_pos rfl]
      obtain ⟨taken, left, hsplit, h⟩ :=
        ih (b := b.accept row) hrunning hpaging (by rw [hpage]; exact hmarkers)
          fun r hr => hrows r (by simp [hr])
      rw [hstep]
      refine ⟨row.item :: taken, left, by simp [hsplit], ?_, h.paging, h.splitID, h.limit, h.whole, h.cut,
        ?_⟩
      · rw [h.page, hpage]
        simp
      · intro hs hpos hlen
        refine h.bounded hs hpos ?_
        have hne := hroom hs hpos
        rw [hpage, List.length_append, List.length_singleton]
        simp only [accept]
        omega
    · have hstep : b.addAll (row :: rest) = { b with stopped := true } := by
        rw [addAll_cons, hadd, if_neg (by simp)]
      rw [hstep]
      refine ⟨[], _, rfl, by simp, rfl, rfl, rfl, by simp, ?_, fun _ _ h => h⟩
      intro _
      simpa [hmarkers] using hne

/-- The same for a query that returns package rows only. -/
lemma exists_takesRows_map {b : SyncVulnerabilityPageBuilder} (hrunning : b.stopped = false)
    (hpaging : b.paging ≠ .advisoryPages) (hmarkers : b.page.withoutAffected = [])
    (items : List SyncVulnerability) :
    ∃ taken rest, items = taken ++ rest ∧
      TakesRows b (b.addAll (items.map fun item => { item })) taken rest := by
  obtain ⟨taken, rest, hsplit, h⟩ := exists_takesRows hrunning hpaging hmarkers
    (items.map fun item => { item }) (by simp)
  rw [List.map_map] at hsplit
  exact ⟨taken, rest, (List.map_id _).symm.trans hsplit, h⟩

/-! ### The cursor an advisory page decides on -/

/-- The keyset string an advisory page sets itself: none, the one behind a whole advisory, or the one
behind its last row. -/
def OwnCursor (p : SyncVulnerabilityPage) : Prop :=
  p.nextCursor = "" ∨ (∃ id, id ≠ "" ∧ p.nextCursor = encodeSyncAdvisoryCursor id) ∨
    ∃ last, p.rows.getLast? = some last ∧
      p.nextCursor = encodeSyncAdvisoryRowCursor last.id last.ecosystem last.name

lemma enterAdvisory_page (b : SyncVulnerabilityPageBuilder) (row : ScannedRow) :
    (b.enterAdvisory row).page = b.page := by
  unfold enterAdvisory
  split_ifs <;> rfl

lemma ownCursor_stopAdvisoryPage {b : SyncVulnerabilityPageBuilder} (h : b.page.nextCursor = "") :
    OwnCursor b.stopAdvisoryPage.page := by
  unfold stopAdvisoryPage
  split_ifs with hwhole
  · exact Or.inr (Or.inl ⟨b.lastWholeID, hwhole, rfl⟩)
  · cases hlast : b.page.rows.getLast? with
    | none => exact Or.inl h
    | some last => exact Or.inr (Or.inr ⟨last, hlast, rfl⟩)

lemma nextCursor_page_add (p : SyncVulnerabilityPage) (item : SyncVulnerability) (marker : Bool) :
    (p.add item marker).nextCursor = p.nextCursor := by
  unfold SyncVulnerabilityPage.add
  split_ifs <;> rfl

lemma ownCursor_addAll {b : SyncVulnerabilityPageBuilder} (hpaging : b.paging = .advisoryPages)
    (hrunning : b.stopped = false) (hcursor : b.page.nextCursor = "") (rows : List ScannedRow) :
    OwnCursor (b.addAll rows).page := by
  induction rows generalizing b with
  | nil => exact Or.inl hcursor
  | cons row rest ih =>
    have hadd : b.add row = if !b.fits row then ((b.enterAdvisory row).stopAdvisoryPage, false)
        else ((b.enterAdvisory row).accept row, true) := by
      simp [add, hrunning, hpaging]
    rw [addAll_cons, hadd]
    by_cases hfits : b.fits row = true
    · simp only [hfits, Bool.not_true, Bool.false_eq_true, if_false, if_true]
      have hentered : (b.enterAdvisory row).stopped = false ∧
          (b.enterAdvisory row).paging = .advisoryPages := by
        unfold enterAdvisory
        split_ifs <;> exact ⟨hrunning, hpaging⟩
      refine ih hentered.2 hentered.1 ?_
      rw [accept, nextCursor_page_add, enterAdvisory_page, hcursor]
    · simp only [Bool.not_eq_true] at hfits
      simp only [hfits, Bool.not_false, if_true, Bool.false_eq_true, if_false]
      exact ownCursor_stopAdvisoryPage (by rw [enterAdvisory_page, hcursor])

end SyncVulnerabilityPageBuilder

/-! ## Pages of the other datasets -/

/-- One exported page of a dataset paged by rows. -/
structure SyncRowPage (T : Type) where
  rows : List T := []
  hasMore : Bool := false

/-- The builder of one page of a dataset paged by rows. -/
structure SyncRowPageBuilder (T : Type) where
  limit : ℕ
  budget : ℤ
  wireBytes : T → ℕ
  page : SyncRowPage T := {}
  used : ℕ := 0
  stopped : Bool := false

/-- A builder for one page.  Without a limit there is no next page, and no byte budget. -/
def newSyncRowPageBuilder {T : Type} (limit : ℕ) (budget : ℤ) (wireBytes : T → ℕ) :
    SyncRowPageBuilder T :=
  { limit, wireBytes, budget := if limit = 0 then maxInt else budget }

namespace SyncRowPageBuilder

variable {T : Type}

/-- Offer the next row; the flag says whether it was accepted. -/
def add (b : SyncRowPageBuilder T) (item : T) : SyncRowPageBuilder T × Bool :=
  if b.stopped then (b, false)
  else if b.page.rows ≠ [] ∧ ((b.used + b.wireBytes item : ℕ) : ℤ) > b.budget then
    ({ b with stopped := true }, false)
  else
    ({ b with used := b.used + b.wireBytes item, page.rows := b.page.rows ++ [item] }, true)

/-- Offer the rows of a query result until one is refused. -/
def addAll (b : SyncRowPageBuilder T) : List T → SyncRowPageBuilder T
  | [] => b
  | item :: rest =>
    match b.add item with
    | (b, true) => b.addAll rest
    | (b, false) => b

/-- The page, with whether the dataset continues. -/
def finish (b : SyncRowPageBuilder T) : SyncRowPage T :=
  { b.page with hasMore := b.stopped || (b.limit > 0 && b.page.rows.length = b.limit) }

/-! ### What a row page holds -/

lemma addAll_cons (b : SyncRowPageBuilder T) (item : T) (rest : List T) :
    b.addAll (item :: rest) =
      if (b.add item).2 then (b.add item).1.addAll rest else (b.add item).1 := by
  rcases h : b.add item with ⟨b', _ | _⟩ <;> simp [addAll, h]

@[simp] lemma add_limit (b : SyncRowPageBuilder T) (item : T) : (b.add item).1.limit = b.limit := by
  unfold add
  split_ifs <;> rfl

/-- A running builder either takes the row, or stops on a page that already has one. -/
lemma add_cases {b : SyncRowPageBuilder T} (hrunning : b.stopped = false) (item : T) :
    ((b.add item).2 = true ∧ (b.add item).1.stopped = false ∧
        (b.add item).1.page.rows = b.page.rows ++ [item]) ∨
      ((b.add item).2 = false ∧ (b.add item).1.stopped = true ∧ b.page.rows ≠ [] ∧
        (b.add item).1.page.rows = b.page.rows) := by
  unfold add
  rw [if_neg (by simp [hrunning])]
  split_ifs with h
  · exact Or.inr ⟨rfl, rfl, h.1, rfl⟩
  · exact Or.inl ⟨rfl, hrunning, rfl⟩

/-- A running builder takes an initial segment of the rows: all of them unless it stops, and it
stops only on a page that has a row. -/
lemma addAll_spec {b : SyncRowPageBuilder T} (hrunning : b.stopped = false) (rows : List T) :
    (b.addAll rows).limit = b.limit ∧
    ∃ taken rest, rows = taken ++ rest ∧ (b.addAll rows).page.rows = b.page.rows ++ taken ∧
      ((b.addAll rows).stopped = false → rest = []) ∧
      ((b.addAll rows).stopped = true → b.page.rows ++ taken ≠ []) := by
  induction rows generalizing b with
  | nil => exact ⟨rfl, [], [], rfl, by simp [addAll], by simp, by simp [addAll, hrunning]⟩
  | cons item rest ih =>
    rcases add_cases hrunning item with ⟨hflag, hstopped, hpage⟩ | ⟨hflag, hstopped, hne, hpage⟩
    · have hstep : b.addAll (item :: rest) = (b.add item).1.addAll rest := by
        rw [addAll_cons, hflag, if_pos rfl]
      obtain ⟨hlimit, taken, left, hrows, htaken, hall, hsome⟩ := ih hstopped
      rw [hstep]
      refine ⟨by rw [hlimit, add_limit], item :: taken, left, by simp [hrows], ?_, hall, ?_⟩
      · rw [htaken, hpage, List.append_assoc, List.singleton_append]
      · intro _
        simp
    · have hstep : b.addAll (item :: rest) = (b.add item).1 := by
        rw [addAll_cons, hflag, if_neg (by simp)]
      rw [hstep]
      refine ⟨add_limit b item, [], item :: rest, rfl, by simp [hpage], ?_, ?_⟩
      · intro h
        simp [hstopped] at h
      · intro _
        simpa using hne

/-- A page holds an initial segment of the rows its query returned.  It has a row when it continues;
when it does not, it holds them all and they are fewer than the limit. -/
theorem finish_addAll_spec (limit : ℕ) (budget : ℤ) (wireBytes : T → ℕ) (rows : List T) :
    let page := ((newSyncRowPageBuilder limit budget wireBytes).addAll rows).finish
    ∃ rest, rows = page.rows ++ rest ∧
      (page.hasMore = false → rest = [] ∧ (limit > 0 → page.rows.length ≠ limit)) ∧
      (page.hasMore = true → page.rows ≠ []) := by
  intro page
  obtain ⟨hlimit, taken, rest, hrows, htaken, hall, hsome⟩ :=
    addAll_spec (b := newSyncRowPageBuilder limit budget wireBytes) rfl rows
  have hpage : page.rows = taken := by simpa [page, finish, newSyncRowPageBuilder] using htaken
  have hlimit' : ((newSyncRowPageBuilder limit budget wireBytes).addAll rows).limit = limit := hlimit
  have hmore : page.hasMore =
      (((newSyncRowPageBuilder limit budget wireBytes).addAll rows).stopped ||
        (decide (limit > 0) && decide (page.rows.length = limit))) := by
    simp only [page, finish, hlimit']
  refine ⟨rest, by rw [hpage]; exact hrows, ?_, ?_⟩
  · intro h
    rw [hmore, Bool.or_eq_false_iff, Bool.and_eq_false_imp] at h
    exact ⟨hall h.1, fun hpos => by simpa using h.2 (by simpa using hpos)⟩
  · intro h hnil
    rw [hmore, Bool.or_eq_true, Bool.and_eq_true] at h
    rcases h with h | ⟨hpos, hlen⟩
    · exact hsome h (by simpa [newSyncRowPageBuilder, hpage] using hnil)
    · rw [hnil] at hlen
      simp at hpos hlen
      omega

end SyncRowPageBuilder

end Packmon

import Packmon.Sync.Queries

/-!
# What a page of a delta holds

A delta is paged by whole advisories.  Offered the rows of the advisories behind its cursor, the
builder of one page ends in one of three ways (`AdvisoryPageOutcome`): it holds them all, it ends
behind a whole advisory, or it ends inside the first advisory, which is too large for a page.  A
split advisory then continues row by row (`SplitPageOutcome`).

The proof follows the builder through one advisory at a time.  Between two advisories its state is
`AtBoundary`; after the first row of an advisory it is `Inside`.
-/

namespace Packmon

open Keyset (behind orderBy)

/-! ## Rows and markers of whole advisories -/

/-- The affected rows of an advisory in the order of the export. -/
def Advisory.ordered (a : Advisory) : List SyncVulnerability :=
  orderBy SyncVulnerability.rowKey a.rows

/-- The affected rows of whole advisories. -/
def rowsOf (done : List Advisory) : List SyncVulnerability := done.flatMap Advisory.ordered

/-- The advisories without an affected row. -/
def withoutRows (done : List Advisory) : List String :=
  (done.filter fun a => a.rows = []).map Advisory.id

/-- The last of some advisories. -/
def lastID (done : List Advisory) : String := (done.getLast?.map Advisory.id).getD ""

@[simp] lemma Advisory.mem_ordered {a : Advisory} {row : SyncVulnerability} :
    row ∈ a.ordered ↔ row ∈ a.rows := Keyset.mem_orderBy

@[simp] lemma Advisory.ordered_eq_nil {a : Advisory} : a.ordered = [] ↔ a.rows = [] := by
  constructor
  · intro h
    exact List.eq_nil_iff_forall_not_mem.mpr fun row hrow => by
      have := Advisory.mem_ordered.mpr hrow
      simp [h] at this
  · intro h
    simp [Advisory.ordered, h, orderBy]

lemma Advisory.ordered_id {a : Advisory} {row : SyncVulnerability} (h : row ∈ a.ordered) :
    row.id = a.id := a.rows_id row (Advisory.mem_ordered.mp h)

@[simp] lemma rowsOf_nil : rowsOf [] = [] := rfl
@[simp] lemma rowsOf_cons (a : Advisory) (as : List Advisory) :
    rowsOf (a :: as) = a.ordered ++ rowsOf as := by simp [rowsOf]
@[simp] lemma rowsOf_append (as bs : List Advisory) :
    rowsOf (as ++ bs) = rowsOf as ++ rowsOf bs := by simp [rowsOf]

@[simp] lemma withoutRows_nil : withoutRows [] = [] := rfl
lemma withoutRows_cons (a : Advisory) (as : List Advisory) :
    withoutRows (a :: as) = (if a.rows = [] then [a.id] else []) ++ withoutRows as := by
  unfold withoutRows
  by_cases h : a.rows = [] <;> simp [h]
@[simp] lemma withoutRows_append (as bs : List Advisory) :
    withoutRows (as ++ bs) = withoutRows as ++ withoutRows bs := by simp [withoutRows]

@[simp] lemma lastID_nil : lastID [] = "" := rfl
@[simp] lemma lastID_append_singleton (as : List Advisory) (a : Advisory) :
    lastID (as ++ [a]) = a.id := by simp [lastID]

lemma exists_mem_lastID {done : List Advisory} (hdone : done ≠ []) :
    ∃ a ∈ done, lastID done = a.id := by
  obtain ⟨init, a, rfl⟩ := List.eq_nil_or_concat' done |>.resolve_left hdone
  exact ⟨a, by simp, lastID_append_singleton init a⟩

/-! ## The pages -/

/-- A page that holds whole advisories only. -/
def wholePage (done : List Advisory) (hasMore : Bool) (nextCursor : String) :
    SyncVulnerabilityPage where
  rows := rowsOf done
  withoutAffected := withoutRows done
  lastAdvisoryID := lastID done
  hasMore := hasMore
  nextCursor := nextCursor

/-- A page that ends inside its first advisory, behind the row `last`. -/
def splitStartPage (taken : List SyncVulnerability) (last : SyncVulnerability) :
    SyncVulnerabilityPage where
  rows := taken ++ [last]
  lastAdvisoryID := last.id
  hasMore := true
  split := true
  splitAdvisoryID := last.id
  splitStart := true
  nextCursor := encodeSyncAdvisoryRowCursor last.id last.ecosystem last.name

/-- A page inside a split advisory that ends behind the row `last`. -/
def splitPage (id : String) (taken : List SyncVulnerability) (last : SyncVulnerability)
    (lastAdvisoryID : String) : SyncVulnerabilityPage where
  rows := taken ++ [last]
  lastAdvisoryID := lastAdvisoryID
  hasMore := true
  split := true
  splitAdvisoryID := id
  nextCursor := encodeSyncAdvisoryRowCursor last.id last.ecosystem last.name

/-- The last page of a split advisory, with the verdict on whether the split is complete. -/
def splitLastPage (id : String) (rows : List SyncVulnerability) (complete : Bool) :
    SyncVulnerabilityPage where
  rows := rows
  lastAdvisoryID := id
  hasMore := true
  split := true
  splitAdvisoryID := id
  splitLast := true
  splitComplete := complete
  nextCursor := encodeSyncAdvisoryCursor id

/-- Where the vulnerability dataset of a request continues. -/
inductive SyncPosition where
  /-- A full export, behind a row. -/
  | rows (after : Option (List String))
  /-- A delta, behind a whole advisory. -/
  | advisories (after : Option String)
  /-- A delta, behind a row of a split advisory. -/
  | inside (id ecosystem name : String)

/-- What a page of the advisories `candidates` can be, and where it continues. -/
inductive AdvisoryPageOutcome (candidates : List Advisory) :
    SyncVulnerabilityPage → Option SyncPosition → Prop
  /-- It holds every candidate and the dataset ends. -/
  | whole : AdvisoryPageOutcome candidates (wholePage candidates false "") none
  /-- It ends behind a whole advisory. -/
  | boundary {done rest : List Advisory} {nextCursor : String} (hsplit : candidates = done ++ rest)
      (hdone : done ≠ []) (hrest : rest ≠ [])
      (hcursor : nextCursor = "" ∨ nextCursor = encodeSyncAdvisoryCursor (lastID done)) :
      AdvisoryPageOutcome candidates (wholePage done true nextCursor)
        (some (.advisories (some (lastID done))))
  /-- It ends inside the first advisory. -/
  | split {a : Advisory} {rest : List Advisory} {taken left : List SyncVulnerability}
      {last : SyncVulnerability} (hfirst : candidates = a :: rest)
      (hrows : a.ordered = taken ++ last :: left) (hleft : left ≠ []) :
      AdvisoryPageOutcome candidates (splitStartPage taken last)
        (some (.inside a.id last.ecosystem last.name))

/-- What a page of the remaining rows of a split advisory can be, and where it continues. -/
inductive SplitPageOutcome (id : String) (rows : List SyncVulnerability) (complete : Bool) :
    SyncVulnerabilityPage → Option SyncPosition → Prop
  /-- It ends inside the advisory. -/
  | inside {taken left : List SyncVulnerability} {last : SyncVulnerability}
      {lastAdvisoryID : String} (hrows : rows = taken ++ last :: left) :
      SplitPageOutcome id rows complete (splitPage id taken last lastAdvisoryID)
        (some (.inside id last.ecosystem last.name))
  /-- It holds every remaining row and the dataset continues behind the advisory. -/
  | last : SplitPageOutcome id rows complete (splitLastPage id rows complete)
      (some (.advisories (some id)))

namespace SyncVulnerabilityPageBuilder

/-! ## The builder between and inside advisories -/

/-- The builder holds the whole advisories `done` and nothing else; `hasMore` is the query's verdict
on whether advisories follow. -/
structure AtBoundary (b : SyncVulnerabilityPageBuilder) (done : List Advisory) (hasMore : Bool) :
    Prop where
  paging : b.paging = .advisoryPages
  running : b.stopped = false
  page : b.page = wholePage done false ""
  currentID : b.currentID = lastID done
  sqlHasMore : b.sqlHasMore = (!done.isEmpty && hasMore)

/-- The builder has entered the advisory `a` behind the whole advisories `done` and holds the rows
`taken` of it. -/
structure Inside (b : SyncVulnerabilityPageBuilder) (done : List Advisory) (a : Advisory)
    (taken : List SyncVulnerability) (hasMore : Bool) : Prop where
  paging : b.paging = .advisoryPages
  running : b.stopped = false
  page : b.page = { rows := rowsOf done ++ taken, withoutAffected := withoutRows done,
                    lastAdvisoryID := if taken = [] then lastID done else a.id }
  currentID : b.currentID = a.id
  currentRows : b.currentRows = (rowsOf done).length
  currentMarkers : b.currentMarkers = (withoutRows done).length
  lastWholeID : b.lastWholeID = lastID done
  sqlHasMore : b.sqlHasMore = hasMore

/-- The builder has stopped at a row of the advisory `a` behind the whole advisories `done`. -/
structure StoppedAt (b : SyncVulnerabilityPageBuilder) (done : List Advisory) (a : Advisory) :
    Prop where
  paging : b.paging = .advisoryPages
  stopped : b.stopped = true
  page : (done ≠ [] ∧ b.page = wholePage done true (encodeSyncAdvisoryCursor (lastID done))) ∨
    (done = [] ∧ ∃ taken last left, a.ordered = taken ++ last :: left ∧ left ≠ [] ∧
      b.page = splitStartPage taken last)

section Steps

variable {b : SyncVulnerabilityPageBuilder} {done : List Advisory} {a : Advisory}
  {taken : List SyncVulnerability} {row : ScannedRow} {hasMore : Bool}

/-- The first row of the next advisory enters it. -/
lemma AtBoundary.enterAdvisory (hb : AtBoundary b done hasMore) (hnew : a.id ≠ lastID done)
    (hid : row.item.id = a.id) (hmore : row.hasMore = hasMore) :
    Inside (b.enterAdvisory row) done a [] hasMore := by
  have hne : row.item.id ≠ b.currentID := by rw [hid, hb.currentID]; exact hnew
  have hpage := hb.page
  simp only [SyncVulnerabilityPageBuilder.enterAdvisory, if_pos hne]
  constructor
  · exact hb.paging
  · exact hb.running
  · simp [hpage, wholePage]
  · exact hid
  · simp [hpage, wholePage]
  · simp [hpage, wholePage]
  · exact hb.currentID
  · exact hmore

/-- A further row of an advisory stays inside it. -/
lemma Inside.enterAdvisory (hb : Inside b done a taken hasMore) (hid : row.item.id = a.id)
    (hmore : row.hasMore = hasMore) : Inside (b.enterAdvisory row) done a taken hasMore := by
  have heq : ¬row.item.id ≠ b.currentID := by rw [hid, hb.currentID]; simp
  simp only [SyncVulnerabilityPageBuilder.enterAdvisory, if_neg heq]
  exact ⟨hb.paging, hb.running, hb.page, hb.currentID, hb.currentRows, hb.currentMarkers,
    hb.lastWholeID, hmore⟩

/-- An accepted package row. -/
lemma Inside.accept (hb : Inside b done a taken hasMore) (hid : row.item.id = a.id)
    (hrow : row.withoutAffected = false) :
    Inside (b.accept row) done a (taken ++ [row.item]) hasMore := by
  have hpage := hb.page
  refine ⟨hb.paging, hb.running, ?_, hb.currentID, hb.currentRows, hb.currentMarkers,
    hb.lastWholeID, hb.sqlHasMore⟩
  simp [SyncVulnerabilityPageBuilder.accept, SyncVulnerabilityPage.add, hrow, hpage, hid]

/-- An accepted marker row is its whole advisory. -/
lemma Inside.accept_marker (hb : Inside b done a [] hasMore) (hid : row.item.id = a.id)
    (hrow : row.withoutAffected = true) (hrows : a.rows = []) :
    AtBoundary (b.accept row) (done ++ [a]) hasMore := by
  have hpage := hb.page
  refine ⟨hb.paging, hb.running, ?_, ?_, ?_⟩
  · simp [SyncVulnerabilityPageBuilder.accept, SyncVulnerabilityPage.add, hrow, hpage, wholePage,
      withoutRows_cons, hrows, hid]
  · simpa [SyncVulnerabilityPageBuilder.accept] using hb.currentID
  · simp [SyncVulnerabilityPageBuilder.accept, hb.sqlHasMore]

/-- Behind the last row of an advisory the builder is between advisories. -/
lemma Inside.atBoundary (hb : Inside b done a a.ordered hasMore) (hrows : a.rows ≠ []) :
    AtBoundary b (done ++ [a]) hasMore := by
  refine ⟨hb.paging, hb.running, ?_, ?_, ?_⟩
  · rw [hb.page]
    simp [wholePage, withoutRows_cons, hrows]
  · rw [hb.currentID, lastID_append_singleton]
  · simp [hb.sqlHasMore]

/-- A refused row ends the page behind the last whole advisory, or inside the first one. -/
lemma Inside.stopAdvisoryPage (hb : Inside b done a taken hasMore)
    (hnamed : done ≠ [] → lastID done ≠ "")
    (hcut : done ≠ [] ∨ taken ≠ [] ∧ ∃ left, left ≠ [] ∧ a.ordered = taken ++ left) :
    StoppedAt b.stopAdvisoryPage done a := by
  have hpage := hb.page
  by_cases hdone : done = []
  · obtain ⟨htaken, left, hleft, hrows⟩ := hcut.resolve_left (not_not_intro hdone)
    obtain ⟨init, last, rfl⟩ := (List.eq_nil_or_concat' taken).resolve_left htaken
    have hid : last.id = a.id := Advisory.ordered_id (by rw [hrows]; simp)
    subst hdone
    have hlast : b.page.rows.getLast? = some last := by rw [hpage]; simp
    have hwhole : ¬b.lastWholeID ≠ "" := by rw [hb.lastWholeID]; simp
    simp only [SyncVulnerabilityPageBuilder.stopAdvisoryPage, if_neg hwhole, hlast]
    refine ⟨hb.paging, rfl, Or.inr ⟨rfl, init, last, left, by simpa using hrows, hleft, ?_⟩⟩
    simp [hpage, splitStartPage, hid]
  · have hwhole : b.lastWholeID ≠ "" := by rw [hb.lastWholeID]; exact hnamed hdone
    simp only [SyncVulnerabilityPageBuilder.stopAdvisoryPage, if_pos hwhole]
    refine ⟨hb.paging, rfl, Or.inl ⟨hdone, ?_⟩⟩
    simp [hpage, hb.currentRows, hb.currentMarkers, hb.lastWholeID, wholePage]

end Steps

/-! ## One advisory at a time -/

/-- A running builder of an advisory page accepts a row that fits and stops at one that does not. -/
lemma add_advisoryPages {b : SyncVulnerabilityPageBuilder} (hpaging : b.paging = .advisoryPages)
    (hrunning : b.stopped = false) (row : ScannedRow) :
    b.add row = if b.fits row then ((b.enterAdvisory row).accept row, true)
      else ((b.enterAdvisory row).stopAdvisoryPage, false) := by
  by_cases h : b.fits row = true <;> simp [add, hrunning, hpaging, h]

/-- A row is refused only on a page that holds something. -/
lemma page_ne_empty_of_not_fits {b : SyncVulnerabilityPageBuilder} {row : ScannedRow}
    (h : ¬b.fits row = true) : b.page.rows ≠ [] ∨ b.page.withoutAffected ≠ [] := by
  simp only [fits, Bool.or_eq_true, Bool.and_eq_true, List.isEmpty_iff, not_or, not_and_or] at h
  exact h.2

section Advisories

variable {b : SyncVulnerabilityPageBuilder} {done : List Advisory} {a : Advisory} {hasMore : Bool}

/-- The remaining rows of an advisory the builder is inside of: it takes them all, or stops. -/
lemma Inside.addAll (hnamed : done ≠ [] → lastID done ≠ "") {taken left : List SyncVulnerability}
    (hb : Inside b done a taken hasMore) (hrows : a.ordered = taken ++ left) (htaken : taken ≠ []) :
    Inside (b.addAll (left.map fun item => { item, hasMore })) done a a.ordered hasMore ∨
      StoppedAt (b.addAll (left.map fun item => { item, hasMore })) done a := by
  induction left generalizing b taken with
  | nil =>
    left
    rw [hrows, List.append_nil]
    exact hb
  | cons item rest ih =>
    have hid : item.id = a.id := Advisory.ordered_id (by rw [hrows]; simp)
    have hentered : Inside (b.enterAdvisory { item, hasMore }) done a taken hasMore :=
      hb.enterAdvisory hid rfl
    rw [List.map_cons, addAll_cons, add_advisoryPages hb.paging hb.running]
    by_cases hfits : b.fits { item, hasMore } = true
    · simp only [if_pos hfits, if_true]
      exact ih (hentered.accept hid rfl) (by simpa using hrows) (by simp)
    · simp only [if_neg hfits, Bool.false_eq_true, if_false]
      exact Or.inr (hentered.stopAdvisoryPage hnamed (Or.inr ⟨htaken, _, by simp, hrows⟩))

/-- The result rows of one advisory: the builder takes it whole, or stops at one of its rows. -/
lemma AtBoundary.addAll_scanned (hb : AtBoundary b done hasMore) (hnew : a.id ≠ lastID done)
    (hnamed : done ≠ [] → lastID done ≠ "") :
    AtBoundary (b.addAll (a.scanned hasMore)) (done ++ [a]) hasMore ∨
      StoppedAt (b.addAll (a.scanned hasMore)) done a := by
  have hdone (row : ScannedRow) (hfits : ¬b.fits row = true) : done ≠ [] := by
    rintro rfl
    have := page_ne_empty_of_not_fits hfits
    simp [hb.page, wholePage] at this
  unfold Advisory.scanned
  split_ifs with hrows
  · have hentered : Inside (b.enterAdvisory ⟨{ id := a.id }, true, hasMore⟩) done a [] hasMore :=
      hb.enterAdvisory hnew rfl rfl
    rw [addAll_cons, add_advisoryPages hb.paging hb.running]
    by_cases hfits : b.fits ⟨{ id := a.id }, true, hasMore⟩ = true
    · simp only [if_pos hfits, if_true]
      exact Or.inl (hentered.accept_marker rfl rfl hrows)
    · simp only [if_neg hfits, Bool.false_eq_true, if_false]
      exact Or.inr (hentered.stopAdvisoryPage hnamed (Or.inl (hdone _ hfits)))
  · obtain ⟨item, rest, hordered⟩ :=
      List.exists_cons_of_ne_nil (mt Advisory.ordered_eq_nil.mp hrows)
    have hid : item.id = a.id := Advisory.ordered_id (by rw [hordered]; simp)
    have hentered : Inside (b.enterAdvisory { item, hasMore }) done a [] hasMore :=
      hb.enterAdvisory hnew hid rfl
    change AtBoundary (b.addAll (a.ordered.map _)) _ _ ∨ StoppedAt (b.addAll (a.ordered.map _)) _ _
    rw [hordered, List.map_cons, addAll_cons, add_advisoryPages hb.paging hb.running]
    by_cases hfits : b.fits { item, hasMore } = true
    · simp only [if_pos hfits, if_true]
      exact ((hentered.accept hid rfl).addAll hnamed (by simpa using hordered) (by simp)).imp
        (fun h => h.atBoundary hrows) id
    · simp only [if_neg hfits, Bool.false_eq_true, if_false]
      exact Or.inr (hentered.stopAdvisoryPage hnamed (Or.inl (hdone _ hfits)))

end Advisories

/-! ## A whole query result -/

/-- A refused row stops the builder, and nothing else does. -/
lemma stopped_add {b : SyncVulnerabilityPageBuilder} (hrunning : b.stopped = false)
    (row : ScannedRow) : (b.add row).1.stopped = !(b.add row).2 := by
  have hstop (b' : SyncVulnerabilityPageBuilder) : b'.stopAdvisoryPage.stopped = true := by
    unfold stopAdvisoryPage
    split_ifs
    · rfl
    · cases b'.page.rows.getLast? <;> rfl
  have henter : (b.enterAdvisory row).stopped = false := by
    unfold enterAdvisory
    split_ifs <;> exact hrunning
  unfold add
  rw [if_neg (by simp [hrunning])]
  cases b.paging <;> dsimp only <;> split_ifs <;> simp [hstop, henter, accept, hrunning]

/-- A stopped builder ignores further rows. -/
lemma addAll_append_of_stopped {b : SyncVulnerabilityPageBuilder} (hrunning : b.stopped = false)
    {rows : List ScannedRow} (hstopped : (b.addAll rows).stopped = true) (rest : List ScannedRow) :
    b.addAll (rows ++ rest) = b.addAll rows := by
  induction rows generalizing b with
  | nil => simp [addAll, hrunning] at hstopped
  | cons row rows ih =>
    have hflag := stopped_add hrunning row
    rw [addAll_cons] at hstopped
    rw [List.cons_append, addAll_cons, addAll_cons]
    split_ifs at hstopped ⊢ with h
    · exact ih (by rw [hflag, h]; rfl) hstopped
    · rfl

/-- A builder that still runs goes on with further rows. -/
lemma addAll_append_of_running {b : SyncVulnerabilityPageBuilder} (hrunning : b.stopped = false)
    {rows : List ScannedRow} (hend : (b.addAll rows).stopped = false) (rest : List ScannedRow) :
    b.addAll (rows ++ rest) = (b.addAll rows).addAll rest := by
  induction rows generalizing b with
  | nil => rfl
  | cons row rows ih =>
    have hflag := stopped_add hrunning row
    rw [addAll_cons] at hend
    rw [List.cons_append, addAll_cons, addAll_cons]
    split_ifs at hend ⊢ with h
    · exact ih (by rw [hflag, h]; rfl) hend
    · rw [hflag] at hend
      simp [h] at hend

/-- The result rows of advisories with distinct ids: the builder takes them all, or stops at one of
them. -/
lemma AtBoundary.addAll {b : SyncVulnerabilityPageBuilder} {done : List Advisory} {hasMore : Bool}
    (hb : AtBoundary b done hasMore) {as : List Advisory}
    (hids : ((done ++ as).map Advisory.id).Nodup) (hnamed : ∀ a ∈ done ++ as, a.id ≠ "") :
    AtBoundary (b.addAll (as.flatMap (Advisory.scanned hasMore))) (done ++ as) hasMore ∨
      ∃ done' a rest, done ++ as = done' ++ a :: rest ∧
        StoppedAt (b.addAll (as.flatMap (Advisory.scanned hasMore))) done' a := by
  induction as generalizing b done with
  | nil =>
    left
    rw [List.append_nil]
    exact hb
  | cons a as ih =>
    have hlast (h : done ≠ []) : ∃ d ∈ done, lastID done = d.id := exists_mem_lastID h
    have hlastNamed (h : done ≠ []) : lastID done ≠ "" := by
      obtain ⟨d, hd, heq⟩ := hlast h
      rw [heq]
      exact hnamed d (by simp [hd])
    have hnew : a.id ≠ lastID done := by
      by_cases h : done = []
      · rw [h, lastID_nil]
        exact hnamed a (by simp)
      · obtain ⟨d, hd, heq⟩ := hlast h
        rw [heq]
        rw [List.map_append, List.nodup_append] at hids
        exact (hids.2.2 d.id (List.mem_map_of_mem hd) a.id (by simp)).symm
    rw [List.flatMap_cons]
    rcases hb.addAll_scanned hnew hlastNamed with hnext | hstop
    · rw [addAll_append_of_running hb.running hnext.running]
      have happend : done ++ a :: as = done ++ [a] ++ as := by simp
      rw [happend] at hids hnamed ⊢
      exact ih hnext hids hnamed
    · rw [addAll_append_of_stopped hb.running hstop.stopped]
      exact Or.inr ⟨done, a, as, rfl, hstop⟩

/-- The page of a builder that ran to the end of the query result. -/
lemma AtBoundary.finish {b : SyncVulnerabilityPageBuilder} {done : List Advisory} {hasMore : Bool}
    (hb : AtBoundary b done hasMore) : b.finish = wholePage done (!done.isEmpty && hasMore) "" := by
  unfold SyncVulnerabilityPageBuilder.finish
  simp [hb.paging, hb.running, hb.page, hb.sqlHasMore, wholePage]

/-- The page of a builder that stopped. -/
lemma StoppedAt.finish {b : SyncVulnerabilityPageBuilder} {done : List Advisory} {a : Advisory}
    (hb : StoppedAt b done a) : b.finish = b.page := by
  unfold SyncVulnerabilityPageBuilder.finish
  simp [hb.paging, hb.stopped]

end SyncVulnerabilityPageBuilder

/-! ## The advisories of a page -/

lemma Advisory.one_le_rowCount (a : Advisory) : 1 ≤ a.rowCount := le_max_left 1 a.rows.length

/-- Behind the first candidate nothing is taken any more once the count has passed the limit. -/
lemma pageVulnerabilities_eq_nil {limit position cumulative : ℕ} (hposition : position ≠ 1)
    (hfull : limit < cumulative) (hpositive : 0 < position) (as : List Advisory) :
    pageVulnerabilities limit position cumulative as = [] := by
  induction as generalizing position cumulative with
  | nil => rfl
  | cons a as ih =>
    have hcond : ¬(position = 1 ∨ cumulative + a.rowCount ≤ limit) := by omega
    rw [pageVulnerabilities, if_neg hcond]
    exact ih (by omega) (by omega) (by omega)

/-- The advisories of a page are an initial segment of the candidates, at most as many as the rows
the limit leaves. -/
lemma pageVulnerabilities_prefix (limit position cumulative : ℕ) (hposition : position ≠ 1)
    (hpositive : 0 < position) (as : List Advisory) :
    ∃ rest, as = pageVulnerabilities limit position cumulative as ++ rest ∧
      (pageVulnerabilities limit position cumulative as ≠ [] →
        cumulative + (pageVulnerabilities limit position cumulative as).length ≤ limit) := by
  induction as generalizing position cumulative with
  | nil => exact ⟨[], rfl, fun h => absurd rfl h⟩
  | cons a as ih =>
    have hcount := a.one_le_rowCount
    rw [pageVulnerabilities]
    by_cases hroom : cumulative + a.rowCount ≤ limit
    · rw [if_pos (Or.inr hroom)]
      obtain ⟨rest, hrest, hlength⟩ :=
        ih (position + 1) (cumulative + a.rowCount) (by omega) (by omega)
      refine ⟨rest, congrArg (a :: ·) hrest, fun _ => ?_⟩
      by_cases hnil : pageVulnerabilities limit (position + 1) (cumulative + a.rowCount) as = []
      · rw [hnil, List.length_singleton]
        omega
      · have := hlength hnil
        rw [List.length_cons]
        omega
    · have hcond : ¬(position = 1 ∨ cumulative + a.rowCount ≤ limit) := by omega
      rw [if_neg hcond, pageVulnerabilities_eq_nil (by omega) (by omega) (by omega)]
      exact ⟨a :: as, rfl, fun h => absurd rfl h⟩

/-- The first candidate is always taken, and no more than the limit. -/
lemma pageVulnerabilities_first {limit : ℕ} (hlimit : 0 < limit) (a : Advisory)
    (as : List Advisory) :
    ∃ page rest, pageVulnerabilities limit 1 0 (a :: as) = a :: page ∧ as = page ++ rest ∧
      page.length + 1 ≤ limit := by
  obtain ⟨rest, hrest, hlength⟩ :=
    pageVulnerabilities_prefix limit 2 (0 + a.rowCount) (by omega) (by omega) as
  refine ⟨_, rest, by rw [pageVulnerabilities, if_pos (Or.inl rfl)], hrest, ?_⟩
  by_cases hnil : pageVulnerabilities limit 2 (0 + a.rowCount) as = []
  · rw [hnil, List.length_nil]
    omega
  · have := hlength hnil
    have := a.one_le_rowCount
    omega

/-! ## The outcomes of a page -/

open SyncVulnerabilityPageBuilder in
/-- A page of a delta paged by advisories ends in one of the three ways, for every limit and every
byte budget. -/
theorem advisoryPage_outcome (budget : ℤ) {limit : ℕ} (hlimit : 0 < limit) (splitID : String)
    {changed : List Advisory} (hids : (changed.map Advisory.id).Nodup)
    (hnamed : ∀ a ∈ changed, a.id ≠ "") (afterID : Option String) :
    ∃ next, AdvisoryPageOutcome (behind Advisory.id afterID changed)
      ((newSyncVulnerabilityPageBuilder .advisoryPages limit splitID budget).addAll
        (exportSyncVulnerabilityAdvisoryPageQuery changed afterID limit)).finish next := by
  have hsorted := Keyset.pairwise_lt_behind hids afterID
  have hnamed' : ∀ a ∈ behind Advisory.id afterID changed, a.id ≠ "" := fun a ha =>
    hnamed a (Keyset.mem_behind.mp ha).1
  simp only [exportSyncVulnerabilityAdvisoryPageQuery, gt_iff_lt, hlimit, if_true]
  cases hcandidates : behind Advisory.id afterID changed with
  | nil =>
    exact ⟨none, .whole⟩
  | cons a as =>
    rw [hcandidates] at hsorted hnamed'
    rw [List.take_succ_cons]
    obtain ⟨page, rest, hpage, hrest, hlength⟩ :=
      pageVulnerabilities_first hlimit a (as.take limit)
    rw [hpage]
    have hall : a :: as = (a :: page) ++ (rest ++ as.drop limit) := by
      rw [List.cons_append, ← List.append_assoc, ← hrest, List.take_append_drop]
    -- the look-ahead candidate is on the page only when no candidate is left
    have hverdict : decide ((a :: page).length < (a :: as.take limit).length) = !rest.isEmpty := by
      rw [hrest]
      cases rest <;> simp
    rw [hverdict]
    have hids' : (([] ++ (a :: page)).map Advisory.id).Nodup := by
      rw [hall, List.pairwise_append] at hsorted
      exact List.pairwise_map.mpr (hsorted.1.imp ne_of_lt)
    have hnamed'' : ∀ x ∈ [] ++ (a :: page), x.id ≠ "" := fun x hx =>
      hnamed' x (by rw [hall]; exact List.mem_append_left _ hx)
    have hstart : AtBoundary (newSyncVulnerabilityPageBuilder .advisoryPages limit splitID budget)
        [] (!rest.isEmpty) := ⟨rfl, rfl, rfl, rfl, rfl⟩
    rcases hstart.addAll hids' hnamed'' with hend | ⟨done, x, left, hsplit, hstop⟩
    · rw [hend.finish]
      simp only [List.nil_append, List.isEmpty_cons, Bool.not_false, Bool.true_and]
      cases rest with
      | nil =>
        rw [List.append_nil] at hrest
        have hwhole : as = page := by
          rw [← hrest, List.take_of_length_le]
          have := congrArg List.length hrest
          rw [List.length_take] at this
          omega
        rw [hwhole]
        exact ⟨none, .whole⟩
      | cons r rest => exact ⟨_, .boundary hall (by simp) (by simp) (Or.inl rfl)⟩
    · rw [List.nil_append] at hsplit
      rw [hstop.finish]
      rcases hstop.page with ⟨hdone, hstopped⟩ | ⟨rfl, taken, last, left', hrows, hleft, hstopped⟩
      · rw [hstopped]
        have hrest' : a :: as = done ++ (x :: left ++ (rest ++ as.drop limit)) := by
          rw [hall, hsplit, List.append_assoc]
        exact ⟨_, .boundary hrest' hdone (by simp) (Or.inr rfl)⟩
      · rw [hstopped]
        rw [List.nil_append, List.cons.injEq] at hsplit
        exact ⟨_, .split rfl (by rw [hsplit.1]; exact hrows) hleft⟩

/-- No page of whole advisories, and no page that starts a split, asks for the completeness check. -/
lemma checkSplit_of_advisoryPage {candidates : List Advisory} {page : SyncVulnerabilityPage}
    {next : Option SyncPosition} (h : AdvisoryPageOutcome candidates page next)
    (unchanged : String → Bool) : page.checkSplit unchanged = page := by
  cases h <;> rfl

open SyncVulnerabilityPageBuilder in
/-- A page of a split advisory ends in one of the two ways, for every limit and every byte budget. -/
theorem splitPage_outcome (budget : ℤ) {limit : ℕ} (hlimit : 0 < limit) (current : List Advisory)
    (unchanged : String → Bool) (id ecosystem name : String) :
    ∃ next, SplitPageOutcome id
      (behind SyncVulnerability.rowKey (some [ecosystem, name]) (affectedRows current id))
      (unchanged id)
      (((newSyncVulnerabilityPageBuilder .advisorySplit limit id budget).addAll
        (exportSyncSplitAdvisoryQuery current id ecosystem name limit)).finish.checkSplit unchanged)
      next := by
  set rows := behind SyncVulnerability.rowKey (some [ecosystem, name]) (affectedRows current id)
  have hquery : exportSyncSplitAdvisoryQuery current id ecosystem name limit =
      (rows.take (limit + 1)).map fun item => { item } := by
    simp only [exportSyncSplitAdvisoryQuery, gt_iff_lt, hlimit, if_true, rows]
  rw [hquery]
  set b := newSyncVulnerabilityPageBuilder .advisorySplit limit id budget
  obtain ⟨taken, rest, hitems, h⟩ := exists_takesRows_map (b := b) rfl
    (by simp [b, newSyncVulnerabilityPageBuilder]) rfl (rows.take (limit + 1))
  set b' := b.addAll ((rows.take (limit + 1)).map fun item => { item })
  have hpage : b'.page = { rows := taken, lastAdvisoryID := b'.page.lastAdvisoryID } := h.page
  have hrows : b'.page.rows = taken := by rw [hpage]
  have hpaging : b'.paging = .advisorySplit := h.paging
  have hid : b'.splitID = id := h.splitID
  cases hstopped : b'.stopped with
  | true =>
    -- the page has a row, and the next page starts behind the last one
    obtain ⟨init, last, hlast⟩ := (List.eq_nil_or_concat' _).resolve_left (h.cut hstopped)
    have hget : b'.page.rows.getLast? = some last := by rw [hlast]; simp
    have hall : rows = init ++ last :: (rest ++ rows.drop (limit + 1)) := by
      conv_lhs => rw [← List.take_append_drop (limit + 1) rows, hitems, ← hrows, hlast]
      simp
    have hfinish : b'.finish = splitPage id init last b'.page.lastAdvisoryID := by
      unfold finish
      simp only [hpaging, hid, hget, hstopped, if_true]
      rw [hpage, splitPage, ← hlast, hrows]
    rw [hfinish]
    exact ⟨_, .inside hall⟩
  | false =>
    -- no more rows than the limit were taken, so the look-ahead row would have been seen
    have hbounded : b'.page.rows.length ≤ limit := h.bounded rfl hlimit (Nat.zero_le _)
    have hwhole : rows = taken := by
      rw [h.whole hstopped, List.append_nil] at hitems
      rw [← hitems, List.take_of_length_le]
      have := congrArg List.length hitems
      rw [List.length_take] at this
      rw [hrows] at hbounded
      omega
    have hfinish : b'.finish = splitLastPage id rows false := by
      unfold finish
      simp only [hpaging, hid, hstopped, Bool.false_eq_true, if_false]
      cases b'.page.rows.getLast? <;> rw [hpage, hwhole] <;> rfl
    rw [hfinish]
    exact ⟨_, .last⟩

end Packmon

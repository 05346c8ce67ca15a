import Packmon.Sync.Position
import Mathlib.Data.List.Perm.Basic

/-!
# A delta over a dataset that does not change

The pages of a delta, each at the cursor the one before handed out.  When the dataset does not change
meanwhile, the sequence ends, its pages hold every affected row exactly once, and they list every
advisory without affected rows exactly once.

The rows behind a position (`remainingRows`) are what is still to be delivered: a page takes an
initial segment of them (`VulnerabilityStep.remainingRows`), and the position weighs less behind
every page that continues (`VulnerabilityStep.weight_lt`).
-/

namespace Packmon

open Keyset (behind)

/-! ## What is left behind a position -/

/-- The affected rows a delta still has to deliver. -/
def remainingRows (as : List Advisory) : Option SyncPosition → List SyncVulnerability
  | some (.advisories after) => rowsOf (behind Advisory.id after as)
  | some (.inside id ecosystem name) =>
    behind SyncVulnerability.rowKey (some [ecosystem, name]) (affectedRows as id) ++
      rowsOf (behind Advisory.id (some id) as)
  | _ => []

/-- The advisories without affected rows a delta still has to list. -/
def remainingIDs (as : List Advisory) : Option SyncPosition → List String
  | some (.advisories after) => withoutRows (behind Advisory.id after as)
  | some (.inside id _ _) => withoutRows (behind Advisory.id (some id) as)
  | _ => []

/-- One for each advisory, and one for each affected row. -/
def advisoryWeight (as : List Advisory) : ℕ := (as.map fun a => 1 + a.ordered.length).sum

/-- How much a delta still has to do. -/
def weight (as : List Advisory) : Option SyncPosition → ℕ
  | some (.advisories after) => advisoryWeight (behind Advisory.id after as)
  | some (.inside id ecosystem name) =>
    1 + (behind SyncVulnerability.rowKey (some [ecosystem, name]) (affectedRows as id)).length +
      advisoryWeight (behind Advisory.id (some id) as)
  | _ => 0

@[simp] lemma advisoryWeight_cons (a : Advisory) (as : List Advisory) :
    advisoryWeight (a :: as) = 1 + a.ordered.length + advisoryWeight as := by
  simp [advisoryWeight]

@[simp] lemma advisoryWeight_append (as bs : List Advisory) :
    advisoryWeight (as ++ bs) = advisoryWeight as + advisoryWeight bs := by
  simp [advisoryWeight]

/-- The rows of the one advisory with the id. -/
lemma affectedRows_of_mem {as : List Advisory} (hids : (as.map Advisory.id).Nodup) {a : Advisory}
    (ha : a ∈ as) : affectedRows as a.id = a.rows := by
  have hfilter : as.filter (fun b => b.id = a.id) = [a] := by
    induction as with
    | nil => exact absurd ha (by simp)
    | cons b as ih =>
      rw [List.map_cons, List.nodup_cons] at hids
      have hnone (h : b.id = a.id) : as.filter (fun c => c.id = a.id) = [] := by
        refine List.filter_eq_nil_iff.mpr fun c hc hca => hids.1 ?_
        rw [h, ← of_decide_eq_true hca]
        exact List.mem_map_of_mem hc
      rcases List.mem_cons.mp ha with rfl | ha
      · rw [List.filter_cons_of_pos (by simp), hnone rfl]
      · have hne : ¬b.id = a.id := fun h => hids.1 (h ▸ List.mem_map_of_mem ha)
        rw [List.filter_cons_of_neg (by simpa using hne), ih hids.2 ha]
  rw [affectedRows, hfilter, List.flatMap_cons, List.flatMap_nil, List.append_nil]

/-- Behind whole advisories the others are left. -/
lemma behind_lastID {as done rest : List Advisory} (hids : (as.map Advisory.id).Nodup)
    {after : Option String} (hsplit : behind Advisory.id after as = done ++ rest)
    (hdone : done ≠ []) : behind Advisory.id (some (lastID done)) as = rest := by
  obtain ⟨init, a, rfl⟩ := (List.eq_nil_or_concat' done).resolve_left hdone
  have hmore : behind Advisory.id after as = init ++ a :: rest := by
    rw [hsplit, List.append_assoc, List.singleton_append]
  have hpage : Keyset.Page Advisory.id (behind Advisory.id after as) (init ++ [a]) (some a.id) :=
    .more hmore
  have happend := hpage.append_behind hids
  rw [hsplit] at happend
  rw [lastID_append_singleton]
  exact (List.append_cancel_left happend).symm

/-- Behind some rows of an advisory the others are left. -/
lemma behind_rowKey {rows taken left : List SyncVulnerability} {last : SyncVulnerability}
    (hkeys : (rows.map SyncVulnerability.rowKey).Nodup) {after : Option (List String)}
    (hsplit : behind SyncVulnerability.rowKey after rows = taken ++ last :: left) :
    behind SyncVulnerability.rowKey (some [last.ecosystem, last.name]) rows = left := by
  have hpage : Keyset.Page SyncVulnerability.rowKey (behind SyncVulnerability.rowKey after rows)
      (taken ++ [last]) (some last.rowKey) := .more hsplit
  have happend := hpage.append_behind hkeys
  rw [hsplit, List.append_cons] at happend
  exact (List.append_cancel_left happend).symm

lemma Advisory.behind_none (a : Advisory) :
    behind SyncVulnerability.rowKey none a.rows = a.ordered := by
  simp [behind, Advisory.ordered]

lemma affectedRows_nodup {as : List Advisory} (hids : (as.map Advisory.id).Nodup) (id : String) :
    ((affectedRows as id).map SyncVulnerability.rowKey).Nodup := by
  by_cases h : ∃ a ∈ as, a.id = id
  · obtain ⟨a, ha, rfl⟩ := h
    rw [affectedRows_of_mem hids ha]
    exact a.rows_nodup
  · have hnone : as.filter (fun a => a.id = id) = [] :=
      List.filter_eq_nil_iff.mpr fun a ha hid => h ⟨a, ha, of_decide_eq_true hid⟩
    simp [affectedRows, hnone]

/-! ## One page -/

section Page

variable {view : PageView} {as : List Advisory} {position : SyncPosition}
  {page : SyncVulnerabilityPage} {next : Option SyncPosition}

/-- A page holds the next rows and lists the next advisories without rows, and when it continues
less is left to do. -/
theorem VulnerabilityStep.remaining (hids : (as.map Advisory.id).Nodup)
    (hchanged : view.changed = as) (hcurrent : view.current = as)
    (hdelta : position.isDelta = true) (h : VulnerabilityStep view position page next) :
    remainingRows as (some position) = page.rows ++ remainingRows as next ∧
      remainingIDs as (some position) = page.withoutAffected ++ remainingIDs as next ∧
      (next ≠ none → weight as next < weight as (some position)) := by
  cases h with
  | rows h => cases hdelta
  | @advisories after page next h =>
    rw [hchanged] at h
    cases h with
    | whole => simp [remainingRows, remainingIDs, wholePage]
    | @boundary done rest nextCursor hsplit hdone hrest hcursor =>
      have hbehind := behind_lastID hids hsplit hdone
      refine ⟨?_, ?_, fun _ => ?_⟩
      · simp only [remainingRows, hbehind, hsplit, rowsOf_append, wholePage]
      · simp only [remainingIDs, hbehind, hsplit, withoutRows_append, wholePage]
      · obtain ⟨a, done, rfl⟩ := List.exists_cons_of_ne_nil hdone
        simp only [weight, hbehind, hsplit, advisoryWeight_append, advisoryWeight_cons]
        omega
    | @split a rest taken left last hfirst hrows hleft =>
      have hmem : a ∈ as := by
        have : a ∈ behind Advisory.id after as := by rw [hfirst]; simp
        exact (Keyset.mem_behind.mp this).1
      have hfirst' : behind Advisory.id after as = [a] ++ rest := hfirst
      have hbehind : behind Advisory.id (some a.id) as = rest := by
        rw [← lastID_append_singleton [] a]
        exact behind_lastID hids hfirst' (by simp)
      have hleft' : behind SyncVulnerability.rowKey (some [last.ecosystem, last.name])
          (affectedRows as a.id) = left := by
        rw [affectedRows_of_mem hids hmem]
        exact behind_rowKey a.rows_nodup (a.behind_none.trans hrows)
      have hne : a.rows ≠ [] := by
        intro hnil
        rw [Advisory.ordered_eq_nil.mpr hnil] at hrows
        simp at hrows
      refine ⟨?_, ?_, fun _ => ?_⟩
      · simp only [remainingRows, hfirst, hbehind, hleft', rowsOf_cons, hrows, splitStartPage]
        simp
      · simp only [remainingIDs, hfirst, hbehind, withoutRows_cons, if_neg hne, splitStartPage]
      · simp only [weight, hfirst, hbehind, hleft', advisoryWeight_cons, hrows,
          List.length_append, List.length_cons]
        omega
  | @inside id ecosystem name page next h =>
    rw [hcurrent] at h
    cases h with
    | @inside taken left last lastAdvisoryID hrows =>
      have hleft := behind_rowKey (affectedRows_nodup hids id) hrows
      refine ⟨?_, ?_, fun _ => ?_⟩
      · simp only [remainingRows, hrows, hleft, splitPage]
        simp
      · simp [remainingIDs, splitPage]
      · simp only [weight, hrows, hleft, List.length_append, List.length_cons]
        omega
    | last =>
      refine ⟨by simp [remainingRows, splitLastPage], by simp [remainingIDs, splitLastPage],
        fun _ => ?_⟩
      simp only [weight]
      omega

/-- The next position can be read back when the ids, ecosystems and names are not empty. -/
theorem VulnerabilityStep.readable (hview : view.Identified)
    (hchanged : ∀ a ∈ view.changed, ∀ row ∈ a.rows, row.Named)
    (hcurrent : ∀ a ∈ view.current, ∀ row ∈ a.rows, row.Named)
    (hreadable : position.Readable) (h : VulnerabilityStep view position page next)
    {q : SyncPosition} (hq : next = some q) : q.Readable := by
  cases h with
  | rows h =>
    cases h with
    | last => cases hq
    | more h =>
      cases hq
      exact rfl
  | advisories h =>
    cases h with
    | whole => cases hq
    | boundary hsplit hdone hrest hcursor =>
      cases hq
      exact hview.lastID_ne_empty hsplit hdone
    | @split a rest taken left last hfirst hrows hleft =>
      cases hq
      have hmem : a ∈ behind Advisory.id _ view.changed := hfirst ▸ List.mem_cons_self
      have hlast : last ∈ a.ordered := by rw [hrows]; simp
      have hnamed := hchanged a (Keyset.mem_behind.mp hmem).1 last (Advisory.mem_ordered.mp hlast)
      exact ⟨Advisory.ordered_id hlast ▸ hnamed.1, hnamed.2⟩
  | @inside id ecosystem name _ _ h =>
    cases h with
    | @inside taken left last lastAdvisoryID hrows =>
      cases hq
      have hlast : last ∈ affectedRows view.current id := by
        have : last ∈ behind SyncVulnerability.rowKey _ (affectedRows view.current id) :=
          hrows ▸ List.mem_append_right _ List.mem_cons_self
        exact (Keyset.mem_behind.mp this).1
      obtain ⟨a, ha, hrow⟩ := List.mem_flatMap.mp hlast
      exact ⟨hreadable.1, (hcurrent a (List.mem_filter.mp ha).1 last hrow).2⟩
    | last =>
      cases hq
      exact hreadable.1

end Page

/-! ## The other datasets -/

/-- How much a dataset paged by rows still has to do. -/
def rowWeight {T : Type} (key : T → List String) (rows : List T) :
    Option (Option (List String)) → ℕ
  | none => 0
  | some after => (behind key after rows).length

/-- Behind a page of rows that continues fewer rows are left. -/
lemma RowPageAt.rowWeight_lt {T : Type} {key : T → List String} {rows : List T}
    {page : SyncRowPage T} {p next : Option (Option (List String))}
    (h : RowPageAt key rows page next p) (hnext : next ≠ none) :
    rowWeight key rows next < rowWeight key rows p := by
  cases p with
  | none => exact absurd h.2 hnext
  | some after =>
    obtain ⟨k, hpage, -, rfl⟩ := h
    cases k with
    | none => exact absurd rfl hnext
    | some c => exact hpage.length_behind_lt

lemma RowPageAt.rowWeight_le {T : Type} {key : T → List String} {rows : List T}
    {page : SyncRowPage T} {p next : Option (Option (List String))}
    (h : RowPageAt key rows page next p) : rowWeight key rows next ≤ rowWeight key rows p := by
  cases next with
  | none => exact Nat.zero_le _
  | some after => exact le_of_lt (h.rowWeight_lt (by simp))

/-- How much a sequence still has to do. -/
def CursorPosition.weight (view : PageView) (p : CursorPosition) : ℕ :=
  Packmon.weight view.changed p.vulnerabilities +
    rowWeight SyncMalicious.key view.malicious p.malicious +
    rowWeight SyncReputationFinding.key view.reputation p.reputation +
    rowWeight SyncLifecycleRelease.key view.lifecycle p.lifecycle

/-! ## The sequence -/

/-- The pages of a sequence from a cursor on, while the dataset does not change; no result when they
do not end within the fuel. -/
def exportSyncPages (budgets : SyncPageBudgets) (view : PageView) (opts : SyncExportOptions)
    (snapshot : Time) (snapshotXID : ℕ) : ℕ → SyncCursor → Option (List SyncExport)
  | 0, _ => none
  | fuel + 1, cursor =>
    match exportSync budgets view { opts with cursor } snapshot snapshotXID with
    | .error _ => none
    | .ok page =>
      match page.nextCursor with
      | none => some [page]
      | some next =>
        (exportSyncPages budgets view opts snapshot snapshotXID fuel next).map (page :: ·)

/-- A dataset a delta reads on every page: distinct advisories, with ids, ecosystems and names that
are not empty. -/
structure PageView.Still (view : PageView) (as : List Advisory) : Prop where
  changed : view.changed = as
  current : view.current = as
  ids_nodup : (as.map Advisory.id).Nodup
  id_ne_empty : ∀ a ∈ as, a.id ≠ ""
  named : ∀ a ∈ as, ∀ row ∈ a.rows, row.Named

lemma PageView.Still.identified {view : PageView} {as : List Advisory} (h : view.Still as) :
    view.Identified := by
  refine ⟨?_, ?_⟩
  · rw [h.changed]
    exact h.ids_nodup
  · rw [h.changed]
    exact h.id_ne_empty

section Sequence

variable {view : PageView} {as : List Advisory} {p next : CursorPosition}
  {v : SyncVulnerabilityPage} {m : SyncRowPage SyncMalicious}
  {r : SyncRowPage SyncReputationFinding} {l : SyncRowPage SyncLifecycleRelease}

/-- The position of a delta. -/
def CursorPosition.IsDelta (p : CursorPosition) : Prop :=
  ∀ position ∈ p.vulnerabilities, position.isDelta = true

/-- The same accounting for a dataset that may be done. -/
lemma VulnerabilityPageAt.remaining (hview : view.Still as) {p next : Option SyncPosition}
    (hdelta : ∀ position ∈ p, position.isDelta = true) (h : VulnerabilityPageAt view v next p) :
    remainingRows as p = v.rows ++ remainingRows as next ∧
      remainingIDs as p = v.withoutAffected ++ remainingIDs as next ∧
      (next ≠ none → weight as next < weight as p) := by
  cases p with
  | none =>
    obtain ⟨rfl, rfl⟩ := h
    exact ⟨rfl, rfl, fun h => absurd rfl h⟩
  | some position =>
    exact VulnerabilityStep.remaining hview.ids_nodup hview.changed hview.current
      (hdelta position rfl) h

/-- A page that continues leaves less to do. -/
lemma PageStep.weight_lt (hview : view.Still as) (hdelta : p.IsDelta)
    (h : PageStep view p v m r l next) (hnext : next ≠ .done) :
    next.weight view < p.weight view := by
  have hv := (h.vulnerabilities.remaining hview hdelta).2.2
  have hv' : weight as next.vulnerabilities ≤ weight as p.vulnerabilities := by
    by_cases hnone : next.vulnerabilities = none
    · rw [hnone]
      exact Nat.zero_le _
    · exact le_of_lt (hv hnone)
  have hm' := h.malicious.rowWeight_le
  have hr' := h.reputation.rowWeight_le
  have hl' := h.lifecycle.rowWeight_le
  unfold CursorPosition.weight
  rw [hview.changed]
  -- one of the datasets continues, and that one gets lighter
  by_cases hvn : next.vulnerabilities = none
  · by_cases hmn : next.malicious = none
    · by_cases hrn : next.reputation = none
      · by_cases hln : next.lifecycle = none
        · refine absurd ?_ hnext
          cases next
          cases hvn; cases hmn; cases hrn; cases hln
          rfl
        · have := h.lifecycle.rowWeight_lt hln
          omega
      · have := h.reputation.rowWeight_lt hrn
        omega
    · have := h.malicious.rowWeight_lt hmn
      omega
  · have := hv hvn
    omega

/-- Withholding the reputation dataset leaves less to do, and the rest as it was. -/
lemma CursorPosition.weight_excluding_le (view : PageView) (p : CursorPosition) (exclude : Bool) :
    (p.excluding exclude).weight view ≤ p.weight view := by
  cases exclude with
  | false => exact le_refl _
  | true =>
    unfold CursorPosition.weight CursorPosition.excluding rowWeight
    simp

/-- The next position of a delta. -/
lemma PageStep.next_isDelta (hdelta : p.IsDelta) (h : PageStep view p v m r l next) :
    next.IsDelta := by
  intro q hq
  have hv := h.vulnerabilities
  cases hp : p.vulnerabilities with
  | none =>
    rw [hp] at hv
    rw [hv.2] at hq
    cases hq
  | some position =>
    rw [hp] at hv
    exact (VulnerabilityStep.isDelta hv hq).trans (hdelta position hp)

/-- The next position of a delta over named rows can be read back. -/
lemma PageStep.next_readable (hview : view.Still as) (hreadable : p.Readable)
    (h : PageStep view p v m r l next) : next.Readable := by
  intro q hq
  have hv := h.vulnerabilities
  cases hp : p.vulnerabilities with
  | none =>
    rw [hp] at hv
    rw [hv.2] at hq
    cases hq
  | some position =>
    rw [hp] at hv
    exact VulnerabilityStep.readable hview.identified (hview.changed ▸ hview.named)
      (hview.current ▸ hview.named) (hreadable position hp) hv hq

end Sequence

/-- From any position of a delta the sequence ends, and delivers exactly what is left there. -/
theorem exportSyncPages_from (budgets : SyncPageBudgets) {view : PageView} {as : List Advisory}
    (hview : view.Still as) {opts : SyncExportOptions} (hsince : opts.since.isSome = true)
    (hlimit : 0 < opts.limit) (hoffset : opts.offset = 0) (snapshot : Time) (snapshotXID : ℕ)
    (fuel : ℕ) {cursor : SyncCursor} {p : CursorPosition} (hat : cursor.At true p)
    (hdelta : p.IsDelta) (hreadable : p.Readable) (hfuel : p.weight view < fuel) :
    ∃ pages, exportSyncPages budgets view opts snapshot snapshotXID fuel cursor = some pages ∧
      pages.flatMap SyncExport.vulnerabilities = remainingRows as p.vulnerabilities ∧
      pages.flatMap SyncExport.vulnerabilitiesWithoutAffected =
        remainingIDs as p.vulnerabilities := by
  induction fuel generalizing cursor p with
  | zero => exact absurd hfuel (Nat.not_lt_zero _)
  | succ fuel ih =>
    have hat' : ({ opts with cursor } : SyncExportOptions).cursor.At opts.since.isSome p := by
      rw [hsince]
      exact hat
    obtain ⟨page, v, m, r, l, next, hpage, hstep, hholds, -, -, hnext⟩ := exportSync_step budgets
      hview.identified { opts with cursor } hlimit hoffset hat' hreadable snapshot snapshotXID
    have hdelta' : (p.excluding opts.excludeReputation).IsDelta := hdelta
    have hreadable' : (p.excluding opts.excludeReputation).Readable := hreadable
    obtain ⟨hrows, hids, -⟩ := hstep.vulnerabilities.remaining hview hdelta'
    change remainingRows as p.vulnerabilities = _ at hrows
    change remainingIDs as p.vulnerabilities = _ at hids
    unfold exportSyncPages
    rw [hpage]
    rcases hnext with ⟨hnone, rfl⟩ | ⟨c, hsome, hc, hne⟩
    · refine ⟨[page], by simp only [hnone], ?_, ?_⟩
      · rw [hrows]
        simp [hholds.vulnerabilities, remainingRows, CursorPosition.done]
      · rw [hids]
        simp [hholds.withoutAffected, remainingIDs, CursorPosition.done]
    · have hlt := hstep.weight_lt hview hdelta' hne
      have hle := p.weight_excluding_le view opts.excludeReputation
      have hc' : c.At true next := hsince ▸ hc
      obtain ⟨pages, hpages, hrows', hids'⟩ := ih hc' (hstep.next_isDelta hdelta')
        (hstep.next_readable hview hreadable') (by omega)
      refine ⟨page :: pages, by simp only [hsome, hpages]; rfl, ?_, ?_⟩
      · rw [List.flatMap_cons, hholds.vulnerabilities, hrows', hrows]
      · rw [List.flatMap_cons, hholds.withoutAffected, hids', hids]

/-- A paged delta is lossless and ends: for every limit and every byte budget the pages from the
empty cursor on hold every affected row exactly once, and list every advisory without affected rows
exactly once. -/
theorem exportSyncPages_lossless (budgets : SyncPageBudgets) {view : PageView} {as : List Advisory}
    (hview : view.Still as) {opts : SyncExportOptions} (hsince : opts.since.isSome = true)
    (hlimit : 0 < opts.limit) (hoffset : opts.offset = 0) (snapshot : Time) (snapshotXID : ℕ) :
    ∃ fuel pages, exportSyncPages budgets view opts snapshot snapshotXID fuel {} = some pages ∧
      (pages.flatMap SyncExport.vulnerabilities).Perm (as.flatMap Advisory.rows) ∧
      (pages.flatMap SyncExport.vulnerabilitiesWithoutAffected).Perm
        ((as.filter fun a => a.rows = []).map Advisory.id) := by
  have hstart : (CursorPosition.start true).IsDelta ∧ (CursorPosition.start true).Readable := by
    refine ⟨?_, ?_⟩
    · rintro position ⟨⟩
      rfl
    · rintro position ⟨⟩
      trivial
  obtain ⟨pages, hpages, hrows, hids⟩ := exportSyncPages_from budgets hview hsince hlimit hoffset
    snapshot snapshotXID ((CursorPosition.start true).weight view + 1) (SyncCursor.at_start true)
    hstart.1 hstart.2 (Nat.lt_succ_self _)
  have hperm : (behind Advisory.id none as).Perm as := by
    have := Keyset.perm_orderBy Advisory.id as
    simpa [behind] using this
  refine ⟨_, pages, hpages, ?_, ?_⟩
  · rw [hrows]
    exact hperm.flatMap fun a _ => Keyset.perm_orderBy _ _
  · rw [hids]
    exact (hperm.filter _).map _

/-- A delta of two advisories, one without affected rows, a row at a time. -/
theorem exportSyncPages_lossless_two :
    let left : SyncVulnerability := { id := "A", ecosystem := "npm", name := "left-pad" }
    let right : SyncVulnerability := { id := "A", ecosystem := "npm", name := "right-pad" }
    let a : Advisory := ⟨"A", [left, right], by simp [left, right], by decide⟩
    let b : Advisory := ⟨"B", [], by simp, by simp⟩
    ∃ fuel pages, exportSyncPages { vulnerabilities := 0 } { changed := [a, b], current := [a, b] }
        { since := some 7, limit := 1 } 9 3 fuel {} = some pages ∧
      (pages.flatMap SyncExport.vulnerabilities).Perm [left, right] ∧
      (pages.flatMap SyncExport.vulnerabilitiesWithoutAffected).Perm ["B"] := by
  intro left right a b
  have hstill : PageView.Still { changed := [a, b], current := [a, b] } [a, b] := by
    refine ⟨rfl, rfl, by decide, ?_, ?_⟩
    · simp [a, b]
    · simp [a, b, left, right, SyncVulnerability.Named]
  exact exportSyncPages_lossless { vulnerabilities := 0 } hstill rfl (by decide) rfl 9 3

end Packmon

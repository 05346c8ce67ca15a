import Packmon.Version.Semver

/-!
# The order of PEP 440

Normalized public versions and their order: by the epoch, the release, the pre-release, the
post-release and the development release (`Pep440.order`).  `comparePEP440` reads a written version as
one phase with one number (`parsePEP440_chars`): a post-release or a development release hides the
pre-release before it, and the numbers of a post-release and its development release are read as one.
-/

namespace Packmon.Version

open GoText Comparators

/-! ## Versions -/

/-- The kinds of pre-releases. -/
inductive PreName where
  | a
  | b
  | rc
  deriving DecidableEq

namespace PreName

def text : PreName → List Char
  | a => ['a']
  | b => ['b']
  | rc => ['r', 'c']

/-- The phase that the comparator gives to a pre-release. -/
def phase : PreName → ℤ
  | a => -4
  | b => -3
  | rc => -2

end PreName

/-- A normalized public version: an epoch, a release of one or more numbers of which `last` is the last
one, a pre-release, a post-release and a development release. -/
structure Pep440 where
  epoch : Option Digits
  front : List Digits
  last : Digits
  pre : Option (PreName × Digits)
  post : Option Digits
  dev : Option Digits

namespace Pep440

variable (v : Pep440)

def release : List Digits := v.front ++ [v.last]

def preChars : List Char := (v.pre.map fun p => p.1.text ++ p.2.chars).getD []

/-- What stands between the dots. -/
def segments : List (List Char) :=
  v.front.map Digits.chars ++ (v.last.chars ++ v.preChars) ::
    ((v.post.map fun d => "post".toList ++ d.chars).toList ++
      (v.dev.map fun d => "dev".toList ++ d.chars).toList)

/-- The version as it is written. -/
def chars : List Char := (v.epoch.map fun d => d.chars ++ ['!']).getD [] ++ dotted v.segments

/-! ## The order -/

/-- The rank and the number of the pre-release: before all of them is a development release of the
release itself, and behind all of them is a version without one. -/
def preKey : ℤ × ℕ :=
  match v.pre with
  | some (.a, d) => (1, d.value)
  | some (.b, d) => (2, d.value)
  | some (.rc, d) => (3, d.value)
  | none => if v.post.isNone ∧ v.dev.isSome then (0, 0) else (4, 0)

/-- A version comes before its post-releases. -/
def postKey : ℕ := (v.post.map fun d => d.value + 1).getD 0

/-- A version comes behind its development releases. -/
def devKey : ℤ × ℕ := (v.dev.map fun d => (0, d.value)).getD (1, 0)

end Pep440

/-- A rank, and a number where the ranks agree. -/
def compareNumbered {α β : Type} [Ord α] [Ord β] (a b : α × β) : Ordering :=
  (Ord.compare a.1 b.1).then (Ord.compare a.2 b.2)

namespace Pep440

/-- The order of the versions; trailing zeros of a release do not count. -/
def order (a b : Pep440) : Ordering :=
  (Ord.compare ((a.epoch.map Digits.value).getD 0) ((b.epoch.map Digits.value).getD 0)).then <|
    (padded Ord.compare 0 (a.release.map Digits.value) (b.release.map Digits.value)).then <|
      (compareNumbered a.preKey b.preKey).then <|
        (Ord.compare a.postKey b.postKey).then (compareNumbered a.devKey b.devKey)

/-! ## What is read -/

variable (v : Pep440)

/-- The phase that is read: that of the post-release, of the development release or of the pre-release,
whichever is there first. -/
def readPhase : ℤ :=
  if v.post.isSome then 1
  else if v.dev.isSome then -5
  else (v.pre.map fun p => p.1.phase).getD 0

/-- The digits that are read behind the phase: a post-release is read on to the end. -/
def readDigits : List Char :=
  match v.post, v.dev with
  | some d, some e => d.chars ++ e.chars
  | some d, none => d.chars
  | none, some e => e.chars
  | none, none => (v.pre.map fun p => p.2.chars).getD []

/-- The order that is read, in 64-bit arithmetic. -/
def readOrder (a b : Pep440) : Ordering :=
  (Ord.compare (wrap ((a.epoch.map Digits.value).getD 0)) (wrap ((b.epoch.map Digits.value).getD 0))).then <|
    (padded Ord.compare 0 (a.release.map fun d => wrap d.value) (b.release.map fun d => wrap d.value)).then <|
      (Ord.compare a.readPhase b.readPhase).then <|
        Ord.compare (wrap (Nat.ofDigitChars 10 a.readDigits 0)) (wrap (Nat.ofDigitChars 10 b.readDigits 0))

end Pep440

/-! ## Suffixes behind a dot -/

section Segments

variable {w : List Char}

/-- A text without a dot starts dotted segments when it starts the first one. -/
lemma isPrefixOf_dotted (hw : '.' ∉ w) (seg : List Char) (segs : List (List Char)) :
    w.isPrefixOf (dotted (seg :: segs)) = w.isPrefixOf seg := by
  cases segs with
  | nil => rw [dotted_singleton]
  | cons next segs =>
    rw [dotted_cons_cons, Bool.eq_iff_iff, List.isPrefixOf_iff_prefix, List.isPrefixOf_iff_prefix]
    constructor
    · intro h
      rcases List.prefix_or_prefix_of_prefix h (List.prefix_append seg _) with hle | ⟨rest, rfl⟩
      · exact hle
      · -- what would reach beyond the segment would have the dot
        rw [List.prefix_append_right_inj] at h
        cases rest with
        | nil => simp
        | cons c rest =>
          obtain rfl := (List.cons_prefix_cons.1 h).1
          exact absurd (by simp) hw
    · intro h
      exact h.trans (List.prefix_append seg _)

/-- The first dot is looked at after all others. -/
lemma lastIndex_dotted_cons (hw : '.' ∉ w) {seg : List Char} (hseg : '.' ∉ seg) (next : List Char)
    (segs : List (List Char)) :
    lastIndex ('.' :: w) (dotted (seg :: next :: segs)) =
      ((((lastIndex ('.' :: w) (dotted (next :: segs))).map (· + 1)).or
        (if w.isPrefixOf next then some 0 else none)).map (· + seg.length)) := by
  rw [dotted_cons_cons, lastIndex_append hseg, lastIndex, List.isPrefixOf_cons_cons, beq_self_eq_true,
    Bool.true_and, isPrefixOf_dotted hw]
  cases lastIndex ('.' :: w) (dotted (next :: segs)) with
  | none => rfl
  | some i => rfl

/-- No segment behind a dot starts with the text. -/
lemma lastIndex_dotted_eq_none (hw : '.' ∉ w) {segs : List (List Char)} (hsegs : ∀ seg ∈ segs, '.' ∉ seg)
    (h : ∀ seg ∈ segs.tail, w.isPrefixOf seg = false) : lastIndex ('.' :: w) (dotted segs) = none := by
  have hnone {cs : List Char} (hcs : '.' ∉ cs) : lastIndex ('.' :: w) cs = none := by
    have hpassed := lastIndex_append hcs w []
    rwa [List.append_nil] at hpassed
  induction segs with
  | nil => exact hnone (by simp [dotted])
  | cons seg segs ih =>
    cases segs with
    | nil => exact hnone (by simpa using hsegs)
    | cons next segs =>
      have htail := ih (fun s hs => hsegs s (List.mem_cons_of_mem seg hs))
        fun s hs => h s (List.mem_cons_of_mem next hs)
      rw [lastIndex_dotted_cons hw (hsegs seg List.mem_cons_self), htail, h next List.mem_cons_self]
      rfl

/-- The last segment that starts with the text. -/
lemma lastIndex_dotted_append (hw : '.' ∉ w) {front later : List (List Char)} {seg : List Char}
    (hfront : front ≠ []) (hsegs : ∀ s ∈ front ++ seg :: later, '.' ∉ s) (hseg : w.isPrefixOf seg = true)
    (hlater : ∀ s ∈ later, w.isPrefixOf s = false) :
    lastIndex ('.' :: w) (dotted (front ++ seg :: later)) = some (dotted front).length := by
  induction front with
  | nil => exact absurd rfl hfront
  | cons s front ih =>
    have hs : '.' ∉ s := hsegs s List.mem_cons_self
    cases front with
    | nil =>
      have hnone := @lastIndex_dotted_eq_none w hw (seg :: later)
        (fun s hs => hsegs s (List.mem_cons_of_mem _ hs)) hlater
      simp [lastIndex_dotted_cons hw hs, hnone, hseg]
    | cons t front =>
      have hrest := ih (by simp) fun x hx => hsegs x (List.mem_cons_of_mem s hx)
      rw [List.cons_append] at hrest
      rw [List.cons_append, List.cons_append, lastIndex_dotted_cons hw hs, hrest, dotted_cons_cons]
      simp only [Option.map_some, Option.some_or, List.length_append, List.length_cons]
      congr 1
      omega

end Segments

/-! ## Suffixes inside a segment -/

/-- The first word of the list that occurs behind a digit is cut off. -/
lemma splitInlineSuffix_found {seg word : List Char} {phase : ℤ} {before after : List (List Char × ℤ)}
    (hlist : inlineSuffixes = before ++ (word, phase) :: after) (hlower : seg.map toLowerChar = seg)
    (hbefore : ∀ suffix ∈ before, index suffix.1 seg = none) {idx : ℕ} (hindex : index word seg = some idx)
    (hdigit : (seg[idx - 1]?).any Char.isDigit = true) (hne : seg.take idx ≠ []) :
    splitInlineSuffix seg = (seg.take idx, phase, parseInt (seg.drop (idx + word.length))) := by
  rw [splitInlineSuffix, hlower, hlist, List.findSome?_append, List.findSome?_eq_none_iff.2]
  · simp only [Option.none_or, List.findSome?_cons, hindex, Option.bind_some, hdigit, not_true_eq_false,
      and_false, if_false, hne, Option.getD_some]
  · rintro ⟨name, p⟩ hsuffix
    have hname : index name seg = none := hbefore _ hsuffix
    simp only [hname, Option.bind_none]

/-- The words that mark a suffix inside a segment have a letter. -/
lemma splitInlineSuffix_digits (d : Digits) : splitInlineSuffix d.chars = (d.chars, 0, 0) := by
  have hletter : ∀ suffix ∈ inlineSuffixes, ∃ c ∈ suffix.1, c.isDigit = false := by
    intro suffix hsuffix
    have hany : (inlineSuffixes.all fun suffix => suffix.1.any fun c => !c.isDigit) = true := by decide
    simpa using List.all_eq_true.1 hany suffix hsuffix
  rw [splitInlineSuffix, d.map_toLowerChar, List.findSome?_eq_none_iff.2]
  · rfl
  · rintro ⟨name, p⟩ hsuffix
    obtain ⟨c, hc, hdigit⟩ := hletter _ hsuffix
    have hname : index name d.chars = none :=
      index_eq_none_of_not_mem hc fun hmem => by simp [d.isDigit c hmem] at hdigit
    simp only [hname, Option.bind_none]

namespace PreName

/-- The words that are looked for before the name, each with a letter that the name does not have. -/
lemma exists_inlineSuffixes (name : PreName) : ∃ before after,
    inlineSuffixes = before ++ (name.text, name.phase) :: after ∧
      ∀ suffix ∈ before, ∃ c ∈ suffix.1, c.isDigit = false ∧ c ∉ name.text := by
  refine ⟨inlineSuffixes.takeWhile (·.1 ≠ name.text), (inlineSuffixes.dropWhile (·.1 ≠ name.text)).tail,
    by cases name <;> decide, ?_⟩
  intro suffix hsuffix
  have hany : ((inlineSuffixes.takeWhile (·.1 ≠ name.text)).all fun suffix =>
      suffix.1.any fun c => !c.isDigit && !name.text.contains c) = true := by
    cases name <;> decide
  simpa using List.all_eq_true.1 hany suffix hsuffix

lemma exists_text (name : PreName) : ∃ c w, name.text = c :: w ∧ c.isDigit = false := by
  cases name with
  | a => exact ⟨_, _, rfl, rfl⟩
  | b => exact ⟨_, _, rfl, rfl⟩
  | rc => exact ⟨_, _, rfl, rfl⟩

end PreName

/-- A pre-release behind a number. -/
lemma splitInlineSuffix_pre (d : Digits) (name : PreName) (n : Digits) :
    splitInlineSuffix (d.chars ++ (name.text ++ n.chars)) = (d.chars, name.phase, wrap n.value) := by
  obtain ⟨before, after, hlist, hbefore⟩ := name.exists_inlineSuffixes
  obtain ⟨first, word, htext, hfirst⟩ := name.exists_text
  have hlower : (d.chars ++ (name.text ++ n.chars)).map toLowerChar =
      d.chars ++ (name.text ++ n.chars) := by
    have hname : name.text.map toLowerChar = name.text := by cases name <;> decide
    rw [List.map_append, List.map_append, d.map_toLowerChar, n.map_toLowerChar, hname]
  have hnone : ∀ suffix ∈ before, index suffix.1 (d.chars ++ (name.text ++ n.chars)) = none := by
    intro suffix hsuffix
    obtain ⟨c, hc, hdigit, hname⟩ := hbefore suffix hsuffix
    refine index_eq_none_of_not_mem hc fun hmem => ?_
    simp only [List.mem_append, hname, false_or] at hmem
    rcases hmem with hmem | hmem
    · simp [d.isDigit c hmem] at hdigit
    · simp [n.isDigit c hmem] at hdigit
  have hindex : index name.text (d.chars ++ (name.text ++ n.chars)) = some d.chars.length := by
    have hmem : first ∉ d.chars := fun hmem => by simp [d.isDigit first hmem] at hfirst
    have hhead : (first :: word).isPrefixOf (first :: (word ++ n.chars)) = true :=
      List.isPrefixOf_iff_prefix.2 (List.prefix_append (first :: word) n.chars)
    rw [htext, index_append hmem, List.cons_append, index, if_pos hhead]
    simp
  have hlength : 0 < d.chars.length := List.length_pos_of_ne_nil d.ne_nil
  have hdigit : ((d.chars ++ (name.text ++ n.chars))[d.chars.length - 1]?).any Char.isDigit = true := by
    rw [List.getElem?_append_left (by omega), List.getElem?_eq_getElem (by omega), Option.any_some]
    exact d.isDigit _ (List.getElem_mem _)
  rw [splitInlineSuffix_found hlist hlower hnone hindex hdigit (by simp [d.ne_nil]), List.take_left,
    ← List.append_assoc, ← List.length_append, List.drop_left, n.parseInt_chars]

/-! ## Taking a version apart -/

namespace Pep440

variable (v : Pep440)

/-- The segments of the release, the last one with the pre-release. -/
def releaseSegments : List (List Char) := v.front.map Digits.chars ++ [v.last.chars ++ v.preChars]

/-- The segments behind the release. -/
def suffixSegments : List (List Char) :=
  (v.post.map fun d => "post".toList ++ d.chars).toList ++
    (v.dev.map fun d => "dev".toList ++ d.chars).toList

lemma segments_eq : v.segments = v.releaseSegments ++ v.suffixSegments := by
  simp [segments, releaseSegments, suffixSegments]

lemma releaseSegments_ne_nil : v.releaseSegments ≠ [] := by simp [releaseSegments]

/-- The characters behind the last number of a release are letters and digits. -/
lemma isLower_or_isDigit_of_mem_preChars {c : Char} (h : c ∈ v.preChars) :
    c.isLower = true ∨ c.isDigit = true := by
  rw [preChars] at h
  cases hpre : v.pre with
  | none => simp [hpre] at h
  | some p =>
    obtain ⟨name, d⟩ := p
    simp only [hpre, Option.map_some, Option.getD_some, List.mem_append] at h
    rcases h with h | h
    · left
      have hall : name.text.all Char.isLower = true := by cases name <;> decide
      exact List.all_eq_true.1 hall c h
    · exact .inr (d.isDigit c h)

lemma head_preChars : ∀ c ∈ v.preChars.head?, c.isDigit = false := by
  rw [preChars]
  cases v.pre with
  | none => simp
  | some p =>
    obtain ⟨name, d⟩ := p
    cases name <;> simp [PreName.text]

/-- A segment is letters and digits. -/
lemma isLower_or_isDigit_of_mem_segment {seg : List Char} (hseg : seg ∈ v.segments) {c : Char}
    (hc : c ∈ seg) : c.isLower = true ∨ c.isDigit = true := by
  have hword (word : List Char) (hword : word.all Char.isLower = true) (d : Digits)
      (h : c ∈ word ++ d.chars) : c.isLower = true ∨ c.isDigit = true := by
    rcases List.mem_append.1 h with h | h
    · exact .inl (List.all_eq_true.1 hword c h)
    · exact .inr (d.isDigit c h)
  simp only [segments, List.mem_append, List.mem_cons, List.mem_map, Option.mem_toList,
    Option.map_eq_some_iff] at hseg
  rcases hseg with ⟨d, -, rfl⟩ | rfl | ⟨d, -, rfl⟩ | ⟨d, -, rfl⟩
  · exact .inr (d.isDigit c hc)
  · rcases List.mem_append.1 hc with h | h
    · exact .inr (v.last.isDigit c h)
    · exact v.isLower_or_isDigit_of_mem_preChars h
  · exact hword _ (by decide) d hc
  · exact hword _ (by decide) d hc

lemma dot_not_mem_segment {seg : List Char} (hseg : seg ∈ v.segments) : '.' ∉ seg := by
  intro h
  rcases v.isLower_or_isDigit_of_mem_segment hseg h with h | h <;> cases h

/-- The numbers of the release are read, whatever letters follow the last one. -/
lemma map_parseLeadingInt_splitOn {rest : List Char} (hhead : ∀ c ∈ rest.head?, c.isDigit = false)
    (hdot : '.' ∉ rest) :
    (((dotted (v.front.map Digits.chars ++ [v.last.chars ++ rest])).splitOn '.').filter (· ≠ [])).map
      parseLeadingInt = v.release.map fun d => wrap d.value := by
  have hsplit : (dotted (v.front.map Digits.chars ++ [v.last.chars ++ rest])).splitOn '.' =
      v.front.map Digits.chars ++ [v.last.chars ++ rest] := by
    refine splitOn_dotted (by simp) fun part hpart => ?_
    rcases List.mem_append.1 hpart with h | h
    · obtain ⟨d, -, rfl⟩ := List.mem_map.1 h
      exact d.dot_not_mem
    · obtain rfl := List.mem_singleton.1 h
      simp [v.last.dot_not_mem, hdot]
  have hfilter : (v.front.map Digits.chars ++ [v.last.chars ++ rest]).filter (· ≠ []) =
      v.front.map Digits.chars ++ [v.last.chars ++ rest] := by
    refine List.filter_eq_self.2 fun part hpart => ?_
    rcases List.mem_append.1 hpart with h | h
    · obtain ⟨d, -, rfl⟩ := List.mem_map.1 h
      simp [d.ne_nil]
    · obtain rfl := List.mem_singleton.1 h
      simp [v.last.ne_nil]
  have hfront : v.front.map (parseLeadingInt ∘ Digits.chars) = v.front.map fun d => wrap d.value :=
    List.map_congr_left fun d _ => d.parseLeadingInt_chars
  rw [hsplit, hfilter, List.map_append, List.map_map, hfront, List.map_singleton,
    v.last.parseLeadingInt_append hhead, release, List.map_append, List.map_singleton]

private lemma isPrefixOf_cons_of_ne {c d : Char} (h : c ≠ d) (w cs : List Char) :
    (c :: w).isPrefixOf (d :: cs) = false := by
  simp [List.isPrefixOf_cons_cons, h]

/-- A suffix that no segment behind the release starts with is not found. -/
lemma lastIndex_segments_eq_none {c : Char} {w : List Char} (hw : '.' ∉ c :: w) (hc : c.isDigit = false)
    (hsuffix : ∀ seg ∈ v.suffixSegments, (c :: w).isPrefixOf seg = false) :
    lastIndex ('.' :: c :: w) (dotted v.segments) = none := by
  have hdigits (d : Digits) (rest : List Char) : (c :: w).isPrefixOf (d.chars ++ rest) = false := by
    obtain ⟨e, es, he⟩ := List.exists_cons_of_ne_nil d.ne_nil
    have hdigit := d.isDigit e (by simp [he])
    have hne : c ≠ e := fun heq => by simp [heq, hdigit] at hc
    rw [he, List.cons_append, isPrefixOf_cons_of_ne hne]
  refine lastIndex_dotted_eq_none hw (fun seg hseg => v.dot_not_mem_segment hseg) fun seg hseg => ?_
  have hmem := List.mem_of_mem_tail hseg
  rw [segments_eq, List.mem_append] at hmem
  rcases hmem with hmem | hmem
  · simp only [releaseSegments, List.mem_append, List.mem_map, List.mem_singleton] at hmem
    rcases hmem with ⟨d, -, rfl⟩ | rfl
    · simpa using hdigits d []
    · exact hdigits v.last v.preChars
  · exact hsuffix seg hmem

/-- The first segment behind the release is found by its word and cut off with all that follows. -/
lemma cut_suffix {w rest : List Char} {later : List (List Char)} (hw : '.' ∉ w)
    (hsuffix : v.suffixSegments = (w ++ rest) :: later)
    (hlater : ∀ seg ∈ later, w.isPrefixOf seg = false) :
    lastIndex ('.' :: w) (dotted v.segments) = some (dotted v.releaseSegments).length ∧
      (dotted v.segments).take (dotted v.releaseSegments).length = dotted v.releaseSegments ∧
      (dotted v.segments).drop ((dotted v.releaseSegments).length + (w.length + 1)) =
        dotted (rest :: later) := by
  have hsegments : v.segments = v.releaseSegments ++ (w ++ rest) :: later := by
    rw [segments_eq, hsuffix]
  have hprefixed : w.isPrefixOf (w ++ rest) = true :=
    List.isPrefixOf_iff_prefix.2 (List.prefix_append w rest)
  have hword : dotted ((w ++ rest) :: later) = w ++ dotted (rest :: later) := by
    cases later with
    | nil => simp
    | cons next later => simp [dotted_cons_cons]
  refine ⟨?_, ?_, ?_⟩
  · rw [hsegments]
    refine lastIndex_dotted_append hw v.releaseSegments_ne_nil ?_ hprefixed hlater
    rw [← hsegments]
    exact fun seg hseg => v.dot_not_mem_segment hseg
  · rw [hsegments, dotted_append v.releaseSegments_ne_nil (by simp)]
    exact List.take_left
  · rw [hsegments, dotted_append v.releaseSegments_ne_nil (by simp), ← List.drop_drop, List.drop_left,
      List.drop_succ_cons, hword, List.drop_left]

lemma isPrefixOf_suffixSegment {c : Char} {w seg : List Char} (hp : v.post = none ∨ c ≠ 'p')
    (hd : v.dev = none ∨ c ≠ 'd') (hseg : seg ∈ v.suffixSegments) : (c :: w).isPrefixOf seg = false := by
  simp only [suffixSegments, List.mem_append, Option.mem_toList, Option.map_eq_some_iff] at hseg
  rcases hseg with ⟨d, hpost, rfl⟩ | ⟨d, hdev, rfl⟩
  · exact isPrefixOf_cons_of_ne (hp.resolve_left (by simp [hpost])) _ _
  · exact isPrefixOf_cons_of_ne (hd.resolve_left (by simp [hdev])) _ _

lemma splitPEP440Suffix_post {d : Digits} (h : v.post = some d) :
    splitPEP440Suffix (dotted v.segments) =
      (dotted v.releaseSegments, 1, wrap (Nat.ofDigitChars 10 v.readDigits 0)) := by
  have hnone {c : Char} {w : List Char} (hw : '.' ∉ c :: w) (hc : c.isDigit = false) (hp : c ≠ 'p')
      (hd : c ≠ 'd') : lastIndex ('.' :: c :: w) (dotted v.segments) = none :=
    v.lastIndex_segments_eq_none hw hc fun _ hseg => v.isPrefixOf_suffixSegment (.inr hp) (.inr hd) hseg
  have halpha : lastIndex ".alpha".toList (dotted v.segments) = none :=
    hnone (by decide) (by decide) (by decide) (by decide)
  have hbeta : lastIndex ".beta".toList (dotted v.segments) = none :=
    hnone (by decide) (by decide) (by decide) (by decide)
  have hsuffix : v.suffixSegments =
      ("post".toList ++ d.chars) :: (v.dev.map fun d => "dev".toList ++ d.chars).toList := by
    simp [suffixSegments, h]
  have hlater : ∀ seg ∈ (v.dev.map fun d => "dev".toList ++ d.chars).toList,
      "post".toList.isPrefixOf seg = false := by
    intro seg hseg
    simp only [Option.mem_toList, Option.map_eq_some_iff] at hseg
    obtain ⟨e, -, rfl⟩ := hseg
    rfl
  obtain ⟨hindex, htake, hdrop⟩ := v.cut_suffix (by decide) hsuffix hlater
  have hdigits : (dotted (d.chars :: (v.dev.map fun d => "dev".toList ++ d.chars).toList)).filter
      Char.isDigit = v.readDigits := by
    rw [readDigits, h]
    cases v.dev with
    | none => simpa using d.isDigit
    | some e =>
      have hd : d.chars.filter Char.isDigit = d.chars := List.filter_eq_self.2 d.isDigit
      have he : e.chars.filter Char.isDigit = e.chars := List.filter_eq_self.2 e.isDigit
      simp only [Option.map_some, Option.toList_some, dotted_cons_cons, dotted_singleton,
        List.filter_append, hd]
      simp [he]
  have hpost : lastIndex ".post".toList (dotted v.segments) = some (dotted v.releaseSegments).length :=
    hindex
  have hrest : (dotted v.segments).drop ((dotted v.releaseSegments).length + ".post".toList.length) =
      dotted (d.chars :: (v.dev.map fun d => "dev".toList ++ d.chars).toList) := hdrop
  simp only [splitPEP440Suffix, pep440DotSuffixes, List.findSome?_cons, halpha, hbeta, hpost,
    Option.map_none, Option.map_some, htake, hrest, parseInt_eq, hdigits]

lemma splitPEP440Suffix_dev {e : Digits} (hpost : v.post = none) (h : v.dev = some e) :
    splitPEP440Suffix (dotted v.segments) =
      (dotted v.releaseSegments, -5, wrap (Nat.ofDigitChars 10 v.readDigits 0)) := by
  have hnone {c : Char} {w : List Char} (hw : '.' ∉ c :: w) (hc : c.isDigit = false) (hd : c ≠ 'd') :
      lastIndex ('.' :: c :: w) (dotted v.segments) = none :=
    v.lastIndex_segments_eq_none hw hc fun _ hseg => v.isPrefixOf_suffixSegment (.inl hpost) (.inr hd) hseg
  have halpha : lastIndex ".alpha".toList (dotted v.segments) = none :=
    hnone (by decide) (by decide) (by decide)
  have hbeta : lastIndex ".beta".toList (dotted v.segments) = none :=
    hnone (by decide) (by decide) (by decide)
  have hpostIndex : lastIndex ".post".toList (dotted v.segments) = none :=
    hnone (by decide) (by decide) (by decide)
  have hsuffix : v.suffixSegments = ("dev".toList ++ e.chars) :: [] := by
    simp [suffixSegments, hpost, h]
  obtain ⟨hindex, htake, hdrop⟩ := v.cut_suffix (by decide) hsuffix (by simp)
  have hdev : lastIndex ".dev".toList (dotted v.segments) = some (dotted v.releaseSegments).length :=
    hindex
  have hrest : (dotted v.segments).drop ((dotted v.releaseSegments).length + ".dev".toList.length) =
      e.chars := hdrop.trans (dotted_singleton e.chars)
  have hdigits : e.chars.filter Char.isDigit = v.readDigits := by
    rw [readDigits, hpost, h]
    exact List.filter_eq_self.2 e.isDigit
  simp only [splitPEP440Suffix, pep440DotSuffixes, List.findSome?_cons, halpha, hbeta, hpostIndex, hdev,
    Option.map_none, Option.map_some, htake, hrest, parseInt_eq, hdigits]

/-- The last segment of the release with the pre-release. -/
lemma splitInlineSuffix_last (hpost : v.post = none) (hdev : v.dev = none) :
    splitInlineSuffix (v.last.chars ++ v.preChars) =
      (v.last.chars, v.readPhase, wrap (Nat.ofDigitChars 10 v.readDigits 0)) := by
  rw [preChars, readPhase, readDigits, hpost, hdev]
  cases v.pre with
  | none =>
    simp only [Option.map_none, Option.getD_none, List.append_nil, splitInlineSuffix_digits,
      Nat.ofDigitChars_nil, wrap_zero, Option.isSome_none, Bool.false_eq_true, if_false]
  | some p =>
    obtain ⟨name, n⟩ := p
    simp only [Option.map_some, Option.getD_some, splitInlineSuffix_pre, Option.isSome_none,
      Bool.false_eq_true, if_false, Digits.value]

/-- Only a version without a pre-release has the phase 0. -/
lemma pre_eq_none (hpost : v.post = none) (hdev : v.dev = none) (hphase : v.readPhase = 0) :
    v.pre = none := by
  rw [readPhase, hpost, hdev] at hphase
  cases hpre : v.pre with
  | none => rfl
  | some p =>
    obtain ⟨name, n⟩ := p
    cases name <;> simp [hpre, PreName.phase] at hphase

/-- Without anything behind the release, its last segment is looked at. -/
lemma splitPEP440Suffix_release (hpost : v.post = none) (hdev : v.dev = none) :
    splitPEP440Suffix (dotted v.segments) =
      (dotted (v.release.map Digits.chars), v.readPhase, wrap (Nat.ofDigitChars 10 v.readDigits 0)) := by
  have hsuffix : v.suffixSegments = [] := by simp [suffixSegments, hpost, hdev]
  have hsegments : v.segments = v.releaseSegments := by rw [segments_eq, hsuffix, List.append_nil]
  have hshape : ∀ suffix ∈ pep440DotSuffixes, ∃ c w, suffix.1 = '.' :: c :: w ∧
      c.isDigit = false ∧ '.' ∉ c :: w := by
    intro suffix hsuffix
    have hall : ∀ suffix ∈ pep440DotSuffixes, suffix.1.head? = some '.' ∧ suffix.1.tail ≠ [] ∧
        suffix.1.tail.head?.all (fun c => !c.isDigit) ∧ '.' ∉ suffix.1.tail := by
      decide
    obtain ⟨hhead, hne, hdigit, hdot⟩ := hall suffix hsuffix
    obtain ⟨c, w, htail⟩ := List.exists_cons_of_ne_nil hne
    rw [htail] at hdigit hdot
    exact ⟨c, w, by rw [← htail, List.cons_head?_tail hhead], by simpa using hdigit, hdot⟩
  have hnone : ∀ suffix ∈ pep440DotSuffixes, lastIndex suffix.1 (dotted v.segments) = none := by
    intro suffix hmem
    obtain ⟨c, w, heq, hc, hdot⟩ := hshape suffix hmem
    rw [heq]
    exact v.lastIndex_segments_eq_none hdot hc (by simp [hsuffix])
  have hinline := v.splitInlineSuffix_last hpost hdev
  have hplain (hphase : v.readPhase = 0) : dotted v.segments = dotted (v.release.map Digits.chars) ∧
      v.last.chars = v.last.chars ++ v.preChars ∧ wrap (Nat.ofDigitChars 10 v.readDigits 0) = 0 := by
    have hpre := v.pre_eq_none hpost hdev hphase
    have hchars : v.preChars = [] := by rw [preChars, hpre]; rfl
    refine ⟨?_, ?_, ?_⟩
    · simp [hsegments, releaseSegments, release, hchars]
    · rw [hchars, List.append_nil]
    · rw [readDigits, hpost, hdev, hpre]
      exact wrap_zero
  rw [splitPEP440Suffix, List.findSome?_eq_none_iff.2]
  · by_cases hfront : v.front = []
    · have htext : dotted v.segments = v.last.chars ++ v.preChars := by
        simp [hsegments, releaseSegments, hfront]
      have hlast : lastIndex ['.'] (v.last.chars ++ v.preChars) = none := by
        rw [← htext]
        refine lastIndex_dotted_eq_none (by simp) (fun seg hseg => v.dot_not_mem_segment hseg) ?_
        simp [hsegments, releaseSegments, hfront]
      have hrelease : dotted (v.release.map Digits.chars) = v.last.chars := by simp [release, hfront]
      simp only [htext, hlast, hinline]
      by_cases hphase : v.readPhase = 0
      · obtain ⟨-, hchars, hzero⟩ := hplain hphase
        rw [if_neg (by simp [hphase, ← hchars]), hphase, hzero, hrelease, ← hchars]
      · rw [if_pos (.inl hphase), if_neg (by simp), hrelease]
    · have hne : v.front.map Digits.chars ≠ [] := by simpa using hfront
      have hlist : v.segments = v.front.map Digits.chars ++ [v.last.chars ++ v.preChars] := hsegments
      have htext : dotted v.segments =
          dotted (v.front.map Digits.chars) ++ '.' :: (v.last.chars ++ v.preChars) := by
        rw [hlist, dotted_append hne (by simp), dotted_singleton]
      have hlast : lastIndex ['.'] (dotted v.segments) =
          some (dotted (v.front.map Digits.chars)).length := by
        rw [hlist]
        refine lastIndex_dotted_append (by simp) hne ?_ rfl (by simp)
        rw [← hlist]
        exact fun seg hseg => v.dot_not_mem_segment hseg
      have htake : (dotted v.segments).take (dotted (v.front.map Digits.chars)).length =
          dotted (v.front.map Digits.chars) := by
        rw [htext, List.take_left]
      have hdrop : (dotted v.segments).drop ((dotted (v.front.map Digits.chars)).length + 1) =
          v.last.chars ++ v.preChars := by
        rw [htext, ← List.drop_drop, List.drop_left, List.drop_one, List.tail_cons]
      have hdotted : dotted (v.front.map Digits.chars) ≠ [] := by
        refine dotted_ne_nil hne fun part hpart => ?_
        obtain ⟨d, -, rfl⟩ := List.mem_map.1 hpart
        exact d.ne_nil
      have hrelease : dotted (v.release.map Digits.chars) =
          dotted (v.front.map Digits.chars) ++ '.' :: v.last.chars := by
        rw [release, List.map_append, List.map_singleton, dotted_append hne (by simp), dotted_singleton]
      simp only [hlast, htake, hdrop, hinline]
      by_cases hphase : v.readPhase = 0
      · obtain ⟨hsame, hchars, hzero⟩ := hplain hphase
        rw [if_neg (by simp [hphase, ← hchars]), hphase, hzero, hsame]
      · rw [if_pos (.inl hphase), if_pos hdotted, hrelease]
  · rintro ⟨suffix, p⟩ hmem
    have hindex : lastIndex suffix (dotted v.segments) = none := hnone _ hmem
    simp only [hindex, Option.map_none]

/-- What is read of a version behind its epoch. -/
lemma splitPEP440Suffix_segments : ∃ rest : List Char, (∀ c ∈ rest.head?, c.isDigit = false) ∧ '.' ∉ rest ∧
    splitPEP440Suffix (dotted v.segments) =
      (dotted (v.front.map Digits.chars ++ [v.last.chars ++ rest]), v.readPhase,
        wrap (Nat.ofDigitChars 10 v.readDigits 0)) := by
  have hdot : '.' ∉ v.preChars := fun h => by
    rcases v.isLower_or_isDigit_of_mem_preChars h with h | h <;> cases h
  cases hpost : v.post with
  | some d =>
    refine ⟨v.preChars, v.head_preChars, hdot, ?_⟩
    rw [v.splitPEP440Suffix_post hpost, readPhase, hpost]
    rfl
  | none =>
    cases hdev : v.dev with
    | some e =>
      refine ⟨v.preChars, v.head_preChars, hdot, ?_⟩
      rw [v.splitPEP440Suffix_dev hpost hdev, readPhase, hpost, hdev]
      rfl
    | none =>
      refine ⟨[], by simp, by simp, ?_⟩
      rw [v.splitPEP440Suffix_release hpost hdev, List.append_nil, release, List.map_append,
        List.map_singleton]

lemma isLower_or_isDigit_of_mem_dotted {c : Char} (h : c ∈ dotted v.segments) :
    c = '.' ∨ c.isLower = true ∨ c.isDigit = true := by
  obtain h | ⟨seg, hseg, hc⟩ := mem_dotted h
  · exact .inl h
  · exact .inr (v.isLower_or_isDigit_of_mem_segment hseg hc)

/-- A version is digits, lower case letters, dots and the mark of the epoch. -/
lemma mem_chars {c : Char} (h : c ∈ v.chars) :
    c = '!' ∨ c = '.' ∨ c.isLower = true ∨ c.isDigit = true := by
  rcases List.mem_append.1 h with h | h
  · cases hepoch : v.epoch with
    | none => simp [hepoch] at h
    | some d =>
      rw [hepoch, Option.map_some, Option.getD_some, List.mem_append] at h
      rcases h with h | h
      · exact .inr (.inr (.inr (d.isDigit c h)))
      · exact .inl (List.mem_singleton.1 h)
  · exact .inr (v.isLower_or_isDigit_of_mem_dotted h)

lemma trimChars_chars : trimChars v.chars = v.chars := by
  refine trimChars_eq_self fun c hc => ?_
  rcases v.mem_chars hc with rfl | rfl | h | h
  · rfl
  · rfl
  · exact isSpace_of_isIdentifierChar (isIdentifierChar_of_isLower h)
  · exact isSpace_of_isDigit h

lemma map_toLowerChar_chars : v.chars.map toLowerChar = v.chars := by
  have hself : ∀ c ∈ v.chars, toLowerChar c = c := by
    intro c hc
    rcases v.mem_chars hc with rfl | rfl | h | h
    · rfl
    · rfl
    · exact toLowerChar_of_isLower h
    · exact toLowerChar_of_isDigit h
  rw [List.map_congr_left hself, List.map_id']

/-- A version starts with a digit. -/
lemma head_chars : ∃ c rest, v.chars = c :: rest ∧ c.isDigit = true := by
  have hstart (d : Digits) (rest : List Char) : ∃ c cs, d.chars ++ rest = c :: cs ∧ c.isDigit = true := by
    obtain ⟨c, cs, hc⟩ := List.exists_cons_of_ne_nil d.ne_nil
    exact ⟨c, cs ++ rest, by simp [hc], d.isDigit c (by simp [hc])⟩
  rw [chars]
  cases v.epoch with
  | some d =>
    rw [Option.map_some, Option.getD_some, List.append_assoc]
    exact hstart d _
  | none =>
    have hfirst : ∃ d : Digits, ∃ rest segs, v.segments = (d.chars ++ rest) :: segs := by
      rw [segments]
      cases v.front with
      | nil => exact ⟨v.last, v.preChars, _, rfl⟩
      | cons d front => exact ⟨d, [], _, by rw [List.append_nil]; rfl⟩
    obtain ⟨d, rest, segs, hsegments⟩ := hfirst
    rw [Option.map_none, Option.getD_none, List.nil_append, hsegments]
    cases segs with
    | nil =>
      rw [dotted_singleton]
      exact hstart d rest
    | cons next segs =>
      rw [dotted_cons_cons, List.append_assoc]
      exact hstart d _

/-- What is read of a version. -/
lemma parsePEP440_chars : parsePEP440 v.chars =
    { epoch := wrap ((v.epoch.map Digits.value).getD 0)
      release := v.release.map fun d => wrap d.value
      phase := v.readPhase
      phaseNum := wrap (Nat.ofDigitChars 10 v.readDigits 0) } := by
  obtain ⟨c, rest, hchars, hdigit⟩ := v.head_chars
  have hhead : v.chars.head? ≠ some 'v' := by
    rw [hchars]
    rintro ⟨⟩
    cases hdigit
  obtain ⟨rest, hrest, hdot, hsplit⟩ := v.splitPEP440Suffix_segments
  have hrelease := v.map_parseLeadingInt_splitOn hrest hdot
  simp only [parsePEP440, v.trimChars_chars, v.map_toLowerChar_chars, if_neg hhead]
  cases hepoch : v.epoch with
  | some d =>
    have htext : v.chars = d.chars ++ '!' :: dotted v.segments := by
      rw [chars, hepoch, Option.map_some, Option.getD_some, List.append_assoc, List.singleton_append]
    have hmark : '!' ∉ d.chars := fun h => by cases d.isDigit '!' h
    have hdrop : (d.chars ++ '!' :: dotted v.segments).drop (d.chars.length + 1) = dotted v.segments := by
      rw [← List.drop_drop, List.drop_left, List.drop_one, List.tail_cons]
    simp only [htext, index_singleton_append hmark, List.take_left, hdrop, hsplit, hrelease,
      d.parseInt_chars, Option.map_some, Option.getD_some]
  | none =>
    have htext : v.chars = dotted v.segments := by
      rw [chars, hepoch, Option.map_none, Option.getD_none, List.nil_append]
    have hmark : '!' ∉ dotted v.segments := fun h => by
      rcases v.isLower_or_isDigit_of_mem_dotted h with h | h | h <;> cases h
    simp only [htext, index_singleton_of_not_mem hmark, hsplit, hrelease, Option.map_none,
      Option.getD_none, wrap_zero]

end Pep440

/-- The comparator orders versions by what is read of them. -/
lemma comparePEP440_chars (a b : Pep440) : comparePEP440 a.chars b.chars = a.readOrder b := by
  simp only [comparePEP440, Pep440.parsePEP440_chars, compareIntSlices, Pep440.readOrder]
  rw [compare_eq_iff_eq.2 rfl, Ordering.then_eq]

/-- The numbers fit in 63 bits, and there is at most one of a pre-release, a post-release and a development
release. -/
structure Pep440.IsPlain (v : Pep440) : Prop where
  epoch_fits : (v.epoch.map Digits.value).getD 0 < 2 ^ 63
  release_fits : ∀ d ∈ v.release, d.value < 2 ^ 63
  number_fits : Nat.ofDigitChars 10 v.readDigits 0 < 2 ^ 63
  single : v.pre = none ∧ v.post = none ∨ v.pre = none ∧ v.dev = none ∨ v.post = none ∧ v.dev = none

/-- What stands behind the release of a plain version, and what is read of it. -/
lemma Pep440.IsPlain.cases {v : Pep440} (h : v.IsPlain) :
    let n := Nat.ofDigitChars 10 v.readDigits 0
    v.readPhase = -5 ∧ v.preKey = (0, 0) ∧ v.postKey = 0 ∧ v.devKey = (0, n) ∨
      (∃ name : PreName, v.readPhase = name.phase ∧ v.preKey = (name.phase + 5, n) ∧ v.postKey = 0 ∧
        v.devKey = (1, 0)) ∨
      v.readPhase = 0 ∧ n = 0 ∧ v.preKey = (4, 0) ∧ v.postKey = 0 ∧ v.devKey = (1, 0) ∨
      v.readPhase = 1 ∧ v.preKey = (4, 0) ∧ v.postKey = n + 1 ∧ v.devKey = (1, 0) := by
  have hsingle := h.single
  rw [readPhase, preKey, postKey, devKey, readDigits]
  cases hpre : v.pre with
  | some p =>
    obtain ⟨name, d⟩ := p
    obtain ⟨hpost, hdev⟩ : v.post = none ∧ v.dev = none := by simpa [hpre] using hsingle
    refine .inr (.inl ⟨name, ?_⟩)
    rw [hpost, hdev]
    cases name <;> simp [PreName.phase, Digits.value]
  | none =>
    cases hpost : v.post with
    | some d =>
      have hdev : v.dev = none := by simpa [hpre, hpost] using hsingle
      refine .inr (.inr (.inr ?_))
      rw [hdev]
      simp [Digits.value]
    | none =>
      cases hdev : v.dev with
      | some e => exact .inl (by simp [Digits.value])
      | none => exact .inr (.inr (.inl (by simp)))

lemma compare_suffix_of_isPlain {a b : Pep440} (ha : a.IsPlain) (hb : b.IsPlain) :
    (Ord.compare a.readPhase b.readPhase).then
        (Ord.compare (wrap (Nat.ofDigitChars 10 a.readDigits 0)) (wrap (Nat.ofDigitChars 10 b.readDigits 0))) =
      (compareNumbered a.preKey b.preKey).then
        ((Ord.compare a.postKey b.postKey).then (compareNumbered a.devKey b.devKey)) := by
  rw [compare_wrap ha.number_fits hb.number_fits]
  have hacases := ha.cases
  have hbcases := hb.cases
  generalize Nat.ofDigitChars 10 a.readDigits 0 = m at hacases ⊢
  generalize Nat.ofDigitChars 10 b.readDigits 0 = n at hbcases ⊢
  have hsucc : Ord.compare (m + 1) (n + 1) = Ord.compare m n := by
    rw [Nat.compare_eq_ite_lt, Nat.compare_eq_ite_lt]
    simp
  rcases hacases with ⟨hp, hk, ho, hd⟩ | ⟨name, hp, hk, ho, hd⟩ | ⟨hp, rfl, hk, ho, hd⟩ | ⟨hp, hk, ho, hd⟩
  all_goals
    rcases hbcases with ⟨hp', hk', ho', hd'⟩ | ⟨name', hp', hk', ho', hd'⟩ | ⟨hp', rfl, hk', ho', hd'⟩ |
      ⟨hp', hk', ho', hd'⟩
    all_goals rw [hp, hk, ho, hd, hp', hk', ho', hd']
  · simp [compareNumbered]
  · cases name' <;> rfl
  · rfl
  · rfl
  · cases name <;> rfl
  · have hphase : Ord.compare (name.phase + 5) (name'.phase + 5) = Ord.compare name.phase name'.phase := by
      cases name <;> cases name' <;> rfl
    simp [compareNumbered, hphase]
  · cases name <;> rfl
  · cases name <;> rfl
  · rfl
  · cases name' <;> rfl
  · rfl
  · rfl
  · rfl
  · cases name' <;> rfl
  · rfl
  · simp [compareNumbered, hsucc]

/-- Plain versions are compared in the order of PEP 440. -/
theorem comparePEP440_eq_order {a b : Pep440} (ha : a.IsPlain) (hb : b.IsPlain) :
    comparePEP440 a.chars b.chars = a.order b := by
  have hcast {v : Pep440} (hv : v.IsPlain) :
      (v.release.map fun d => wrap d.value) = (v.release.map Digits.value).map Nat.cast := by
    rw [List.map_map]
    exact List.map_congr_left fun d hd => wrap_of_lt (hv.release_fits d hd)
  have hrelease : padded Ord.compare 0 (a.release.map fun d => wrap d.value)
      (b.release.map fun d => wrap d.value) =
      padded Ord.compare 0 (a.release.map Digits.value) (b.release.map Digits.value) := by
    have hkey := @padded_map ℤ ℕ Ord.compare Nat.cast 0 (a.release.map Digits.value)
      (b.release.map Digits.value)
    simp only [compare_cast] at hkey
    rw [hcast ha, hcast hb]
    exact hkey.symm
  rw [comparePEP440_chars, Pep440.readOrder, Pep440.order, compare_wrap ha.epoch_fits hb.epoch_fits,
    hrelease, compare_suffix_of_isPlain ha hb]

/-- A development release of the first post-release of version 1.0. -/
def postDev : Pep440 := ⟨none, [.ofNat 1], .ofNat 0, none, some (.ofNat 1), some (.ofNat 2)⟩

/-- The second post-release of version 1.0. -/
def secondPost : Pep440 := ⟨none, [.ofNat 1], .ofNat 0, none, some (.ofNat 2), none⟩

theorem comparePEP440_eq_order_secondPost :
    comparePEP440 secondPost.chars ({ secondPost with post := none }).chars = .gt :=
  comparePEP440_eq_order (b := { secondPost with post := none })
    ⟨by decide, by decide, by decide, by decide⟩ ⟨by decide, by decide, by decide, by decide⟩

end Packmon.Version

import Packmon.Library.JsonBytes
import Packmon.Sync.Page
import Mathlib.Algebra.Order.BigOperators.Group.List
import Mathlib.Algebra.Order.Ring.Nat
import Mathlib.Tactic.Linarith

/-!
# The byte budget of a page is an upper bound

The rows of a sync response as an encoder writes them, over strings that are any bytes, and the estimates
that the page builders add up.  The estimate of a string bounds the string as it is written
(`length_quoteBytes_le`), that of a row bounds the row and the comma behind it, and so a page of more than
one row takes no more bytes than its budget (`wireBytes_bound`).

A date is written with the year a `CivilDate` can have; how a time is read as a date, and how a float is
written in at most 24 bytes, are parameters.
-/

namespace Packmon

open JsonStrings JsonBytes

/-! ### Strings -/

/-- `jsonStringWireBytes` on the bytes of a string, valid UTF-8 or not. -/
def rawStringWireBytesAux : ℕ → List UInt8 → ℕ
  | 0, _ => 0
  | _ + 1, [] => 0
  | fuel + 1, c :: rest =>
    if c.toNat < 0x80 then
      (if c.toNat = 0x22 ∨ c.toNat = 0x5c then 2
        else if c.toNat < 0x20 ∨ c.toNat = 0x3c ∨ c.toNat = 0x3e ∨ c.toNat = 0x26 then 6
        else 1) + rawStringWireBytesAux fuel rest
    else
      match decodeRune (c :: rest) with
      | none => 6 + rawStringWireBytesAux fuel rest
      | some r =>
        (if r.toNat = 0x2028 ∨ r.toNat = 0x2029 then 6 else r.utf8Size) +
          rawStringWireBytesAux fuel ((c :: rest).drop r.utf8Size)

@[inherit_doc rawStringWireBytesAux]
def rawStringWireBytes (s : List UInt8) : ℕ := 2 + rawStringWireBytesAux s.length s

/-- The estimate of one rune. -/
def runeWireBytes : Option Char → ℕ
  | none => 6
  | some c => jsonCharWireBytes c

lemma jsonCharWireBytes_eq (c : Char) :
    jsonCharWireBytes c =
      if c.toNat = 0x22 ∨ c.toNat = 0x5c then 2
      else if c.toNat < 0x20 ∨ c.toNat = 0x3c ∨ c.toNat = 0x3e ∨ c.toNat = 0x26 ∨ c.toNat = 0x2028 ∨
        c.toNat = 0x2029 then 6
      else c.utf8Size := by
  have hchar (d : Char) : c = d ↔ c.toNat = d.toNat := Char.toNat_inj.symm
  simp only [jsonCharWireBytes, hchar]
  rfl

/-- The estimate goes rune by rune. -/
lemma rawStringWireBytesAux_eq (fuel : ℕ) (s : List UInt8) :
    rawStringWireBytesAux fuel s = ((runesAux fuel s).map runeWireBytes).sum := by
  induction fuel generalizing s with
  | zero => rfl
  | succ fuel ih =>
    cases s with
    | nil => rfl
    | cons b rest =>
      rw [rawStringWireBytesAux, runesAux]
      by_cases hascii : b.toNat < 0x80
      · obtain ⟨c, hdecode, hnat, hsize⟩ := decodeRune_ascii hascii rest
        have hseparator : ¬ (b.toNat = 0x2028 ∨ b.toNat = 0x2029) := by omega
        rw [if_pos hascii, hdecode]
        simp only [hsize, List.drop_succ_cons, List.drop_zero, List.map_cons, List.sum_cons, ih,
          runeWireBytes, jsonCharWireBytes_eq, hnat, or_false, hseparator]
      · rw [if_neg hascii]
        cases hdecode : decodeRune (b :: rest) with
        | none => simp only [ih, List.map_cons, List.sum_cons, runeWireBytes]
        | some r =>
          have hr := le_toNat_of_decodeRune (not_lt.mp hascii) hdecode
          simp only [ih, List.map_cons, List.sum_cons, runeWireBytes, jsonCharWireBytes_eq]
          congr 1
          have hquote : ¬ (r.toNat = 0x22 ∨ r.toNat = 0x5c) := by omega
          have hrest : (r.toNat < 0x20 ∨ r.toNat = 0x3c ∨ r.toNat = 0x3e ∨ r.toNat = 0x26 ∨
              r.toNat = 0x2028 ∨ r.toNat = 0x2029) ↔ (r.toNat = 0x2028 ∨ r.toNat = 0x2029) := by omega
          rw [if_neg hquote]
          simp only [hrest]

/-- On the bytes of a text the estimate is that of the text. -/
lemma rawStringWireBytes_utf8Encode (s : String) :
    rawStringWireBytes (utf8Encode s.toList) = jsonStringWireBytes s := by
  rw [rawStringWireBytes, rawStringWireBytesAux_eq]
  change 2 + ((runes (utf8Encode s.toList)).map runeWireBytes).sum = _
  rw [runes_utf8Encode, List.map_map]
  rfl

lemma length_escapeRune_le (rune : Option Char) : (escapeRune rune).length ≤ runeWireBytes rune := by
  cases rune with
  | none => exact (length_unicodeEscape _).le
  | some c =>
    change (utf8Encode (escapeChar c)).length ≤ jsonCharWireBytes c
    have hsingle : (utf8Encode [c]).length = c.utf8Size := by simp [length_utf8Encode]
    unfold escapeChar
    split_ifs with hquote hslash hb hf hn hr ht hescaped
    · rw [hquote]
      decide
    · rw [hslash]
      decide
    · rw [hb]
      decide
    · rw [hf]
      decide
    · rw [hn]
      decide
    · rw [hr]
      decide
    · rw [ht]
      decide
    · rw [length_unicodeEscape, jsonCharWireBytes, if_neg (not_or.mpr ⟨hquote, hslash⟩), if_pos hescaped]
    · rw [hsingle, jsonCharWireBytes, if_neg (not_or.mpr ⟨hquote, hslash⟩), if_neg hescaped]

/-- The estimate of a string bounds the string as it is written. -/
lemma length_quoteBytes_le (s : List UInt8) : (quoteBytes s).length ≤ rawStringWireBytes s := by
  rw [length_quoteBytes, rawStringWireBytes, rawStringWireBytesAux_eq]
  change _ ≤ 2 + ((runes s).map runeWireBytes).sum
  refine Nat.add_le_add_left (List.sum_le_sum fun rune _ => length_escapeRune_le rune) 2

/-! ### Values that are no strings -/

/-- How a float is written. -/
structure FloatFormat where
  write : ℚ → List UInt8
  length_le : ∀ q, (write q).length ≤ 24

/-- The calendar date of a time: a time has no year with more than twelve digits. -/
structure CivilDate where
  year : ℤ
  month : ℕ
  day : ℕ
  year_lt : year.natAbs < 10 ^ 12
  month_le : month ≤ 12
  day_le : day ≤ 31

/-- A number with leading zeros. -/
def zeroPadded (width n : ℕ) : List Char := List.replicate (width - n.repr.length) '0' ++ n.repr.toList

/-- `time.DateOnly`: the year in at least four digits, the month, and the day. -/
def dateOnly (date : CivilDate) : List Char :=
  (if date.year < 0 then ['-'] else []) ++ zeroPadded 4 date.year.natAbs ++ '-' :: zeroPadded 2 date.month ++
    '-' :: zeroPadded 2 date.day

def encodeNull : List UInt8 := utf8Encode "null".toList

def encodeBool (b : Bool) : List UInt8 := utf8Encode (if b then "true" else "false").toList

def encodeFloat (float : FloatFormat) (q : Option ℚ) : List UInt8 := q.elim encodeNull float.write

def encodeDate (calendar : Time → CivilDate) (time : Option Time) : List UInt8 :=
  time.elim encodeNull fun time => quoteBytes (utf8Encode (dateOnly (calendar time)))

lemma length_encodeBool_le (b : Bool) : (encodeBool b).length ≤ 5 := by
  cases b <;> decide

lemma length_encodeFloat_le (float : FloatFormat) (q : Option ℚ) : (encodeFloat float q).length ≤ 24 := by
  cases q with
  | none =>
    change encodeNull.length ≤ 24
    decide
  | some q => exact float.length_le q

lemma length_zeroPadded {width n : ℕ} (hwidth : 0 < width) {bound : ℕ} (hbound : width ≤ bound)
    (hn : n < 10 ^ bound) : (zeroPadded width n).length ≤ bound := by
  have hlength : n.repr.length ≤ bound := (Nat.length_repr_le_iff (by omega)).mpr hn
  rw [zeroPadded, List.length_append, List.length_replicate, String.length_toList]
  omega

/-- A date is made of digits and hyphens. -/
lemma toNat_of_mem_dateOnly {date : CivilDate} {c : Char} (hc : c ∈ dateOnly date) :
    45 ≤ c.toNat ∧ c.toNat ≤ 57 := by
  have hpadded {width n : ℕ} (hc : c ∈ zeroPadded width n) : 45 ≤ c.toNat ∧ c.toNat ≤ 57 := by
    rcases List.mem_append.mp hc with hc | hc
    · rw [List.eq_of_mem_replicate hc]
      decide
    · have hdigit : c.isDigit = true := GoText.isDigit_of_mem_itoa hc
      have hrange : 48 ≤ c.toNat ∧ c.toNat ≤ 57 := by
        simpa [Char.isDigit, UInt32.le_iff_toNat_le] using hdigit
      omega
  have hhyphen (heq : c = '-') : 45 ≤ c.toNat ∧ c.toNat ≤ 57 := by
    rw [heq]
    decide
  simp only [dateOnly, List.mem_append, List.mem_cons] at hc
  rcases hc with ((hsign | hyear) | hmonth | hmonth) | hday | hday
  · split at hsign
    · exact hhyphen (List.mem_singleton.mp hsign)
    · cases hsign
  · exact hpadded hyear
  · exact hhyphen hmonth
  · exact hpadded hmonth
  · exact hhyphen hday
  · exact hpadded hday

lemma length_dateOnly_le (date : CivilDate) : (dateOnly date).length ≤ 19 := by
  have hyear := length_zeroPadded (by decide : 0 < 4) (by decide : 4 ≤ 12) date.year_lt
  have hmonth := length_zeroPadded (by decide : 0 < 2) (le_refl 2) (by have := date.month_le; omega : date.month < 10 ^ 2)
  have hday := length_zeroPadded (by decide : 0 < 2) (le_refl 2) (by have := date.day_le; omega : date.day < 10 ^ 2)
  have hsign : (if date.year < 0 then ['-'] else []).length ≤ 1 := by
    split <;> decide
  simp only [dateOnly, List.length_append, List.length_cons]
  omega

lemma length_encodeDate_le (calendar : Time → CivilDate) (time : Option Time) :
    (encodeDate calendar time).length ≤ 21 := by
  cases time with
  | none =>
    change encodeNull.length ≤ 21
    decide
  | some time =>
    change (quoteBytes (utf8Encode (dateOnly (calendar time)))).length ≤ 21
    have hone : ∀ c ∈ dateOnly (calendar time), jsonCharWireBytes c ≤ 1 := by
      intro c hc
      obtain ⟨hlow, hhigh⟩ := toNat_of_mem_dateOnly hc
      have hsize : c.utf8Size = 1 := by
        rw [Char.utf8Size_eq_one_iff, UInt32.le_iff_toNat_le]
        change c.toNat ≤ 127
        omega
      rw [jsonCharWireBytes_eq, if_neg (by omega), if_neg (by omega), hsize]
    have hsum : ((dateOnly (calendar time)).map jsonCharWireBytes).sum ≤ (dateOnly (calendar time)).length := by
      have hle := List.sum_le_sum hone
      simpa using hle
    have hlength := length_dateOnly_le (calendar time)
    have hquote := length_quoteBytes_le (utf8Encode (dateOnly (calendar time)))
    have hestimate := rawStringWireBytes_utf8Encode (String.ofList (dateOnly (calendar time)))
    rw [String.toList_ofList, jsonStringWireBytes, String.toList_ofList] at hestimate
    omega

/-! ### Rows -/

/-- A vulnerability row whose strings are any bytes. -/
structure RawVulnerability where
  id : List UInt8
  ecosystem : List UInt8
  name : List UInt8
  versionRanges : List UInt8
  versionsAffected : List UInt8
  references : List UInt8
  severity : List UInt8
  cvssScore : Option ℚ
  epssScore : Option ℚ
  epssPercentile : Option ℚ
  cisaKEV : Bool
  summary : List UInt8
  source : List UInt8
  withdrawn : Bool

/-- A malicious row whose strings are any bytes. -/
structure RawMalicious where
  id : List UInt8
  ecosystem : List UInt8
  name : List UInt8
  versionRanges : List UInt8
  versions : List UInt8
  referenceURLs : List UInt8
  riskType : List UInt8
  severity : List UInt8
  summary : List UInt8
  source : List UInt8
  withdrawn : Bool

/-- A reputation row whose strings are any bytes. -/
structure RawReputation where
  id : List UInt8
  ecosystem : List UInt8
  name : List UInt8
  version : List UInt8
  type : List UInt8
  riskType : List UInt8
  severity : List UInt8
  summary : List UInt8
  withdrawn : Bool

/-- A lifecycle row whose strings are any bytes. -/
structure RawLifecycle where
  id : List UInt8
  ecosystem : List UInt8
  name : List UInt8
  productSlug : List UInt8
  productLabel : List UInt8
  cycle : List UInt8
  latest : List UInt8
  releaseDate : Option Time
  isLTS : Bool
  ltsFrom : Option Time
  isEOAS : Bool
  eoasFrom : Option Time
  isEOL : Bool
  eolFrom : Option Time
  isDiscontinued : Bool
  discontinuedFrom : Option Time
  isEOES : Option Bool
  eoesFrom : Option Time
  isMaintained : Bool
  withdrawn : Bool

namespace RawVulnerability

/-- `syncVulnerabilityWireBytes`. -/
def wireBytes (row : RawVulnerability) : ℕ :=
  320 + rawStringWireBytes row.id + rawStringWireBytes row.ecosystem + rawStringWireBytes row.name +
    rawStringWireBytes row.versionRanges + rawStringWireBytes row.versionsAffected +
    rawStringWireBytes row.references + rawStringWireBytes row.severity + rawStringWireBytes row.summary +
    rawStringWireBytes row.source

/-- The row as it is written. -/
def encode (float : FloatFormat) (row : RawVulnerability) : List UInt8 :=
  object [("id", quoteBytes row.id), ("ecosystem", quoteBytes row.ecosystem), ("name", quoteBytes row.name),
    ("version_ranges", quoteBytes row.versionRanges), ("versions_affected", quoteBytes row.versionsAffected),
    ("references", quoteBytes row.references), ("severity", quoteBytes row.severity),
    ("cvss_score", encodeFloat float row.cvssScore), ("epss_score", encodeFloat float row.epssScore),
    ("epss_percentile", encodeFloat float row.epssPercentile), ("cisa_kev", encodeBool row.cisaKEV),
    ("summary", quoteBytes row.summary), ("source", quoteBytes row.source),
    ("withdrawn", encodeBool row.withdrawn)]

/-- The estimate bounds the row and the comma behind it. -/
lemma length_encode_lt (float : FloatFormat) (row : RawVulnerability) :
    (row.encode float).length + 1 ≤ row.wireBytes := by
  have hstring := length_quoteBytes_le
  have hfloat := length_encodeFloat_le float
  have hbool := length_encodeBool_le
  have hnames : ((["id", "ecosystem", "name", "version_ranges", "versions_affected", "references", "severity",
      "cvss_score", "epss_score", "epss_percentile", "cisa_kev", "summary", "source", "withdrawn"].map fun name =>
      (utf8Encode (quote name)).length + 2).sum) = 185 := by decide
  rw [encode, length_object_eq (List.cons_ne_nil _ _), wireBytes]
  simp only [List.map_cons, List.map_nil, List.sum_cons, List.sum_nil] at hnames ⊢
  rw [hnames]
  linarith only [hstring row.id, hstring row.ecosystem, hstring row.name, hstring row.versionRanges,
    hstring row.versionsAffected, hstring row.references, hstring row.severity, hfloat row.cvssScore,
    hfloat row.epssScore, hfloat row.epssPercentile, hbool row.cisaKEV, hstring row.summary,
    hstring row.source, hbool row.withdrawn]

end RawVulnerability

namespace RawMalicious

/-- `syncMaliciousWireBytes`. -/
def wireBytes (row : RawMalicious) : ℕ :=
  192 + rawStringWireBytes row.id + rawStringWireBytes row.ecosystem + rawStringWireBytes row.name +
    rawStringWireBytes row.versionRanges + rawStringWireBytes row.versions +
    rawStringWireBytes row.referenceURLs + rawStringWireBytes row.riskType +
    rawStringWireBytes row.severity + rawStringWireBytes row.summary + rawStringWireBytes row.source

/-- The row as it is written. -/
def encode (row : RawMalicious) : List UInt8 :=
  object [("id", quoteBytes row.id), ("ecosystem", quoteBytes row.ecosystem), ("name", quoteBytes row.name),
    ("version_ranges", quoteBytes row.versionRanges), ("versions", quoteBytes row.versions),
    ("reference_urls", quoteBytes row.referenceURLs), ("risk_type", quoteBytes row.riskType),
    ("severity", quoteBytes row.severity), ("summary", quoteBytes row.summary),
    ("source", quoteBytes row.source), ("withdrawn", encodeBool row.withdrawn)]

@[inherit_doc RawVulnerability.length_encode_lt]
lemma length_encode_lt (row : RawMalicious) : row.encode.length + 1 ≤ row.wireBytes := by
  have hstring := length_quoteBytes_le
  have hnames : ((["id", "ecosystem", "name", "version_ranges", "versions", "reference_urls", "risk_type",
      "severity", "summary", "source", "withdrawn"].map fun name =>
      (utf8Encode (quote name)).length + 2).sum) = 134 := by decide
  rw [encode, length_object_eq (List.cons_ne_nil _ _), wireBytes]
  simp only [List.map_cons, List.map_nil, List.sum_cons, List.sum_nil] at hnames ⊢
  rw [hnames]
  linarith only [hstring row.id, hstring row.ecosystem, hstring row.name, hstring row.versionRanges,
    hstring row.versions, hstring row.referenceURLs, hstring row.riskType, hstring row.severity,
    hstring row.summary, hstring row.source, length_encodeBool_le row.withdrawn]

end RawMalicious

namespace RawReputation

/-- `syncReputationWireBytes`. -/
def wireBytes (row : RawReputation) : ℕ :=
  160 + rawStringWireBytes row.id + rawStringWireBytes row.ecosystem + rawStringWireBytes row.name +
    rawStringWireBytes row.version + rawStringWireBytes row.type + rawStringWireBytes row.riskType +
    rawStringWireBytes row.severity + rawStringWireBytes row.summary

/-- The row as it is written. -/
def encode (row : RawReputation) : List UInt8 :=
  object [("id", quoteBytes row.id), ("ecosystem", quoteBytes row.ecosystem), ("name", quoteBytes row.name),
    ("version", quoteBytes row.version), ("type", quoteBytes row.type),
    ("risk_type", quoteBytes row.riskType), ("severity", quoteBytes row.severity),
    ("summary", quoteBytes row.summary), ("withdrawn", encodeBool row.withdrawn)]

@[inherit_doc RawVulnerability.length_encode_lt]
lemma length_encode_lt (row : RawReputation) : row.encode.length + 1 ≤ row.wireBytes := by
  have hstring := length_quoteBytes_le
  have hnames : ((["id", "ecosystem", "name", "version", "type", "risk_type", "severity", "summary",
      "withdrawn"].map fun name => (utf8Encode (quote name)).length + 2).sum) = 95 := by decide
  rw [encode, length_object_eq (List.cons_ne_nil _ _), wireBytes]
  simp only [List.map_cons, List.map_nil, List.sum_cons, List.sum_nil] at hnames ⊢
  rw [hnames]
  linarith only [hstring row.id, hstring row.ecosystem, hstring row.name, hstring row.version,
    hstring row.type, hstring row.riskType, hstring row.severity, hstring row.summary,
    length_encodeBool_le row.withdrawn]

end RawReputation

namespace RawLifecycle

/-- `syncLifecycleWireBytes`. -/
def wireBytes (row : RawLifecycle) : ℕ :=
  448 + rawStringWireBytes row.id + rawStringWireBytes row.ecosystem + rawStringWireBytes row.name +
    rawStringWireBytes row.productSlug + rawStringWireBytes row.productLabel + rawStringWireBytes row.cycle +
    rawStringWireBytes row.latest

/-- The row as it is written. -/
def encode (calendar : Time → CivilDate) (row : RawLifecycle) : List UInt8 :=
  object [("id", quoteBytes row.id), ("ecosystem", quoteBytes row.ecosystem), ("name", quoteBytes row.name),
    ("product_slug", quoteBytes row.productSlug), ("product_label", quoteBytes row.productLabel),
    ("cycle", quoteBytes row.cycle), ("latest", quoteBytes row.latest),
    ("release_date", encodeDate calendar row.releaseDate), ("is_lts", encodeBool row.isLTS),
    ("lts_from", encodeDate calendar row.ltsFrom), ("is_eoas", encodeBool row.isEOAS),
    ("eoas_from", encodeDate calendar row.eoasFrom), ("is_eol", encodeBool row.isEOL),
    ("eol_from", encodeDate calendar row.eolFrom), ("is_discontinued", encodeBool row.isDiscontinued),
    ("discontinued_from", encodeDate calendar row.discontinuedFrom),
    ("is_eoes", row.isEOES.elim encodeNull encodeBool), ("eoes_from", encodeDate calendar row.eoesFrom),
    ("is_maintained", encodeBool row.isMaintained), ("withdrawn", encodeBool row.withdrawn)]

@[inherit_doc RawVulnerability.length_encode_lt]
lemma length_encode_lt (calendar : Time → CivilDate) (row : RawLifecycle) :
    (row.encode calendar).length + 1 ≤ row.wireBytes := by
  have hstring := length_quoteBytes_le
  have hbool := length_encodeBool_le
  have hdate := length_encodeDate_le calendar
  have heoes : (row.isEOES.elim encodeNull encodeBool).length ≤ 5 := by
    cases row.isEOES with
    | none =>
      change encodeNull.length ≤ 5
      decide
    | some b => exact hbool b
  have hnames : ((["id", "ecosystem", "name", "product_slug", "product_label", "cycle", "latest", "release_date",
      "is_lts", "lts_from", "is_eoas", "eoas_from", "is_eol", "eol_from", "is_discontinued", "discontinued_from",
      "is_eoes", "eoes_from", "is_maintained", "withdrawn"].map fun name =>
      (utf8Encode (quote name)).length + 2).sum) = 257 := by decide
  rw [encode, length_object_eq (List.cons_ne_nil _ _), wireBytes]
  simp only [List.map_cons, List.map_nil, List.sum_cons, List.sum_nil] at hnames ⊢
  rw [hnames]
  linarith only [hstring row.id, hstring row.ecosystem, hstring row.name, hstring row.productSlug,
    hstring row.productLabel, hstring row.cycle, hstring row.latest, hdate row.releaseDate, hbool row.isLTS,
    hdate row.ltsFrom, hbool row.isEOAS, hdate row.eoasFrom, hbool row.isEOL, hdate row.eolFrom,
    hbool row.isDiscontinued, hdate row.discontinuedFrom, heoes, hdate row.eoesFrom, hbool row.isMaintained,
    hbool row.withdrawn]

end RawLifecycle

/-! ### Pages of rows -/

namespace SyncRowPageBuilder

variable {T : Type}

/-- What a builder has added up is the estimate of its rows, and it is within the budget unless there is
one row only. -/
structure Bounded (b : SyncRowPageBuilder T) : Prop where
  used : (b.page.rows.map b.wireBytes).sum = b.used
  within : b.page.rows.length ≤ 1 ∨ (b.used : ℤ) ≤ b.budget

lemma Bounded.add {b : SyncRowPageBuilder T} (hb : b.Bounded) (item : T) : (b.add item).1.Bounded := by
  unfold SyncRowPageBuilder.add
  split_ifs with hstopped hfull
  · exact hb
  · exact ⟨hb.used, hb.within⟩
  · refine ⟨?_, ?_⟩
    · rw [List.map_append, List.sum_append, hb.used]
      simp
    · rcases not_and_or.mp hfull with hempty | hfits
      · left
        simp [not_not.mp hempty]
      · exact .inr (not_lt.mp hfits)

lemma Bounded.addAll {b : SyncRowPageBuilder T} (hb : b.Bounded) (rows : List T) : (b.addAll rows).Bounded := by
  induction rows generalizing b with
  | nil => exact hb
  | cons item rest ih =>
    rw [addAll_cons]
    split
    · exact ih (hb.add item)
    · exact hb.add item

lemma addAll_budget (b : SyncRowPageBuilder T) (rows : List T) :
    (b.addAll rows).budget = b.budget ∧ (b.addAll rows).wireBytes = b.wireBytes := by
  have hadd (b : SyncRowPageBuilder T) (item : T) :
      (b.add item).1.budget = b.budget ∧ (b.add item).1.wireBytes = b.wireBytes := by
    unfold SyncRowPageBuilder.add
    split_ifs <;> exact ⟨rfl, rfl⟩
  induction rows generalizing b with
  | nil => exact ⟨rfl, rfl⟩
  | cons item rest ih =>
    rw [addAll_cons]
    split
    · rw [(ih _).1, (ih _).2]
      exact hadd b item
    · exact hadd b item

/-- A page that is limited holds one row, or its estimates are within the budget. -/
lemma sum_wireBytes_finish_le (limit : ℕ) (budget : ℤ) (wireBytes : T → ℕ) (rows : List T) :
    let page := ((newSyncRowPageBuilder (limit + 1) budget wireBytes).addAll rows).finish
    page.rows.length = 1 ∨ ((page.rows.map wireBytes).sum : ℤ) ≤ max budget 0 := by
  intro page
  have hnew : (newSyncRowPageBuilder (limit + 1) budget wireBytes).Bounded := ⟨rfl, .inl (Nat.zero_le 1)⟩
  obtain ⟨hused, hwithin⟩ := hnew.addAll rows
  obtain ⟨hbudget, hbytes⟩ := addAll_budget (newSyncRowPageBuilder (limit + 1) budget wireBytes) rows
  rw [hbytes] at hused
  rw [hbudget] at hwithin
  change (page.rows.map wireBytes).sum = _ at hused
  change page.rows.length ≤ 1 ∨ _ ≤ budget at hwithin
  rcases hwithin with hfew | hfits
  · rcases Nat.le_one_iff_eq_zero_or_eq_one.mp hfew with hzero | hone
    · right
      rw [List.length_eq_zero_iff.mp hzero]
      exact le_max_right budget 0
    · exact .inl hone
  · right
    rw [hused]
    exact le_max_of_le_left hfits

end SyncRowPageBuilder

/-! ### Pages of vulnerabilities -/

/-- The bytes of the strings of a row. -/
def SyncVulnerability.raw (row : SyncVulnerability) : RawVulnerability where
  id := utf8Encode row.id.toList
  ecosystem := utf8Encode row.ecosystem.toList
  name := utf8Encode row.name.toList
  versionRanges := utf8Encode row.versionRanges.toList
  versionsAffected := utf8Encode row.versionsAffected.toList
  references := utf8Encode row.references.toList
  severity := utf8Encode row.severity.toList
  cvssScore := row.cvssScore
  epssScore := row.epssScore
  epssPercentile := row.epssPercentile
  cisaKEV := row.cisaKEV
  summary := utf8Encode row.summary.toList
  source := utf8Encode row.source.toList
  withdrawn := row.withdrawn

lemma wireBytes_raw (row : SyncVulnerability) : row.raw.wireBytes = syncVulnerabilityWireBytes row := by
  simp only [RawVulnerability.wireBytes, SyncVulnerability.raw, rawStringWireBytes_utf8Encode,
    syncVulnerabilityWireBytes]

namespace SyncVulnerabilityPage

/-- The number of rows and listed advisories. -/
def items (page : SyncVulnerabilityPage) : ℕ := page.rows.length + page.withoutAffected.length

/-- The estimates of the rows and listed advisories. -/
def wireBytes (page : SyncVulnerabilityPage) : ℕ :=
  (page.rows.map syncVulnerabilityWireBytes).sum + (page.withoutAffected.map syncAdvisoryIDWireBytes).sum

/-- The rows and listed advisories as they are written, each with a comma. -/
def encodedBytes (float : FloatFormat) (page : SyncVulnerabilityPage) : ℕ :=
  (page.rows.map fun row => (row.raw.encode float).length + 1).sum +
    (page.withoutAffected.map fun id => (quoteBytes (utf8Encode id.toList)).length + 1).sum

lemma encodedBytes_le (float : FloatFormat) (page : SyncVulnerabilityPage) :
    page.encodedBytes float ≤ page.wireBytes := by
  refine Nat.add_le_add (List.sum_le_sum fun row _ => ?_) (List.sum_le_sum fun id _ => ?_)
  · rw [← wireBytes_raw]
    exact row.raw.length_encode_lt float
  · rw [syncAdvisoryIDWireBytes, ← rawStringWireBytes_utf8Encode]
    exact Nat.add_le_add_right (length_quoteBytes_le _) 1

end SyncVulnerabilityPage

namespace SyncVulnerabilityPageBuilder

/-- A builder has added up at least the estimate of its page, and is within the budget unless the page has
one row or listed advisory only. -/
structure Bounded (b : SyncVulnerabilityPageBuilder) : Prop where
  used : b.page.wireBytes ≤ b.used
  within : b.page.items ≤ 1 ∨ (b.used : ℤ) ≤ b.budget

lemma bounded_enterAdvisory {b : SyncVulnerabilityPageBuilder} (hb : b.Bounded) (row : ScannedRow) :
    (b.enterAdvisory row).Bounded := by
  unfold enterAdvisory
  split_ifs
  · exact ⟨hb.used, hb.within⟩
  · exact ⟨hb.used, hb.within⟩

/-- A page that is cut keeps rows that were counted. -/
lemma bounded_stopAdvisoryPage {b : SyncVulnerabilityPageBuilder} (hb : b.Bounded) :
    b.stopAdvisoryPage.Bounded := by
  have hsum {α : Type} (f : α → ℕ) (l : List α) (n : ℕ) : ((l.take n).map f).sum ≤ (l.map f).sum :=
    ((List.take_sublist n l).map f).sum_le_sum fun _ _ => Nat.zero_le _
  unfold stopAdvisoryPage
  split_ifs
  · refine ⟨le_trans ?_ hb.used, hb.within.imp_left (le_trans ?_)⟩
    · exact Nat.add_le_add (hsum _ _ _) (hsum _ _ _)
    · exact Nat.add_le_add (List.length_take_le' _ _) (List.length_take_le' _ _)
  · split
    · exact ⟨hb.used, hb.within⟩
    · exact ⟨hb.used, hb.within⟩

lemma bounded_accept {b : SyncVulnerabilityPageBuilder} (hb : b.Bounded) {row : ScannedRow}
    (hfits : ((b.used + wireBytes row : ℕ) : ℤ) ≤ b.budget ∨ b.page.items = 0) : (b.accept row).Bounded := by
  have hitems : (b.page.add row.item row.withoutAffected).items = b.page.items + 1 := by
    unfold SyncVulnerabilityPage.add
    split_ifs
    · simp [SyncVulnerabilityPage.items]
      omega
    · simp [SyncVulnerabilityPage.items]
      omega
  have hbytes : (b.page.add row.item row.withoutAffected).wireBytes = b.page.wireBytes + wireBytes row := by
    unfold SyncVulnerabilityPage.add wireBytes
    split_ifs
    · simp [SyncVulnerabilityPage.wireBytes]
      omega
    · simp [SyncVulnerabilityPage.wireBytes]
      omega
  refine ⟨?_, ?_⟩
  · change (b.page.add row.item row.withoutAffected).wireBytes ≤ b.used + wireBytes row
    rw [hbytes]
    exact Nat.add_le_add_right hb.used _
  · rcases hfits with hfits | hzero
    · exact .inr hfits
    · left
      change (b.page.add row.item row.withoutAffected).items ≤ 1
      rw [hitems, hzero]

lemma Bounded.add {b : SyncVulnerabilityPageBuilder} (hb : b.Bounded) (row : ScannedRow) :
    (b.add row).1.Bounded := by
  have hfits (h : b.fits row = true) :
      ((b.used + wireBytes row : ℕ) : ℤ) ≤ b.budget ∨ b.page.items = 0 := by
    simpa [fits, SyncVulnerabilityPage.items] using h
  have henter (h : b.fits row = true) : ((b.enterAdvisory row).accept row).Bounded := by
    refine bounded_accept (bounded_enterAdvisory hb row) ?_
    have hsame : (b.enterAdvisory row).used = b.used ∧ (b.enterAdvisory row).budget = b.budget ∧
        (b.enterAdvisory row).page = b.page := by
      unfold enterAdvisory
      split_ifs <;> exact ⟨rfl, rfl, rfl⟩
    rw [hsame.1, hsame.2.1, hsame.2.2]
    exact hfits h
  unfold SyncVulnerabilityPageBuilder.add
  by_cases hstop : b.stopped = true
  · rw [if_pos hstop]
    exact hb
  · rw [if_neg hstop]
    cases b.paging with
    | advisoryPages =>
      dsimp only
      split_ifs with h
      · exact bounded_stopAdvisoryPage (bounded_enterAdvisory hb row)
      · exact henter (by simpa using h)
    | advisorySplit =>
      dsimp only
      split_ifs with h
      · exact ⟨hb.used, hb.within⟩
      · exact bounded_accept hb (hfits (by simpa using (not_or.mp h).1))
    | rowKeyset =>
      dsimp only
      split_ifs with h
      · exact ⟨hb.used, hb.within⟩
      · exact bounded_accept hb (hfits (by simpa using h))
    | deltaRowOffset =>
      dsimp only
      split_ifs with h
      · exact ⟨hb.used, hb.within⟩
      · exact bounded_accept hb (hfits (by simpa using h))

lemma Bounded.addAll {b : SyncVulnerabilityPageBuilder} (hb : b.Bounded) (rows : List ScannedRow) :
    (b.addAll rows).Bounded := by
  induction rows generalizing b with
  | nil => exact hb
  | cons row rest ih =>
    rw [addAll_cons]
    split
    · exact ih (hb.add row)
    · exact hb.add row

lemma addAll_budget (b : SyncVulnerabilityPageBuilder) (rows : List ScannedRow) :
    (b.addAll rows).budget = b.budget := by
  have hadd (b : SyncVulnerabilityPageBuilder) (row : ScannedRow) : (b.add row).1.budget = b.budget := by
    have hstop (b' : SyncVulnerabilityPageBuilder) : b'.stopAdvisoryPage.budget = b'.budget := by
      unfold stopAdvisoryPage
      split_ifs
      · rfl
      · cases b'.page.rows.getLast? <;> rfl
    have henter : (b.enterAdvisory row).budget = b.budget := by
      unfold enterAdvisory
      split_ifs <;> rfl
    unfold SyncVulnerabilityPageBuilder.add
    cases hp : b.paging <;> dsimp only <;> split_ifs <;> simp [accept, hstop, henter]
  induction rows generalizing b with
  | nil => rfl
  | cons row rest ih =>
    rw [addAll_cons]
    split
    · rw [ih, hadd]
    · exact hadd b row

lemma finish_page (b : SyncVulnerabilityPageBuilder) :
    b.finish.items = b.page.items ∧ b.finish.wireBytes = b.page.wireBytes := by
  unfold finish
  cases b.paging with
  | advisoryPages =>
    dsimp only
    split_ifs <;> exact ⟨rfl, rfl⟩
  | advisorySplit =>
    dsimp only
    split
    · split_ifs <;> exact ⟨rfl, rfl⟩
    · exact ⟨rfl, rfl⟩
  | rowKeyset => exact ⟨rfl, rfl⟩
  | deltaRowOffset => exact ⟨rfl, rfl⟩

/-- A page that is limited holds one row or listed advisory, or its estimates are within the budget. -/
lemma wireBytes_finish_le (paging : SyncVulnerabilityPaging) (limit : ℕ) (splitID : String) (budget : ℤ)
    (rows : List ScannedRow) :
    let page := ((newSyncVulnerabilityPageBuilder paging (limit + 1) splitID budget).addAll rows).finish
    page.items = 1 ∨ (page.wireBytes : ℤ) ≤ max budget 0 := by
  intro page
  have hnew : (newSyncVulnerabilityPageBuilder paging (limit + 1) splitID budget).Bounded :=
    ⟨Nat.zero_le _, .inl (Nat.zero_le 1)⟩
  obtain ⟨hused, hwithin⟩ := hnew.addAll rows
  obtain ⟨hitems, hbytes⟩ :=
    finish_page ((newSyncVulnerabilityPageBuilder paging (limit + 1) splitID budget).addAll rows)
  rw [← hbytes] at hused
  rw [addAll_budget, ← hitems] at hwithin
  change page.items ≤ 1 ∨ _ ≤ budget at hwithin
  rcases hwithin with hfew | hfits
  · rcases Nat.le_one_iff_eq_zero_or_eq_one.mp hfew with hzero | hone
    · right
      have hnone : page.rows = [] ∧ page.withoutAffected = [] := by
        simpa [SyncVulnerabilityPage.items] using hzero
      have hbytes : page.wireBytes = 0 := by
        rw [SyncVulnerabilityPage.wireBytes, hnone.1, hnone.2]
        rfl
      rw [hbytes]
      exact le_max_right budget 0
    · exact .inl hone
  · exact .inr (le_max_of_le_left ((Int.ofNat_le.mpr hused).trans hfits))

end SyncVulnerabilityPageBuilder

/-! ### The bound -/

/-- The rows of a page as they are written, each with a comma. -/
def SyncRowPage.encodedBytes {T : Type} (encode : T → List UInt8) (page : SyncRowPage T) : ℕ :=
  (page.rows.map fun row => (encode row).length + 1).sum

/-- A page of rows holds one row, or its rows as they are written, each with a comma, take no more bytes
than the budget. -/
lemma sum_encoded_le {T : Type} {wireBytes : T → ℕ} {encode : T → List UInt8}
    (hencode : ∀ row, (encode row).length + 1 ≤ wireBytes row) (limit : ℕ) (budget : ℤ) (rows : List T) :
    let page := ((newSyncRowPageBuilder (limit + 1) budget wireBytes).addAll rows).finish
    page.rows.length = 1 ∨ (page.encodedBytes encode : ℤ) ≤ max budget 0 := by
  intro page
  refine (SyncRowPageBuilder.sum_wireBytes_finish_le limit budget wireBytes rows).imp_right (le_trans ?_)
  exact Int.ofNat_le.mpr (List.sum_le_sum fun row _ => hencode row)

/-- The estimate of any string bounds the string as it is written; the estimate of a row, or of a listed
advisory, bounds it and the comma behind it; and a page with a limit holds one row or listed advisory, or
takes no more bytes than its budget. -/
theorem wireBytes_bound (float : FloatFormat) (calendar : Time → CivilDate) :
    (∀ s : List UInt8, (quoteBytes s).length ≤ rawStringWireBytes s) ∧
    ((∀ row : RawVulnerability, (row.encode float).length + 1 ≤ row.wireBytes) ∧
      (∀ row : RawMalicious, row.encode.length + 1 ≤ row.wireBytes) ∧
      (∀ row : RawReputation, row.encode.length + 1 ≤ row.wireBytes) ∧
      ∀ row : RawLifecycle, (row.encode calendar).length + 1 ≤ row.wireBytes) ∧
    (∀ paging limit splitID budget rows,
      let page := ((newSyncVulnerabilityPageBuilder paging (limit + 1) splitID budget).addAll rows).finish
      page.items = 1 ∨ (page.encodedBytes float : ℤ) ≤ max budget 0) ∧
    (∀ limit budget rows,
      let page := ((newSyncRowPageBuilder (limit + 1) budget RawMalicious.wireBytes).addAll rows).finish
      page.rows.length = 1 ∨ (page.encodedBytes RawMalicious.encode : ℤ) ≤ max budget 0) ∧
    (∀ limit budget rows,
      let page := ((newSyncRowPageBuilder (limit + 1) budget RawReputation.wireBytes).addAll rows).finish
      page.rows.length = 1 ∨ (page.encodedBytes RawReputation.encode : ℤ) ≤ max budget 0) ∧
    ∀ limit budget rows,
      let page := ((newSyncRowPageBuilder (limit + 1) budget RawLifecycle.wireBytes).addAll rows).finish
      page.rows.length = 1 ∨ (page.encodedBytes (RawLifecycle.encode calendar) : ℤ) ≤ max budget 0 := by
  refine ⟨length_quoteBytes_le, ⟨RawVulnerability.length_encode_lt float, RawMalicious.length_encode_lt,
    RawReputation.length_encode_lt, RawLifecycle.length_encode_lt calendar⟩, ?_,
    sum_encoded_le RawMalicious.length_encode_lt, sum_encoded_le RawReputation.length_encode_lt,
    sum_encoded_le (RawLifecycle.length_encode_lt calendar)⟩
  intro paging limit splitID budget rows page
  refine (SyncVulnerabilityPageBuilder.wireBytes_finish_le paging limit splitID budget rows).imp_right
    (le_trans ?_)
  exact Int.ofNat_le.mpr (page.encodedBytes_le float)

end Packmon

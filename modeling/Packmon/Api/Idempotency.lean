import Packmon.Library.GoText
import Packmon.Library.JsonStrings
import Mathlib.Logic.Function.Basic

/-!
# Idempotency keys of check requests

The key a client sends with a check is stored with the scan log as a hash (`scanLogIdempotencyKey`), under
which one row is stored at most (`insertScanLog`).  A row is looked up under the hash and then, for rows of
earlier versions, under the text of the key (`scanLogIdempotencyLookupKeys`).  The hash function is a
parameter.
-/

namespace Packmon.Api

open GoText (trimSpace)

/-! ## Keys and digests -/

def maxIdempotencyKeyLength : ℕ := 128

/-- The characters a key may have. -/
def isKeyChar (c : Char) : Bool :=
  ('a' ≤ c && c ≤ 'z') || ('A' ≤ c && c ≤ 'Z') || ('0' ≤ c && c ≤ '9') ||
    c = '_' || c = '-' || c = '.' || c = ':'

/-- The key in the header of a request, or an error; no key is the empty one. -/
@[irreducible] def checkIdempotencyKey (header : String) : Except String String :=
  let key := trimSpace header
  if key = "" then .ok ""
  else if maxIdempotencyKeyLength < key.utf8ByteSize then
    .error ("idempotency key exceeds " ++ GoText.itoa maxIdempotencyKeyLength ++ " characters")
  else if !key.toList.all isKeyChar then .error "idempotency key contains unsupported characters"
  else .ok key

/-- So many hexadecimal digits of a number, the last ones. -/
def hexDigits : ℕ → ℕ → List Char
  | 0, _ => []
  | k + 1, n => hexDigits k (n / 16) ++ [JsonStrings.hexDigit (n % 16)]

section Hash

variable (sha256 : String → BitVec 256)

@[irreducible] def hexSum (text : String) : List Char := hexDigits 64 (sha256 text).toNat

/-- The name of a sum, as it is stored. -/
@[irreducible] def sumName (text : String) : String := "sha256:" ++ String.ofList (hexSum sha256 text)

@[irreducible] def scanLogIdempotencyKey (raw : String) : String :=
  let raw := trimSpace raw
  if raw = "" then "" else sumName sha256 ("packmon scan-log idempotency key v1\x00" ++ raw)

/-- The digest of the packages and the repository of a request, as JSON. -/
def checkRequestDigest (body : String) : String := sumName sha256 body

@[irreducible] def scanIDForIdempotencyKey (key requestDigest : String) : String :=
  String.ofList ((hexSum sha256 (key ++ "\x00" ++ requestDigest)).take 16)

end Hash

def scanLogIdempotencyLookupKeys (storedKey rawKey : String) : List String :=
  let storedKey := trimSpace storedKey
  let rawKey := trimSpace rawKey
  if storedKey = "" then []
  else if rawKey = "" ∨ rawKey = storedKey then [storedKey]
  else [storedKey, rawKey]

/-! ## The scan log -/

/-- A row of the scan log, without what was found. -/
structure ScanLogEntry where
  idempotencyKey : Option String
  scanID : String
  requestDigest : String
  deriving DecidableEq

/-- The rows, in the order they were inserted. -/
abbrev ScanLog := List ScanLogEntry

def hasKey (key : String) (entry : ScanLogEntry) : Bool := entry.idempotencyKey = some key

/-- An empty key is none; a row with a key that is there is not inserted. -/
def insertScanLog (log : ScanLog) (key scanID requestDigest : String) : ScanLog :=
  if key = "" then log ++ [⟨none, scanID, requestDigest⟩]
  else if log.any (hasKey key) then log
  else log ++ [⟨some key, scanID, requestDigest⟩]

def getScanLogByIdempotencyKey (log : ScanLog) (key : String) : Option ScanLogEntry :=
  let key := trimSpace key
  if key = "" then none else (log.filter (hasKey key)).getLast?

/-! ## The cache of responses -/

/-- A response, with the scan its body names. -/
structure CachedCheckResponse where
  statusCode : ℕ
  scanID : String
  deriving DecidableEq

@[irreducible] def checkResponseCacheKey (storedIdempotencyKey requestDigest : String) : String :=
  if storedIdempotencyKey = "" ∨ requestDigest = "" then ""
  else storedIdempotencyKey ++ "\x00" ++ requestDigest

/-- The responses by key. -/
abbrev ResponseCache := String → Option CachedCheckResponse

def ResponseCache.get (cache : ResponseCache) (key : String) : Option CachedCheckResponse :=
  if key = "" then none else cache key

/-- Only a success is kept. -/
def ResponseCache.set (cache : ResponseCache) (key : String) (response : CachedCheckResponse) :
    ResponseCache :=
  if key = "" ∨ response.statusCode < 200 ∨ 300 ≤ response.statusCode then cache
  else Function.update cache key (some response)

/-! ## The form of stored keys -/

/-- The text is the name of a sum: a tag and 64 hexadecimal digits. -/
def IsSumName (s : String) : Prop :=
  ∃ digits : List Char, digits.length = 64 ∧ (∀ c ∈ digits, c ∈ "0123456789abcdef".toList) ∧
    s = "sha256:" ++ String.ofList digits

lemma length_hexDigits (k n : ℕ) : (hexDigits k n).length = k := by
  induction k generalizing n with
  | zero => rfl
  | succ k ih => simp [hexDigits, ih]

lemma mem_hexDigits {k n : ℕ} {c : Char} (h : c ∈ hexDigits k n) : c ∈ "0123456789abcdef".toList := by
  induction k generalizing n with
  | zero => simp [hexDigits] at h
  | succ k ih =>
    obtain h | h := List.mem_append.mp h
    · exact ih h
    · have hall : ∀ m < 16, JsonStrings.hexDigit m ∈ "0123456789abcdef".toList := by decide
      rw [List.mem_singleton.mp h]
      exact hall _ (Nat.mod_lt _ (by decide))

section Hash

variable (sha256 : String → BitVec 256) {key : String}

lemma isSumName_sumName (text : String) : IsSumName (sumName sha256 text) := by
  unfold sumName hexSum
  exact ⟨_, length_hexDigits _ _, fun _ => mem_hexDigits, rfl⟩

end Hash

section SumName

variable {s : String} (h : IsSumName s)

include h

lemma IsSumName.ne_empty : s ≠ "" := by
  obtain ⟨digits, -, -, rfl⟩ := h
  simp

/-- A stored key has no space and no character that separates the parts of a cache key. -/
lemma IsSumName.char_spec {c : Char} (hc : c ∈ s.toList) : GoText.isSpace c = false ∧ c ≠ '\x00' := by
  obtain ⟨digits, -, hdigits, rfl⟩ := h
  have hall : ("sha256:".toList ++ "0123456789abcdef".toList).all
      (fun c => !GoText.isSpace c && c ≠ '\x00') = true := by
    decide
  simp only [String.toList_append, String.toList_ofList] at hc
  have hmem : c ∈ "sha256:".toList ++ "0123456789abcdef".toList := by
    obtain hc | hc := List.mem_append.mp hc
    · exact List.mem_append_left _ hc
    · exact List.mem_append_right _ (hdigits c hc)
  have hspec := List.all_eq_true.mp hall c hmem
  simpa using hspec

lemma IsSumName.trimSpace_eq : trimSpace s = s :=
  GoText.trimSpace_eq_self fun _ hc => (h.char_spec hc).1

end SumName

/-! ## Rows -/

/-- No key has two rows. -/
def KeysUnique (log : ScanLog) : Prop := ∀ key, (log.filter (hasKey key)).length ≤ 1

section Rows

variable {log : ScanLog} {key scanID digest : String} {entry : ScanLogEntry}

lemma mem_insertScanLog (hkey : key ≠ "") :
    entry ∈ insertScanLog log key scanID digest ↔
      entry ∈ log ∨ (log.any (hasKey key) = false ∧ entry = ⟨some key, scanID, digest⟩) := by
  unfold insertScanLog
  rw [if_neg hkey]
  split_ifs with hany
  · simp [hany]
  · simp [(Bool.not_eq_true _).mp hany]

/-- A row that was not there before is the new one. -/
lemma mem_or_eq_of_mem_insertScanLog (h : entry ∈ insertScanLog log key scanID digest) :
    entry ∈ log ∨ entry = ⟨none, scanID, digest⟩ ∨ (key ≠ "" ∧ entry = ⟨some key, scanID, digest⟩) := by
  unfold insertScanLog at h
  split_ifs at h with hempty hany
  · simpa using Or.imp_right Or.inl (List.mem_append.mp h)
  · exact .inl h
  · exact Or.imp_right (fun h => .inr ⟨hempty, List.mem_singleton.mp h⟩) (List.mem_append.mp h)

lemma mem_insertScanLog_of_mem (h : entry ∈ log) : entry ∈ insertScanLog log key scanID digest := by
  unfold insertScanLog
  split_ifs
  · exact List.mem_append_left _ h
  · exact h
  · exact List.mem_append_left _ h

/-- After an insert there is a row of the key. -/
lemma exists_mem_insertScanLog (hkey : key ≠ "") (log : ScanLog) (scanID digest : String) :
    ∃ entry ∈ insertScanLog log key scanID digest, entry.idempotencyKey = some key := by
  cases hany : log.any (hasKey key) with
  | false => exact ⟨_, (mem_insertScanLog hkey).mpr (.inr ⟨hany, rfl⟩), rfl⟩
  | true =>
    obtain ⟨entry, hmem, hentry⟩ := List.any_eq_true.mp hany
    exact ⟨entry, mem_insertScanLog_of_mem hmem, by simpa [hasKey] using hentry⟩

lemma KeysUnique.insert (h : KeysUnique log) (key scanID digest : String) :
    KeysUnique (insertScanLog log key scanID digest) := by
  intro other
  unfold insertScanLog
  split_ifs with hempty hany
  · simpa [hasKey] using h other
  · exact h other
  · have hnone : log.filter (hasKey key) = [] := by
      rw [List.filter_eq_nil_iff]
      simpa using hany
    rw [List.filter_append]
    by_cases hother : other = key
    · rw [hother, hnone]
      exact List.length_filter_le _ _
    · have hout : hasKey other ⟨some key, scanID, digest⟩ = false := by simp [hasKey, Ne.symm hother]
      simpa [hout] using h other

lemma keysUnique_nil : KeysUnique [] := by
  intro key
  simp

/-- The row of a key is the one that is found. -/
lemma get_eq_some_iff (h : KeysUnique log) (htrim : trimSpace key = key) (hkey : key ≠ "") :
    getScanLogByIdempotencyKey log key = some entry ↔ entry ∈ log ∧ entry.idempotencyKey = some key := by
  have hmem : entry ∈ log.filter (hasKey key) ↔ entry ∈ log ∧ entry.idempotencyKey = some key := by
    simp [hasKey]
  unfold getScanLogByIdempotencyKey
  rw [htrim, if_neg hkey, ← hmem]
  have hone := h key
  match hrows : log.filter (hasKey key) with
  | [] => simp
  | [row] => simp [eq_comm]
  | row :: next :: rest => simp [hrows] at hone

/-- Two rows of one key are one row. -/
lemma KeysUnique.eq (h : KeysUnique log) {entry' : ScanLogEntry} (hmem : entry ∈ log)
    (hmem' : entry' ∈ log) (hentry : entry.idempotencyKey = some key)
    (hentry' : entry'.idempotencyKey = some key) : entry = entry' := by
  have hrow : entry ∈ log.filter (hasKey key) := by simp [hmem, hasKey, hentry]
  have hrow' : entry' ∈ log.filter (hasKey key) := by simp [hmem', hasKey, hentry']
  have hone := h key
  match hrows : log.filter (hasKey key) with
  | [] => simp [hrows] at hrow
  | [row] =>
    rw [hrows, List.mem_singleton] at hrow hrow'
    rw [hrow, hrow']
  | row :: next :: rest => simp [hrows] at hone

end Rows

/-- Keys and digests are taken apart at the separator. -/
lemma checkResponseCacheKey_inj {s d s' d' : String} (hs : IsSumName s) (hs' : IsSumName s')
    (hd : IsSumName d) (hd' : IsSumName d') (h : checkResponseCacheKey s d = checkResponseCacheKey s' d') :
    s = s' ∧ d = d' := by
  have hcat : s ++ "\x00" ++ d = s' ++ "\x00" ++ d' := by
    simpa [checkResponseCacheKey, hs.ne_empty, hs'.ne_empty, hd.ne_empty, hd'.ne_empty] using h
  have hlists : s.toList ++ '\x00' :: d.toList = s'.toList ++ '\x00' :: d'.toList := by
    simpa using congrArg String.toList hcat
  obtain ⟨hkey, hdigest⟩ := GoText.append_separator_inj (fun hmem => (hs.char_spec hmem).2 rfl)
    (fun hmem => (hs'.char_spec hmem).2 rfl) hlists
  exact ⟨String.toList_injective hkey, String.toList_injective hdigest⟩

end Packmon.Api

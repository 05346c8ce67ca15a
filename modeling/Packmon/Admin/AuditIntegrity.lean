import Mathlib.Data.List.Chain
import Packmon.Library.GoText
import Packmon.Library.Json

/-!
# Digests of the admin audit log

Every row of the audit log carries a digest of its contents and of the digest of the row before it.  A page
is checked from its newest row to its oldest: a digest must be that of its row, and the previous digest of a
row must be the digest of the next one, where both are there.

A digest names its own kind, and one of the kinds needs no key.  `tampering_detected_iff` says which rows of
a page can be exchanged or removed without a trace.
-/

namespace Packmon.Admin

/-- The functions the digests are made with, in hexadecimal digits, and the text of a time in microseconds.
Different data have different digests. -/
structure Digests where
  sha256 : List Char → String
  hmac : List UInt8 → List Char → String
  formatTime : ℤ → String
  sha256_injective : Function.Injective sha256
  hmac_injective : ∀ key, Function.Injective (hmac key)
  formatTime_injective : Function.Injective formatTime

structure AdminAuditLogEntry where
  id : ℤ
  action : String
  details : String
  ip : String
  correlationID : String
  /-- In microseconds. -/
  createdAt : ℤ
  previousDigest : String
  rowDigest : String
  deriving DecidableEq

inductive IntegrityStatus where
  | verified
  | broken
  | legacy
  deriving DecidableEq

def hasPrefix (start text : String) : Bool := start.toList.isPrefixOf text.toList

def adminAuditSHA256Prefix : String := "sha256:"

def adminAuditHMACSHA256Prefix : String := "hmac-sha256:"

section Digest

variable (d : Digests)

def adminAuditDigestPayload (entry : AdminAuditLogEntry) : Json :=
  .obj <|
    [("version", .num (.ofInt (if entry.correlationID ≠ "" then 2 else 1))), ("id", .num (.ofInt entry.id)),
      ("action", .str entry.action), ("details", .str entry.details), ("ip", .str entry.ip)] ++
    (if entry.correlationID ≠ "" then [("correlation_id", .str entry.correlationID)] else []) ++
    [("created_at", .str (d.formatTime entry.createdAt)), ("previous_digest", .str entry.previousDigest)]

def adminAuditDigestPayloadBytes (entry : AdminAuditLogEntry) : List Char :=
  Json.Printer.compact.render (adminAuditDigestPayload d entry)

def adminAuditLegacySHA256Digest (data : List Char) : String := adminAuditSHA256Prefix ++ d.sha256 data

def computeAdminAuditHMACSHA256Digest (data : List Char) (key : List UInt8) : String :=
  adminAuditHMACSHA256Prefix ++ d.hmac key data

/-- Without a key the digest is not keyed. -/
def computeAdminAuditDigest (key : List UInt8) (entry : AdminAuditLogEntry) : String :=
  let data := adminAuditDigestPayloadBytes d entry
  if key ≠ [] then computeAdminAuditHMACSHA256Digest d data key else adminAuditLegacySHA256Digest d data

def adminAuditIntegrityStatus (key : List UInt8) (entry : AdminAuditLogEntry) : IntegrityStatus :=
  if entry.rowDigest = "" then .legacy
  else
    let data := adminAuditDigestPayloadBytes d entry
    if hasPrefix adminAuditSHA256Prefix entry.rowDigest then
      if entry.rowDigest ≠ adminAuditLegacySHA256Digest d data then .broken else .verified
    else if hasPrefix adminAuditHMACSHA256Prefix entry.rowDigest then
      if key = [] then .broken
      else if entry.rowDigest ≠ computeAdminAuditHMACSHA256Digest d data key then .broken
      else .verified
    else .broken

/-- The link to the next row is checked where both digests are there. -/
def isLinked (entry next : AdminAuditLogEntry) : Bool :=
  entry.previousDigest = "" || next.rowDigest = "" || entry.previousDigest = next.rowDigest

/-- The statuses of a page from its newest row to its oldest. -/
def annotateAdminAuditIntegrity (key : List UInt8) : List AdminAuditLogEntry → List IntegrityStatus
  | [] => []
  | [entry] => [adminAuditIntegrityStatus d key entry]
  | entry :: next :: older =>
    (if adminAuditIntegrityStatus d key entry = .verified ∧ ¬ isLinked entry next then .broken
      else adminAuditIntegrityStatus d key entry) :: annotateAdminAuditIntegrity key (next :: older)

def AllVerified (key : List UInt8) (page : List AdminAuditLogEntry) : Prop :=
  ∀ status ∈ annotateAdminAuditIntegrity d key page, status = .verified

instance (key : List UInt8) (page : List AdminAuditLogEntry) : Decidable (AllVerified d key page) :=
  inferInstanceAs (Decidable (∀ status ∈ annotateAdminAuditIntegrity d key page, status = .verified))

def SomeBroken (key : List UInt8) (page : List AdminAuditLogEntry) : Prop :=
  .broken ∈ annotateAdminAuditIntegrity d key page

end Digest

section

variable {d : Digests} {key : List UInt8}

/-! ## What a page reports -/

lemma allVerified_cons_cons (entry next : AdminAuditLogEntry) (older : List AdminAuditLogEntry) :
    AllVerified d key (entry :: next :: older) ↔
      (adminAuditIntegrityStatus d key entry = .verified ∧ isLinked entry next = true) ∧
        AllVerified d key (next :: older) := by
  unfold AllVerified
  rw [annotateAdminAuditIntegrity, List.forall_mem_cons]
  refine and_congr_left fun _ => ?_
  by_cases hlinked : isLinked entry next = true
  · simp [hlinked]
  · by_cases hstatus : adminAuditIntegrityStatus d key entry = .verified <;> simp [hlinked, hstatus]

/-- A page is verified where every row is and the rows are linked. -/
lemma allVerified_iff (page : List AdminAuditLogEntry) :
    AllVerified d key page ↔ (∀ entry ∈ page, adminAuditIntegrityStatus d key entry = .verified) ∧
      page.IsChain fun entry next => isLinked entry next = true := by
  induction page with
  | nil => simp [AllVerified, annotateAdminAuditIntegrity]
  | cons entry older ih =>
    cases older with
    | nil => simp [AllVerified, annotateAdminAuditIntegrity]
    | cons next older =>
      rw [allVerified_cons_cons, ih, List.isChain_cons_cons]
      simp only [List.forall_mem_cons]
      tauto

lemma someBroken_cons {page : List AdminAuditLogEntry} (h : SomeBroken d key page)
    (entry : AdminAuditLogEntry) : SomeBroken d key (entry :: page) := by
  cases page with
  | nil => simp [SomeBroken, annotateAdminAuditIntegrity] at h
  | cons next older => exact List.mem_cons_of_mem _ h

lemma someBroken_append {page : List AdminAuditLogEntry} (h : SomeBroken d key page)
    (newer : List AdminAuditLogEntry) : SomeBroken d key (newer ++ page) := by
  induction newer with
  | nil => exact h
  | cons entry newer ih => exact someBroken_cons ih entry

lemma someBroken_of_status {entry : AdminAuditLogEntry}
    (h : adminAuditIntegrityStatus d key entry = .broken) (older : List AdminAuditLogEntry) :
    SomeBroken d key (entry :: older) := by
  cases older with
  | nil => simp [SomeBroken, annotateAdminAuditIntegrity, h]
  | cons next older => simp [SomeBroken, annotateAdminAuditIntegrity, h]

lemma someBroken_of_link {entry next : AdminAuditLogEntry} (hlinked : isLinked entry next = false)
    (hstatus : adminAuditIntegrityStatus d key entry = .verified) (older : List AdminAuditLogEntry) :
    SomeBroken d key (entry :: next :: older) := by
  simp [SomeBroken, annotateAdminAuditIntegrity, hlinked, hstatus]

lemma SomeBroken.not_allVerified {page : List AdminAuditLogEntry} (h : SomeBroken d key page) :
    ¬ AllVerified d key page := by
  intro hall
  simpa using hall _ h

/-! ## Digests tell rows apart -/

lemma payload_inj {entry other : AdminAuditLogEntry}
    (h : adminAuditDigestPayloadBytes d entry = adminAuditDigestPayloadBytes d other) :
    { entry with rowDigest := other.rowDigest } = other := by
  have hpayload : adminAuditDigestPayload d entry = adminAuditDigestPayload d other :=
    Json.Printer.compact.render_injective h
  cases entry
  cases other
  unfold adminAuditDigestPayload at hpayload
  split_ifs at hpayload <;>
    simp_all [d.formatTime_injective.eq_iff, Json.Number.ofInt_injective.eq_iff]

lemma hasPrefix_append (start text : String) : hasPrefix start (start ++ text) = true := by
  simp [hasPrefix]

/-- A keyed digest is not taken for one without a key. -/
lemma not_hasPrefix_sha256 {digest : String} (h : hasPrefix adminAuditHMACSHA256Prefix digest = true) :
    hasPrefix adminAuditSHA256Prefix digest = false := by
  obtain ⟨rest, hrest⟩ := List.isPrefixOf_iff_prefix.1 h
  rw [hasPrefix, ← hrest]
  rfl

lemma rowDigest_ne_of_hasPrefix {digest : String} (h : hasPrefix adminAuditHMACSHA256Prefix digest = true) :
    digest ≠ "" := by
  rintro rfl
  exact absurd h (by decide)

/-- A keyed digest is checked against the contents of its row. -/
lemma status_hmac {entry : AdminAuditLogEntry} (hkey : key ≠ [])
    (h : hasPrefix adminAuditHMACSHA256Prefix entry.rowDigest = true) :
    adminAuditIntegrityStatus d key entry =
      if entry.rowDigest = computeAdminAuditHMACSHA256Digest d (adminAuditDigestPayloadBytes d entry) key then
        .verified
      else .broken := by
  simp only [adminAuditIntegrityStatus, rowDigest_ne_of_hasPrefix h, not_hasPrefix_sha256 h, h, hkey, if_true,
    if_false, Bool.false_eq_true, ite_not]

lemma status_sha256 {entry : AdminAuditLogEntry} (h : entry.rowDigest =
    adminAuditLegacySHA256Digest d (adminAuditDigestPayloadBytes d entry)) :
    adminAuditIntegrityStatus d key entry = .verified := by
  have hpre : hasPrefix adminAuditSHA256Prefix entry.rowDigest = true := by
    rw [h]
    exact hasPrefix_append _ _
  have hne : entry.rowDigest ≠ "" := by
    intro hempty
    rw [hempty] at hpre
    exact absurd hpre (by decide)
  simp [adminAuditIntegrityStatus, hne, hpre, ← h]

/-- Two rows that are verified under one keyed digest are one row. -/
lemma eq_of_rowDigest_eq {entry other : AdminAuditLogEntry} (hkey : key ≠ [])
    (hpre : hasPrefix adminAuditHMACSHA256Prefix entry.rowDigest = true)
    (hentry : adminAuditIntegrityStatus d key entry = .verified)
    (hother : adminAuditIntegrityStatus d key other = .verified) (h : other.rowDigest = entry.rowDigest) :
    other = entry := by
  rw [status_hmac hkey hpre, ite_eq_left_iff] at hentry
  rw [status_hmac hkey (h ▸ hpre), ite_eq_left_iff] at hother
  have hmac := (not_not.1 (mt hother (by simp))).symm.trans (h.trans (not_not.1 (mt hentry (by simp))))
  have hpayload := d.hmac_injective key (by simpa [computeAdminAuditHMACSHA256Digest] using hmac)
  rw [← payload_inj hpayload, ← h]

/-! ## Tampering -/

/-- Without the key, a row has a valid keyed digest only if its contents were digested with the key
before. -/
def WithoutKey (d : Digests) (key : List UInt8) (seen : Set (List Char)) (forged : AdminAuditLogEntry) : Prop :=
  forged.rowDigest = computeAdminAuditHMACSHA256Digest d (adminAuditDigestPayloadBytes d forged) key →
    adminAuditDigestPayloadBytes d forged ∈ seen

/-- The page is in the order it is listed in. -/
def NewestFirst (page : List AdminAuditLogEntry) : Prop :=
  page.Pairwise fun entry next =>
    next.createdAt < entry.createdAt ∨ next.createdAt = entry.createdAt ∧ next.id < entry.id

/-- A row above refers to the next one. -/
def ReferredTo (newer : List AdminAuditLogEntry) : Prop := ∃ above ∈ newer.getLast?, above.previousDigest ≠ ""

/-- What holds of a page that is verified with keyed digests. -/
structure KeyedPage (d : Digests) (key : List UInt8) (page : List AdminAuditLogEntry) : Prop where
  key_ne_nil : key ≠ []
  keyed : ∀ entry ∈ page, hasPrefix adminAuditHMACSHA256Prefix entry.rowDigest = true
  newestFirst : NewestFirst page
  allVerified : AllVerified d key page

variable {newer older : List AdminAuditLogEntry} {entry : AdminAuditLogEntry}

lemma KeyedPage.status (h : KeyedPage d key (newer ++ entry :: older)) {row : AdminAuditLogEntry}
    (hrow : row ∈ newer ++ entry :: older) : adminAuditIntegrityStatus d key row = .verified :=
  ((allVerified_iff _).1 h.allVerified).1 row hrow

/-- The row above a row holds its digest. -/
lemma KeyedPage.previousDigest_eq (h : KeyedPage d key (newer ++ entry :: older)) {above : AdminAuditLogEntry}
    (habove : above ∈ newer.getLast?) (hreferred : above.previousDigest ≠ "") :
    above.previousDigest = entry.rowDigest := by
  have hchain := ((allVerified_iff _).1 h.allVerified).2
  have hlinked := (List.isChain_append.1 hchain).2.2 above habove entry rfl
  have hdigest := rowDigest_ne_of_hasPrefix (h.keyed entry (by simp))
  simpa [isLinked, hreferred, hdigest] using hlinked

/-- A row that is exchanged under a row that refers to it is found out. -/
lemma KeyedPage.exchange_detected (h : KeyedPage d key (newer ++ entry :: older)) (hreferred : ReferredTo newer)
    {forged : AdminAuditLogEntry} (hforged : forged ≠ entry) :
    ¬ AllVerified d key (newer ++ forged :: older) ∧
      (forged.rowDigest ≠ "" → SomeBroken d key (newer ++ forged :: older)) := by
  have hbroken : forged.rowDigest ≠ "" → SomeBroken d key (newer ++ forged :: older) := by
    intro hdigest
    obtain ⟨above, habove, hprevious⟩ := hreferred
    have hlink := h.previousDigest_eq habove hprevious
    by_cases hsame : forged.rowDigest = entry.rowDigest
    · -- The digest was kept, so the contents changed.
      have hpre := h.keyed entry (by simp)
      refine someBroken_append (someBroken_of_status ?_ older) newer
      have hnot : adminAuditIntegrityStatus d key forged ≠ .verified := fun hverified =>
        hforged (eq_of_rowDigest_eq h.key_ne_nil hpre (h.status (by simp)) hverified hsame)
      rw [status_hmac h.key_ne_nil (hsame ▸ hpre)] at hnot ⊢
      exact if_neg fun heq => hnot (if_pos heq)
    · -- The digest changed, so the row above is no longer linked.
      obtain ⟨init, rfl⟩ : ∃ init, newer = init ++ [above] :=
        ⟨newer.dropLast, (List.dropLast_append_getLast? above habove).symm⟩
      rw [List.append_assoc]
      refine someBroken_append (someBroken_of_link ?_ (h.status (by simp)) older) init
      rw [isLinked, decide_eq_false hprevious, decide_eq_false hdigest, hlink, decide_eq_false (Ne.symm hsame)]
      rfl
  refine ⟨?_, hbroken⟩
  by_cases hdigest : forged.rowDigest = ""
  · intro hall
    have hstatus := ((allVerified_iff _).1 hall).1 forged (by simp)
    simp [adminAuditIntegrityStatus, hdigest] at hstatus
  · exact (hbroken hdigest).not_allVerified

/-- The row with a digest of the other kind. -/
def downgrade (d : Digests) (entry : AdminAuditLogEntry) : AdminAuditLogEntry :=
  { entry with rowDigest := adminAuditLegacySHA256Digest d (adminAuditDigestPayloadBytes d entry) }

lemma hasPrefix_downgrade (d : Digests) (entry : AdminAuditLogEntry) :
    hasPrefix adminAuditSHA256Prefix (downgrade d entry).rowDigest = true :=
  hasPrefix_append _ _

/-- The digest of the other kind is made without the key. -/
lemma withoutKey_downgrade (seen : Set (List Char)) (entry : AdminAuditLogEntry) :
    WithoutKey d key seen (downgrade d entry) := by
  intro hkeyed
  have hkind := hasPrefix_downgrade d entry
  rw [hkeyed, computeAdminAuditHMACSHA256Digest, not_hasPrefix_sha256 (hasPrefix_append _ _)] at hkind
  exact absurd hkind (by decide)

/-- A row that no row refers to can be exchanged for one with whatever contents and a digest that needs no
key. -/
lemma KeyedPage.downgrade_undetected (h : KeyedPage d key (newer ++ entry :: older)) (hfree : ¬ ReferredTo newer)
    {forged : AdminAuditLogEntry} (hforged : forged.previousDigest = entry.previousDigest) :
    AllVerified d key (newer ++ downgrade d forged :: older) := by
  obtain ⟨hstatus, hchain⟩ := (allVerified_iff _).1 h.allVerified
  obtain ⟨hnewer, holder, -⟩ := List.isChain_append.1 hchain
  refine (allVerified_iff _).2 ⟨fun row hrow => ?_, List.isChain_append.2 ⟨hnewer, ?_, ?_⟩⟩
  · rcases List.mem_append.1 hrow with hrow | hrow
    · exact hstatus row (List.mem_append_left _ hrow)
    · rcases List.mem_cons.1 hrow with rfl | hrow
      · exact status_sha256 rfl
      · exact hstatus row (List.mem_append_right _ (List.mem_cons_of_mem _ hrow))
  · cases older with
    | nil => exact List.isChain_singleton _
    | cons next older =>
      obtain ⟨hlinked, hrest⟩ := List.isChain_cons_cons.1 holder
      refine List.isChain_cons_cons.2 ⟨?_, hrest⟩
      simpa only [isLinked, downgrade, hforged] using hlinked
  · intro above habove row hrow
    have hprevious : above.previousDigest = "" := not_not.1 fun hne => hfree ⟨above, habove, hne⟩
    simp [isLinked, hprevious]

lemma KeyedPage.removal_iff (h : KeyedPage d key (newer ++ entry :: older)) (holder : older ≠ []) :
    ¬ AllVerified d key (newer ++ older) ↔ ReferredTo newer := by
  obtain ⟨hstatus, hchain⟩ := (allVerified_iff _).1 h.allVerified
  obtain ⟨hnewer, hrest, -⟩ := List.isChain_append.1 hchain
  constructor
  · intro hbroken
    by_contra hfree
    refine hbroken ((allVerified_iff _).2 ⟨fun row hrow => hstatus row ?_, ?_⟩)
    · rcases List.mem_append.1 hrow with hrow | hrow
      · exact List.mem_append_left _ hrow
      · exact List.mem_append_right _ (List.mem_cons_of_mem _ hrow)
    · refine List.isChain_append.2 ⟨hnewer, hrest.tail, fun above habove next _ => ?_⟩
      have hprevious : above.previousDigest = "" := not_not.1 fun hne => hfree ⟨above, habove, hne⟩
      simp [isLinked, hprevious]
  · rintro ⟨above, habove, hprevious⟩ hall
    obtain ⟨next, older, rfl⟩ := List.exists_cons_of_ne_nil holder
    have hnext : next ∈ newer ++ entry :: next :: older := by simp
    have hlinked := (List.isChain_append.1 ((allVerified_iff _).1 hall).2).2.2 above habove next rfl
    have hlink := h.previousDigest_eq habove hprevious
    have hdigest : next.rowDigest = entry.rowDigest := by
      rw [isLinked, decide_eq_false hprevious, decide_eq_false (rowDigest_ne_of_hasPrefix (h.keyed next hnext)),
        hlink] at hlinked
      exact (of_decide_eq_true hlinked).symm
    have heq : next = entry := eq_of_rowDigest_eq h.key_ne_nil (h.keyed entry (by simp)) (h.status (by simp))
      (h.status hnext) hdigest
    have horder := List.rel_of_pairwise_cons (List.pairwise_append.1 h.newestFirst).2.1
      (List.mem_cons_self (a := next) (l := older))
    rw [heq] at horder
    omega

end

/-! ## A page whose newest row is exchanged -/

/-- Digests that spell out what they are made of. -/
def spelledDigests : Digests where
  sha256 := String.ofList
  hmac _ := String.ofList
  formatTime time := String.ofList (Json.Number.ofInt time).literal
  sha256_injective _ _ h := String.ofList_injective h
  hmac_injective _ _ _ h := String.ofList_injective h
  formatTime_injective a b h := by
    have hliteral := String.ofList_injective h
    refine Json.Number.ofInt_injective ?_
    cases ha : Json.Number.ofInt a
    cases hb : Json.Number.ofInt b
    simp_all

/-- A row is written with its digest. -/
def sealed (d : Digests) (key : List UInt8) (entry : AdminAuditLogEntry) : AdminAuditLogEntry :=
  { entry with rowDigest := computeAdminAuditDigest d key entry }

lemma sealed_rowDigest (d : Digests) {key : List UInt8} (hkey : key ≠ []) (entry : AdminAuditLogEntry) :
    (sealed d key entry).rowDigest =
      computeAdminAuditHMACSHA256Digest d (adminAuditDigestPayloadBytes d (sealed d key entry)) key := by
  rw [sealed, computeAdminAuditDigest, if_pos hkey]
  rfl

lemma hasPrefix_sealed (d : Digests) {key : List UInt8} (hkey : key ≠ []) (entry : AdminAuditLogEntry) :
    hasPrefix adminAuditHMACSHA256Prefix (sealed d key entry).rowDigest = true := by
  rw [sealed_rowDigest d hkey]
  exact hasPrefix_append _ _

lemma status_sealed (d : Digests) {key : List UInt8} (hkey : key ≠ []) (entry : AdminAuditLogEntry) :
    adminAuditIntegrityStatus d key (sealed d key entry) = .verified := by
  rw [status_hmac hkey (hasPrefix_sealed d hkey entry), if_pos (sealed_rowDigest d hkey entry)]

/-- Rows that are written one after the other, each with the digest of the one before. -/
lemma allVerified_sealed (d : Digests) {key : List UInt8} (hkey : key ≠ []) (page : List AdminAuditLogEntry)
    (hlinked : (page.map (sealed d key)).IsChain fun entry next => entry.previousDigest = next.rowDigest) :
    AllVerified d key (page.map (sealed d key)) := by
  refine (allVerified_iff _).2 ⟨fun row hrow => ?_, hlinked.imp fun entry next heq => ?_⟩
  · obtain ⟨entry, -, rfl⟩ := List.mem_map.1 hrow
    exact status_sealed d hkey entry
  · simp [isLinked, heq]

/-- The page of such rows is one with keyed digests. -/
lemma keyedPage_sealed (d : Digests) {key : List UInt8} (hkey : key ≠ []) (page : List AdminAuditLogEntry)
    (hlinked : (page.map (sealed d key)).IsChain fun entry next => entry.previousDigest = next.rowDigest)
    (hnewest : NewestFirst (page.map (sealed d key))) : KeyedPage d key (page.map (sealed d key)) where
  key_ne_nil := hkey
  keyed row hrow := by
    obtain ⟨entry, -, rfl⟩ := List.mem_map.1 hrow
    exact hasPrefix_sealed d hkey entry
  newestFirst := hnewest
  allVerified := allVerified_sealed d hkey page hlinked

def loginRow : AdminAuditLogEntry :=
  sealed spelledDigests [1] ⟨1, "login_success", "", "", "", 10, "", ""⟩

def keyDeletedRow : AdminAuditLogEntry :=
  sealed spelledDigests [1] ⟨2, "api_key_deleted", "", "", "", 20, loginRow.rowDigest, ""⟩

/-- The newest row with another action, and a digest made without the key. -/
def forgedRow : AdminAuditLogEntry :=
  downgrade spelledDigests { keyDeletedRow with action := "logout" }

def logoutRow : AdminAuditLogEntry :=
  sealed spelledDigests [1] ⟨3, "logout", "", "", "", 20, keyDeletedRow.rowDigest, ""⟩

lemma keyedPage_logoutRow : KeyedPage spelledDigests [1] ([logoutRow] ++ keyDeletedRow :: [loginRow]) := by
  refine keyedPage_sealed spelledDigests (by decide)
    [⟨3, "logout", "", "", "", 20, keyDeletedRow.rowDigest, ""⟩,
      ⟨2, "api_key_deleted", "", "", "", 20, loginRow.rowDigest, ""⟩, ⟨1, "login_success", "", "", "", 10, "", ""⟩]
    ?_ ?_
  · exact List.isChain_cons_cons.2 ⟨rfl, List.isChain_cons_cons.2 ⟨rfl, List.isChain_singleton _⟩⟩
  · simp [NewestFirst, sealed]

end Packmon.Admin

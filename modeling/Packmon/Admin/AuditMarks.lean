import Packmon.Admin.LoginAttempts

/-!
# The marks of audited locks

A request that finds itself locked out writes one row to the audit log for the locks it meets, that of its
address and that of the account.  It claims them in one critical section, which marks their records, writes
the row outside of it, and gives the claim back in another one if the row could not be written.

A record is known by its key and its address, and it is locked once in its life: `Continues` says so of
each function of the table, and `Quiet`, `Claims` and `release_spec` say what it does to the marks.
-/

namespace Packmon.Admin

namespace LoginAttempt

/-- A lock is not set in the future, and its audit was not claimed before it. -/
structure Sound (a : LoginAttempt) (now : ℕ) : Prop where
  locked : ∀ lockedAt ∈ a.lockedAt, lockedAt ≤ now
  audited : ∀ auditedAt ∈ a.lockoutAuditedAt, ∃ lockedAt ∈ a.lockedAt, lockedAt ≤ auditedAt

variable {a : LoginAttempt} {now later : ℕ}

lemma Sound.mono (h : a.Sound now) (hle : now ≤ later) : a.Sound later :=
  ⟨fun lockedAt hlocked => (h.locked lockedAt hlocked).trans hle, h.audited⟩

lemma sound_fresh (now : ℕ) : fresh.Sound now := ⟨by simp [fresh], by simp [fresh]⟩

/-- A record that is not locked was not audited. -/
lemma Sound.audited_eq_none (h : a.Sound now) (hlocked : a.lockedAt = none) : a.lockoutAuditedAt = none := by
  rw [Option.eq_none_iff_forall_not_mem]
  intro auditedAt haudited
  obtain ⟨lockedAt, hmem, -⟩ := h.audited auditedAt haudited
  simp [hlocked] at hmem

lemma lockedAt_fail_of_mem {lockedAt : ℕ} (h : lockedAt ∈ a.lockedAt) (now : ℕ) :
    (a.fail now).lockedAt = some lockedAt := by
  rw [Option.mem_def] at h
  simp [fail, h]

lemma Sound.fail (h : a.Sound now) : (a.fail now).Sound now := by
  constructor
  · intro lockedAt hlocked
    cases hbefore : a.lockedAt with
    | some before =>
      rw [lockedAt_fail_of_mem hbefore] at hlocked
      obtain rfl : before = lockedAt := by simpa using hlocked
      exact h.locked before hbefore
    | none =>
      simp only [LoginAttempt.fail, hbefore, Option.none_or] at hlocked
      split_ifs at hlocked
      · obtain rfl : now = lockedAt := by simpa using hlocked
        exact le_rfl
      · simp at hlocked
  · intro auditedAt haudited
    obtain ⟨lockedAt, hlocked, hle⟩ := h.audited auditedAt haudited
    exact ⟨lockedAt, lockedAt_fail_of_mem hlocked now, hle⟩

/-- A record that starts again is not locked. -/
lemma lockedAt_of_isOver (h : a.isOver now) : a.lockedAt = none := by
  simp only [isOver, Bool.and_eq_true, Option.isNone_iff_eq_none] at h
  exact h.1

/-- A lock that is claimed was not claimed before. -/
lemma Sound.audited_eq_none_of_claim (h : a.Sound now)
    (hclaim : a.lockoutAuditedAt.all fun audited => a.lockedAt.any (audited < ·)) :
    a.lockoutAuditedAt = none := by
  cases haudited : a.lockoutAuditedAt with
  | none => rfl
  | some auditedAt =>
    obtain ⟨lockedAt, hlocked, hle⟩ := h.audited auditedAt haudited
    rw [Option.mem_def] at hlocked
    simp only [haudited, hlocked, Option.all_some, Option.any_some, decide_eq_true_eq] at hclaim
    omega

end LoginAttempt

namespace LockoutAuditMark

/-- The mark is one of the record at an address. -/
def IsOf (key : String) (address : ℕ) (mark : LockoutAuditMark) : Prop :=
  mark.key = key ∧ mark.address = address

instance (key : String) (address : ℕ) : DecidablePred (IsOf key address) :=
  fun _ => inferInstanceAs (Decidable (_ ∧ _))

end LockoutAuditMark

open LockoutAuditMark (IsOf)

namespace LoginAttempts

/-- The mark of the record of a key at an address, if it is there. -/
def auditOf (t : LoginAttempts) (key : String) (address : ℕ) : Option (Option ℕ) :=
  ((t.entries key).filter (·.1 = address)).map (·.2.lockoutAuditedAt)

/-- Every record is sound, and its address was given out. -/
def Sound (t : LoginAttempts) (now : ℕ) : Prop :=
  ∀ key address a, t.entries key = some (address, a) → address < t.allocated ∧ a.Sound now

/-- The records go on: each is a new one, or keeps the lock it had. -/
structure Continues (now : ℕ) (t t' : LoginAttempts) : Prop where
  sound : t'.Sound now
  allocated : t.allocated ≤ t'.allocated
  locked : ∀ key address b, t'.entries key = some (address, b) → t.allocated ≤ address ∨
    ∃ a, t.entries key = some (address, a) ∧ ∀ lockedAt ∈ a.lockedAt, lockedAt ∈ b.lockedAt

/-- No mark is touched: a record keeps its mark, is dropped, or is a new one without a mark. -/
structure Quiet (now : ℕ) (t t' : LoginAttempts) : Prop extends Continues now t t' where
  audit : ∀ key address, t'.auditOf key address = none ∨ t'.auditOf key address = t.auditOf key address ∨
    t.allocated ≤ address ∧ t'.auditOf key address = some none

variable {t t' t'' : LoginAttempts} {key other : String} {address now later : ℕ} {a b : LoginAttempt}

lemma auditOf_of_entry (h : t.entries key = some (address, a)) :
    t.auditOf key address = some a.lockoutAuditedAt := by
  simp [auditOf, h]

lemma auditOf_eq_some {mark : Option ℕ} (h : t.auditOf key address = some mark) :
    ∃ a, t.entries key = some (address, a) ∧ a.lockoutAuditedAt = mark := by
  simp only [auditOf, Option.map_eq_some_iff, Option.filter_eq_some_iff, decide_eq_true_eq] at h
  obtain ⟨⟨address', a⟩, ⟨hentry, rfl⟩, rfl⟩ := h
  exact ⟨a, hentry, rfl⟩

lemma auditOf_congr (h : t'.entries key = t.entries key) : t'.auditOf key address = t.auditOf key address := by
  rw [auditOf, auditOf, h]

lemma entries_set_of_ne (h : other ≠ key) (entry : Option (ℕ × LoginAttempt)) :
    (t.set key entry).entries other = t.entries other := by
  simp [set, Function.update_of_ne h]

lemma entries_set_self (entry : Option (ℕ × LoginAttempt)) : (t.set key entry).entries key = entry := by
  simp [set]

lemma Sound.mono (h : t.Sound now) (hle : now ≤ later) : t.Sound later :=
  fun key address a hentry => ⟨(h key address a hentry).1, (h key address a hentry).2.mono hle⟩

lemma sound_empty (now : ℕ) : empty.Sound now := by
  intro key address a hentry
  simp [empty] at hentry

/-- A record that was not given out is not there. -/
lemma Sound.auditOf_eq_none (h : t.Sound now) (haddress : t.allocated ≤ address) :
    t.auditOf key address = none := by
  cases haudit : t.auditOf key address with
  | none => rfl
  | some mark =>
    obtain ⟨a, hentry, -⟩ := auditOf_eq_some haudit
    exact absurd (h key address a hentry).1 (by omega)

lemma Sound.set (h : t.Sound now) {entry : Option (ℕ × LoginAttempt)}
    (hentry : ∀ x ∈ entry, x.1 < t.allocated ∧ x.2.Sound now) : (t.set key entry).Sound now := by
  intro other address a hother
  by_cases hkey : other = key
  · subst hkey
    rw [entries_set_self] at hother
    exact hentry (address, a) hother
  · rw [entries_set_of_ne hkey] at hother
    exact h other address a hother

lemma Continues.refl (h : t.Sound now) : Continues now t t :=
  ⟨h, le_rfl, fun _ _ b hentry => .inr ⟨b, hentry, fun _ hlocked => hlocked⟩⟩

lemma Continues.trans (h : Continues now t t') (h' : Continues later t' t'') : Continues later t t'' := by
  refine ⟨h'.sound, h.allocated.trans h'.allocated, ?_⟩
  intro key address c hc
  obtain hge | ⟨b, hb, hlocked'⟩ := h'.locked key address c hc
  · exact .inl (h.allocated.trans hge)
  · obtain hge | ⟨a, ha, hlocked⟩ := h.locked key address b hb
    · exact .inl hge
    · exact .inr ⟨a, ha, fun lockedAt hmem => hlocked' lockedAt (hlocked lockedAt hmem)⟩

lemma Continues.drop (h : t.Sound now) (key : String) : Continues now t (t.set key none) := by
  refine ⟨h.set (by simp), le_rfl, ?_⟩
  intro other address b hb
  by_cases hkey : other = key
  · subst hkey
    simp [entries_set_self] at hb
  · rw [entries_set_of_ne hkey] at hb
    exact .inr ⟨b, hb, fun _ hlocked => hlocked⟩

/-- A record that is replaced by one that keeps its lock. -/
lemma Continues.replace (h : t.Sound now) (hentry : t.entries key = some (address, a)) (hb : b.Sound now)
    (hlocked : ∀ lockedAt ∈ a.lockedAt, lockedAt ∈ b.lockedAt) :
    Continues now t (t.set key (some (address, b))) := by
  refine ⟨h.set ?_, le_rfl, ?_⟩
  · rintro x ⟨rfl⟩
    exact ⟨(h key address a hentry).1, hb⟩
  · intro other address' b' hb'
    by_cases hkey : other = key
    · subst hkey
      obtain ⟨rfl, rfl⟩ : address = address' ∧ b = b' := by simpa [entries_set_self] using hb'
      exact .inr ⟨a, hentry, hlocked⟩
    · rw [entries_set_of_ne hkey] at hb'
      exact .inr ⟨b', hb', fun _ hlocked => hlocked⟩

lemma Quiet.refl (h : t.Sound now) : Quiet now t t := ⟨.refl h, fun _ _ => .inr (.inl rfl)⟩

lemma Quiet.trans (h : Quiet now t t') (h' : Quiet now t' t'') : Quiet now t t'' := by
  refine ⟨h.toContinues.trans h'.toContinues, ?_⟩
  intro key address
  obtain hnone | hsame | ⟨hge, hmade⟩ := h'.audit key address
  · exact .inl hnone
  · rw [hsame]
    exact h.audit key address
  · exact .inr (.inr ⟨h.allocated.trans hge, hmade⟩)

lemma Quiet.drop (h : t.Sound now) (key : String) : Quiet now t (t.set key none) := by
  refine ⟨.drop h key, ?_⟩
  intro other address
  by_cases hkey : other = key
  · subst hkey
    left
    simp [auditOf, entries_set_self]
  · exact .inr (.inl (auditOf_congr (entries_set_of_ne hkey none)))

/-- The mark of a record that is replaced at its address. -/
lemma auditOf_replace (hentry : t.entries key = some (address, a)) (other : String) (address' : ℕ) :
    (t.set key (some (address, b))).auditOf other address' =
      if other = key ∧ address' = address then some b.lockoutAuditedAt else t.auditOf other address' := by
  by_cases hkey : other = key
  · subst hkey
    by_cases haddress : address' = address
    · subst haddress
      rw [if_pos ⟨rfl, rfl⟩]
      exact auditOf_of_entry (entries_set_self _)
    · rw [if_neg (fun h => haddress h.2)]
      simp [auditOf, entries_set_self, hentry, Option.filter_some, Ne.symm haddress]
  · rw [if_neg (fun h => hkey h.1)]
    exact auditOf_congr (entries_set_of_ne hkey _)

/-- A record that is replaced by one with its mark and its lock. -/
lemma Quiet.replace (h : t.Sound now) (hentry : t.entries key = some (address, a)) (hb : b.Sound now)
    (hlocked : ∀ lockedAt ∈ a.lockedAt, lockedAt ∈ b.lockedAt)
    (hmark : b.lockoutAuditedAt = a.lockoutAuditedAt) : Quiet now t (t.set key (some (address, b))) := by
  refine ⟨.replace h hentry hb hlocked, ?_⟩
  intro other address'
  refine .inr (.inl ?_)
  rw [auditOf_replace hentry]
  split_ifs with hsame
  · rw [hsame.1, hsame.2, auditOf_of_entry hentry, hmark]
  · rfl

/-! ## What the functions do to the marks -/

/-- Only a lock that is over is dropped. -/
lemma isAttemptLocked_eq (t : LoginAttempts) (key : String) (now : ℕ) :
    (t.isAttemptLocked key now).2 = t ∨
      (t.isAttemptLocked key now).1 = false ∧ (t.isAttemptLocked key now).2 = t.set key none := by
  unfold isAttemptLocked
  cases t.entries key with
  | none => exact .inl rfl
  | some entry =>
    dsimp only
    cases entry.2.lockedAt with
    | none => exact .inl rfl
    | some lockedAt =>
      dsimp only
      split_ifs
      · exact .inl rfl
      · exact .inl rfl
      · exact .inr ⟨rfl, rfl⟩

lemma isAttemptLocked_of_locked (h : (t.isAttemptLocked key now).1 = true) :
    (t.isAttemptLocked key now).2 = t := by
  obtain heq | ⟨hfalse, -⟩ := isAttemptLocked_eq t key now
  · exact heq
  · rw [h] at hfalse
    exact absurd hfalse (by simp)

lemma Quiet.isAttemptLocked (h : t.Sound now) (key : String) : Quiet now t (t.isAttemptLocked key now).2 := by
  obtain heq | ⟨-, heq⟩ := isAttemptLocked_eq t key now
  · rw [heq]
    exact .refl h
  · rw [heq]
    exact .drop h key

lemma Quiet.isLockedOut (h : t.Sound now) (ip : String) : Quiet now t (t.isLockedOut ip now).2 := by
  have hown := Quiet.isAttemptLocked h ip
  unfold LoginAttempts.isLockedOut
  dsimp only
  split_ifs
  · exact hown
  · exact hown.trans (.isAttemptLocked hown.sound _)

lemma Quiet.recordFailedAttemptLocked (h : t.Sound now) (key : String) :
    Quiet now t (t.recordFailedAttemptLocked key now) := by
  unfold LoginAttempts.recordFailedAttemptLocked
  cases hentry : t.entries key with
  | none =>
    -- a new record at the next address
    refine ⟨⟨?_, Nat.le_succ _, ?_⟩, ?_⟩
    · intro other address a hother
      by_cases hkey : other = key
      · subst hkey
        obtain ⟨rfl, rfl⟩ : t.allocated = address ∧ LoginAttempt.fresh.fail now = a := by
          simpa [set] using hother
        exact ⟨Nat.lt_succ_self _, (LoginAttempt.sound_fresh now).fail⟩
      · have hold := h other address a (by rwa [← entries_set_of_ne hkey])
        exact ⟨hold.1.trans (Nat.lt_succ_self _), hold.2⟩
    · intro other address b hother
      by_cases hkey : other = key
      · subst hkey
        obtain ⟨rfl, -⟩ : t.allocated = address ∧ LoginAttempt.fresh.fail now = b := by
          simpa [set] using hother
        exact .inl le_rfl
      · exact .inr ⟨b, by rwa [← entries_set_of_ne hkey], fun _ hlocked => hlocked⟩
    · intro other address
      by_cases hkey : other = key
      · subst hkey
        by_cases haddress : t.allocated = address
        · subst haddress
          refine .inr (.inr ⟨le_rfl, ?_⟩)
          exact auditOf_of_entry (a := LoginAttempt.fresh.fail now) (entries_set_self _)
        · left
          simp [auditOf, set, Option.filter_some, haddress]
      · exact .inr (.inl (auditOf_congr (entries_set_of_ne hkey _)))
  | some entry =>
    obtain ⟨address, a⟩ := entry
    have ha := (h key address a hentry).2
    dsimp only
    by_cases hover : a.isOver now
    · have hnone := LoginAttempt.lockedAt_of_isOver hover
      rw [if_pos hover]
      refine .replace h hentry (LoginAttempt.sound_fresh now).fail ?_ (ha.audited_eq_none hnone).symm
      simp [hnone]
    · rw [if_neg hover]
      exact .replace h hentry ha.fail (fun _ hlocked => LoginAttempt.lockedAt_fail_of_mem hlocked now) rfl

lemma Quiet.recordFailedAttemptFor (h : t.Sound now) (ip : String) (includeAccount : Bool) :
    Quiet now t (t.recordFailedAttemptFor ip includeAccount now) := by
  have hown := Quiet.recordFailedAttemptLocked h ip
  unfold LoginAttempts.recordFailedAttemptFor
  dsimp only
  split_ifs
  · exact hown.trans (.recordFailedAttemptLocked hown.sound _)
  · exact hown

lemma Quiet.resetAttempts (h : t.Sound now) (ip : String) : Quiet now t (t.resetAttempts ip) := by
  have hown := Quiet.drop h ip
  exact hown.trans (.drop hown.sound _)

/-- The cleanup may have read the clock before. -/
lemma Quiet.cleanup (h : t.Sound now) (readAt : ℕ) : Quiet now t (t.cleanupExpiredLoginAttempts readAt) := by
  have hkept : ∀ key address a, (t.cleanupExpiredLoginAttempts readAt).entries key = some (address, a) →
      t.entries key = some (address, a) :=
    fun key address a hentry => (Option.filter_eq_some_iff.mp hentry).1
  refine ⟨⟨?_, le_rfl, ?_⟩, ?_⟩
  · intro key address a hentry
    exact h key address a (hkept key address a hentry)
  · intro key address b hentry
    exact .inr ⟨b, hkept key address b hentry, fun _ hlocked => hlocked⟩
  · intro key address
    cases haudit : (t.cleanupExpiredLoginAttempts readAt).auditOf key address with
    | none => exact .inl rfl
    | some mark =>
      obtain ⟨a, hentry, rfl⟩ := auditOf_eq_some haudit
      exact .inr (.inl (auditOf_of_entry (hkept key address a hentry)).symm)

/-- What a claim does: each of its marks takes the audit of a record that had no mark, and the other
records keep theirs. -/
structure Claims (now : ℕ) (t : LoginAttempts) (claim : List LockoutAuditMark) (t' : LoginAttempts) : Prop
    extends Continues now t t' where
  marks : ∀ mark ∈ claim, mark.previous = none ∧ mark.claimedAt = now ∧ mark.address < t.allocated
  unclaimed : ∀ key address, (∀ mark ∈ claim, ¬ IsOf key address mark) →
    t'.auditOf key address = none ∨ t'.auditOf key address = t.auditOf key address
  claimed : ∀ key address, (∃ mark ∈ claim, IsOf key address mark) → t.auditOf key address = some none ∧
    (t'.auditOf key address = none ∨ t'.auditOf key address = some (some now))

lemma Claims.trans {claim claim' : List LockoutAuditMark} (h : Claims now t claim t')
    (hallocated : t'.allocated = t.allocated) (h' : Claims now t' claim' t'') :
    Claims now t (claim ++ claim') t'' := by
  refine ⟨h.toContinues.trans h'.toContinues, ?_, ?_, ?_⟩
  · intro mark hmark
    obtain hmark | hmark := List.mem_append.mp hmark
    · exact h.marks mark hmark
    · rw [← hallocated]
      exact h'.marks mark hmark
  · intro key address hnone
    obtain hsame | hsame := h'.unclaimed key address fun mark hmark =>
      hnone mark (List.mem_append_right _ hmark)
    · exact .inl hsame
    · rw [hsame]
      exact h.unclaimed key address fun mark hmark => hnone mark (List.mem_append_left _ hmark)
  · rintro key address ⟨mark, hmark, hof⟩
    by_cases hfirst : ∃ mark ∈ claim, IsOf key address mark
    · obtain ⟨hfree, htaken⟩ := h.claimed key address hfirst
      refine ⟨hfree, ?_⟩
      -- what the first claim has taken, the second one does not find
      have hsecond : ∀ mark ∈ claim', ¬ IsOf key address mark := by
        intro mark' hmark' hof'
        have hfree' := (h'.claimed key address ⟨mark', hmark', hof'⟩).1
        rw [hfree'] at htaken
        simp at htaken
      obtain hgone | hsame := h'.unclaimed key address hsecond
      · exact .inl hgone
      · rw [hsame]
        exact htaken
    · have hfirst' : ∀ mark ∈ claim, ¬ IsOf key address mark := fun mark hmark hof =>
        hfirst ⟨mark, hmark, hof⟩
      have hmark' : mark ∈ claim' := by
        obtain hmark | hmark := List.mem_append.mp hmark
        · exact absurd hof (hfirst' mark hmark)
        · exact hmark
      obtain ⟨hfree, htaken⟩ := h'.claimed key address ⟨mark, hmark', hof⟩
      refine ⟨?_, htaken⟩
      obtain hgone | hsame := h.unclaimed key address hfirst'
      · rw [hgone] at hfree
        simp at hfree
      · rw [← hsame]
        exact hfree

/-- A claim of one key takes the audit of its lock, or nothing. -/
lemma claimAudit_eq (h : t.Sound now) (key : String) :
    (∃ address a, t.entries key = some (address, a) ∧ (t.isAttemptLocked key now).1 = true ∧
        a.lockoutAuditedAt = none ∧ t.claimAudit key now =
          ([⟨key, address, none, now⟩], t.set key (some (address, a.setAudited (some now))))) ∨
      t.claimAudit key now = ([], (t.isAttemptLocked key now).2) := by
  unfold claimAudit
  dsimp only
  cases hentry : t.entries key with
  | none =>
    right
    simp [isAttemptLocked, hentry]
  | some entry =>
    obtain ⟨address, a⟩ := entry
    dsimp only
    split_ifs with hlocked hclaim
    · have hnone := (h key address a hentry).2.audited_eq_none_of_claim hclaim
      refine .inl ⟨address, a, rfl, hlocked, hnone, ?_⟩
      rw [isAttemptLocked_of_locked hlocked, hnone]
    · exact .inr rfl
    · exact .inr rfl

/-- A locked record is at its key. -/
lemma lockedAt_of_isAttemptLocked (hentry : t.entries key = some (address, a))
    (h : (t.isAttemptLocked key now).1 = true) : ∃ lockedAt, lockedAt ∈ a.lockedAt := by
  unfold isAttemptLocked at h
  simp only [hentry] at h
  cases hlock : a.lockedAt with
  | none => simp [hlock] at h
  | some lockedAt => exact ⟨lockedAt, rfl⟩

lemma claims_claimAudit (h : t.Sound now) (key : String) :
    Claims now t (t.claimAudit key now).1 (t.claimAudit key now).2 ∧
      (t.claimAudit key now).2.allocated = t.allocated := by
  obtain ⟨address, a, hentry, hlocked, hnone, heq⟩ | heq := claimAudit_eq h key
  · obtain ⟨haddress, ha⟩ := h key address a hentry
    obtain ⟨lockedAt, hlock⟩ := lockedAt_of_isAttemptLocked hentry hlocked
    rw [heq]
    refine ⟨⟨.replace h hentry ⟨ha.locked, ?_⟩ (fun _ hlocked => hlocked), ?_, ?_, ?_⟩, rfl⟩
    · rintro auditedAt ⟨rfl⟩
      exact ⟨lockedAt, hlock, ha.locked lockedAt hlock⟩
    · intro mark hmark
      obtain rfl := List.mem_singleton.mp hmark
      exact ⟨rfl, rfl, haddress⟩
    · intro other address' hnone
      have hother := hnone _ List.mem_cons_self
      right
      rw [auditOf_replace hentry, if_neg]
      rintro ⟨rfl, rfl⟩
      exact hother ⟨rfl, rfl⟩
    · rintro other address' ⟨mark, hmark, hof⟩
      obtain rfl := List.mem_singleton.mp hmark
      obtain ⟨rfl, rfl⟩ := hof
      refine ⟨?_, .inr ?_⟩
      · rw [auditOf_of_entry hentry, hnone]
      · rw [auditOf_replace hentry, if_pos ⟨rfl, rfl⟩]
        rfl
  · rw [heq]
    have hquiet := Quiet.isAttemptLocked h key
    have hallocated : (t.isAttemptLocked key now).2.allocated = t.allocated := by
      obtain heq | ⟨-, heq⟩ := isAttemptLocked_eq t key now
      · rw [heq]
      · rw [heq]
        rfl
    refine ⟨⟨hquiet.toContinues, by simp, ?_, by simp⟩, hallocated⟩
    intro other address _
    obtain hgone | hsame | ⟨hge, hmade⟩ := hquiet.audit other address
    · exact .inl hgone
    · exact .inr hsame
    · rw [hquiet.sound.auditOf_eq_none (by rw [hallocated]; exact hge)] at hmade
      simp at hmade

lemma claims_claimLockoutAudit (h : t.Sound now) (ip : String) :
    Claims now t (t.claimLockoutAudit ip now).1 (t.claimLockoutAudit ip now).2 := by
  obtain ⟨hown, hallocated⟩ := claims_claimAudit h ip
  obtain ⟨haccount, -⟩ := claims_claimAudit hown.sound adminLoginAccountKey
  exact hown.trans hallocated haccount

/-- A lock without a mark is claimed by the next request that meets it. -/
lemma exists_mem_claimLockoutAudit (h : t.Sound now) (hentry : t.entries key = some (address, a))
    (hlocked : (t.isAttemptLocked key now).1 = true) (hfree : a.lockoutAuditedAt = none) {ip : String}
    (hkey : key = ip ∨ key = adminLoginAccountKey) :
    ∃ mark ∈ (t.claimLockoutAudit ip now).1, IsOf key address mark := by
  have hown : ∀ {t' : LoginAttempts}, t'.entries key = some (address, a) →
      (t'.claimAudit key now).1 = [⟨key, address, none, now⟩] := by
    intro t' hentry'
    have hlocked' : (t'.isAttemptLocked key now).1 = true := by
      rw [← hlocked]
      unfold isAttemptLocked
      rw [hentry, hentry']
      dsimp only
      cases a.lockedAt with
      | none => rfl
      | some lockedAt =>
        dsimp only
        split_ifs <;> rfl
    unfold claimAudit
    dsimp only
    simp only [hentry', hlocked', hfree, Option.all_none, if_true]
  by_cases hip : key = ip
  · subst hip
    refine ⟨⟨key, address, none, now⟩, List.mem_append_left _ ?_, rfl, rfl⟩
    rw [hown hentry]
    exact List.mem_singleton_self _
  · obtain rfl := hkey.resolve_left hip
    have hother : (t.claimAudit ip now).2.entries adminLoginAccountKey = some (address, a) := by
      obtain ⟨address', a', -, -, -, heq⟩ | heq := claimAudit_eq h ip
      · rw [heq, entries_set_of_ne hip, hentry]
      · rw [heq]
        obtain heq | ⟨-, heq⟩ := isAttemptLocked_eq t ip now
        · rw [heq, hentry]
        · rw [heq, entries_set_of_ne hip, hentry]
    refine ⟨⟨adminLoginAccountKey, address, none, now⟩, List.mem_append_right _ ?_, rfl, rfl⟩
    rw [hown hother]
    exact List.mem_singleton_self _

/-- Giving back one mark takes away no other. -/
lemma releaseMark_spec (h : t.Sound now) {mark : LockoutAuditMark} (hprevious : mark.previous = none) :
    Continues now t (t.releaseMark mark) ∧ ∀ key address,
      (t.releaseMark mark).auditOf key address = t.auditOf key address ∨
      (t.releaseMark mark).auditOf key address = some none ∧ IsOf key address mark := by
  unfold releaseMark
  cases hentry : t.entries mark.key with
  | none => exact ⟨.refl h, fun _ _ => .inl rfl⟩
  | some entry =>
    obtain ⟨address, a⟩ := entry
    dsimp only
    split_ifs with hsame
    · have ha := (h mark.key address a hentry).2
      rw [hprevious]
      refine ⟨.replace h hentry ⟨ha.locked, by simp [LoginAttempt.setAudited]⟩ fun _ hlocked => hlocked, ?_⟩
      intro key address'
      rw [auditOf_replace hentry]
      split_ifs with hof
      · exact .inr ⟨rfl, hof.1.symm, hsame.1.symm.trans hof.2.symm⟩
      · exact .inl rfl
    · exact ⟨.refl h, fun _ _ => .inl rfl⟩

/-- A release takes marks away, and none but its own. -/
lemma release_spec (h : t.Sound now) {claim : List LockoutAuditMark}
    (hprevious : ∀ mark ∈ claim, mark.previous = none) :
    Continues now t (t.releaseLockoutAudit claim) ∧ ∀ key address,
      (t.releaseLockoutAudit claim).auditOf key address = t.auditOf key address ∨
      (t.releaseLockoutAudit claim).auditOf key address = some none ∧
        ∃ mark ∈ claim, IsOf key address mark := by
  unfold releaseLockoutAudit
  induction claim generalizing t with
  | nil => exact ⟨.refl h, fun _ _ => .inl rfl⟩
  | cons mark claim ih =>
    obtain ⟨hmark, hclaim⟩ := List.forall_mem_cons.mp hprevious
    obtain ⟨hcontinues, hfirst⟩ := releaseMark_spec h hmark
    obtain ⟨hcontinues', hrest⟩ := ih hcontinues.sound hclaim
    refine ⟨hcontinues.trans hcontinues', ?_⟩
    intro key address
    rw [List.foldl_cons]
    obtain hsame | ⟨hfree, mark', hmark', hof⟩ := hrest key address
    · rw [hsame]
      exact (hfirst key address).imp_right fun hfree => ⟨hfree.1, mark, List.mem_cons_self, hfree.2⟩
    · exact .inr ⟨hfree, mark', List.mem_cons_of_mem _ hmark', hof⟩

/-- A mark that is the last one of its record is taken away. -/
lemma releaseMark_frees {mark : LockoutAuditMark} (hprevious : mark.previous = none)
    (hentry : t.entries mark.key = some (mark.address, a))
    (hclaimed : ∀ auditedAt ∈ a.lockoutAuditedAt, auditedAt = mark.claimedAt) :
    (t.releaseMark mark).auditOf mark.key mark.address = some none := by
  unfold releaseMark
  simp only [hentry, true_and]
  split_ifs with haudited
  · rw [auditOf_replace hentry, if_pos ⟨rfl, rfl⟩, hprevious]
    rfl
  · rw [auditOf_of_entry hentry]
    cases hmark : a.lockoutAuditedAt with
    | none => rfl
    | some auditedAt => exact absurd (by rw [hmark, hclaimed auditedAt hmark]) haudited

/-- A release gives back the audit of every record that is as the claim has left it. -/
lemma release_frees (h : t.Sound now) {claim : List LockoutAuditMark}
    (hprevious : ∀ mark ∈ claim, mark.previous = none) {mark : LockoutAuditMark} (hmark : mark ∈ claim)
    (hentry : t.entries mark.key = some (mark.address, a))
    (hclaimed : ∀ auditedAt ∈ a.lockoutAuditedAt, auditedAt = mark.claimedAt) :
    (t.releaseLockoutAudit claim).auditOf mark.key mark.address = some none := by
  obtain ⟨first, rest, rfl⟩ := List.append_of_mem hmark
  have hsplit : t.releaseLockoutAudit (first ++ mark :: rest) =
      ((t.releaseLockoutAudit first).releaseMark mark).releaseLockoutAudit rest := by
    simp only [releaseLockoutAudit, List.foldl_append, List.foldl_cons]
  obtain ⟨hbefore, hafter⟩ := List.forall_mem_append.mp hprevious
  obtain ⟨hmark, hafter⟩ := List.forall_mem_cons.mp hafter
  obtain ⟨hcontinues, hfirst⟩ := release_spec h hbefore
  -- the marks before it have left the record as it was, or without a mark
  obtain ⟨b, hb, hclaimed'⟩ : ∃ b, (t.releaseLockoutAudit first).entries mark.key = some (mark.address, b) ∧
      ∀ auditedAt ∈ b.lockoutAuditedAt, auditedAt = mark.claimedAt := by
    obtain hsame | ⟨hfree, -⟩ := hfirst mark.key mark.address
    · rw [auditOf_of_entry hentry] at hsame
      obtain ⟨b, hb, heq⟩ := auditOf_eq_some hsame
      exact ⟨b, hb, by rwa [heq]⟩
    · obtain ⟨b, hb, heq⟩ := auditOf_eq_some hfree
      exact ⟨b, hb, by simp [heq]⟩
  have hfree := releaseMark_frees hmark hb hclaimed'
  obtain ⟨-, hrest⟩ := release_spec (releaseMark_spec hcontinues.sound hmark).1.sound hafter
  rw [hsplit]
  obtain hsame | ⟨hfree', -⟩ := hrest mark.key mark.address
  · rw [hsame, hfree]
  · exact hfree'

end LoginAttempts

end Packmon.Admin

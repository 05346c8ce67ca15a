import Packmon.Sync.Cursor

/-!
# The formats of a cursor

All keyset strings are written in the same way and are told apart by the number of their values and by
a tag.  A string of one format is read back as what was written, and no string is of two formats but for
one case: the cursor inside an advisory has four values, so the reader of four values, the lifecycle
cursor's, takes it too (`cursorFormats_read_back`).  The two are sent in different fields.
-/

namespace Packmon

/-- What a keyset string may be read as. -/
inductive CursorFormat where
  | advisory
  | advisoryRow
  | threeParts
  | fourParts
  deriving DecidableEq

namespace CursorFormat

/-- The number of values of a string of the format. -/
def parts : CursorFormat → ℕ
  | advisory => 2
  | advisoryRow => 4
  | threeParts => 3
  | fourParts => 4

def accepts (raw : String) : CursorFormat → Bool
  | advisory => (decodeSyncAdvisoryCursor raw).isSome
  | advisoryRow => (decodeSyncAdvisoryRowCursor raw).isSome
  | threeParts => (decodeSyncCursorKey raw 3).isSome
  | fourParts => (decodeSyncCursorKey raw 4).isSome

end CursorFormat

variable {raw : String}

lemma decodeSyncCursorKey_eq_some {wantParts : ℕ} {values : List String}
    (h : decodeSyncCursorKey raw wantParts = some values) :
    decodeSyncCursorValues raw = some values ∧ values.length = wantParts := by
  obtain ⟨found, hfound, hparts⟩ := Option.bind_eq_some_iff.mp h
  split_ifs at hparts with hlength
  obtain rfl := Option.some.inj hparts
  exact ⟨hfound, not_not.mp hlength⟩

lemma decodeSyncAdvisoryCursor_eq_some {id : String} (h : decodeSyncAdvisoryCursor raw = some id) :
    decodeSyncCursorValues raw = some [syncAdvisoryCursorTag, id] := by
  obtain ⟨values, hvalues, hid⟩ := Option.bind_eq_some_iff.mp h
  unfold advisoryOfValues at hid
  split at hid
  · split_ifs at hid with hbad
    obtain rfl := Option.some.inj hid
    push Not at hbad
    rw [hvalues, hbad.1]
  · exact absurd hid (by simp)

lemma decodeSyncAdvisoryRowCursor_eq_some {row : String × String × String}
    (h : decodeSyncAdvisoryRowCursor raw = some row) :
    decodeSyncCursorValues raw = some [syncAdvisoryRowCursorTag, row.1, row.2.1, row.2.2] := by
  obtain ⟨values, hvalues, hrow⟩ := Option.bind_eq_some_iff.mp h
  unfold advisoryRowOfValues at hrow
  split at hrow
  · split_ifs at hrow with hbad
    obtain rfl := Option.some.inj hrow
    push Not at hbad
    rw [hvalues, hbad.1]
  · exact absurd hrow (by simp)

/-- A string of a format has the values of the format. -/
lemma CursorFormat.accepts_spec {f : CursorFormat} (h : f.accepts raw = true) :
    ∃ values, decodeSyncCursorValues raw = some values ∧ values.length = f.parts := by
  cases f with
  | advisory =>
    obtain ⟨id, hid⟩ := Option.isSome_iff_exists.mp h
    exact ⟨_, decodeSyncAdvisoryCursor_eq_some hid, rfl⟩
  | advisoryRow =>
    obtain ⟨row, hrow⟩ := Option.isSome_iff_exists.mp h
    exact ⟨_, decodeSyncAdvisoryRowCursor_eq_some hrow, rfl⟩
  | threeParts =>
    obtain ⟨values, hvalues⟩ := Option.isSome_iff_exists.mp h
    exact ⟨values, decodeSyncCursorKey_eq_some hvalues⟩
  | fourParts =>
    obtain ⟨values, hvalues⟩ := Option.isSome_iff_exists.mp h
    exact ⟨values, decodeSyncCursorKey_eq_some hvalues⟩

lemma CursorFormat.parts_eq_of_accepts {f g : CursorFormat} (hf : f.accepts raw = true)
    (hg : g.accepts raw = true) : f.parts = g.parts := by
  obtain ⟨values, hvalues, hlength⟩ := f.accepts_spec hf
  obtain ⟨values', hvalues', hlength'⟩ := g.accepts_spec hg
  obtain rfl : values = values' := by simpa [hvalues] using hvalues'
  rw [← hlength, hlength']

/-- What is written in a format is read back, and no string is of two formats but the cursors inside an
advisory, which the reader of four values takes with their tag. -/
theorem cursorFormats_read_back :
    (∀ id : String, id ≠ "" → decodeSyncAdvisoryCursor (encodeSyncAdvisoryCursor id) = some id) ∧
      (∀ id ecosystem name : String, id ≠ "" → ecosystem ≠ "" → name ≠ "" →
        decodeSyncAdvisoryRowCursor (encodeSyncAdvisoryRowCursor id ecosystem name) =
          some (id, ecosystem, name)) ∧
      (∀ a b c : String, decodeSyncCursorKey (encodeSyncCursorKey [a, b, c]) 3 = some [a, b, c]) ∧
      (∀ a b c d : String, decodeSyncCursorKey (encodeSyncCursorKey [a, b, c, d]) 4 = some [a, b, c, d]) ∧
      (∀ (raw : String) (f g : CursorFormat), f.accepts raw = true → g.accepts raw = true → f ≠ g →
        f = .advisoryRow ∧ g = .fourParts ∨ f = .fourParts ∧ g = .advisoryRow) ∧
      ∀ raw id ecosystem name : String, decodeSyncAdvisoryRowCursor raw = some (id, ecosystem, name) →
        decodeSyncCursorKey raw 4 = some [syncAdvisoryRowCursorTag, id, ecosystem, name] := by
  refine ⟨?_, ?_, ?_, ?_, ?_, ?_⟩
  · intro id hid
    rw [decodeSyncAdvisoryCursor_encode, if_neg hid]
  · intro id ecosystem name hid hecosystem hname
    rw [decodeSyncAdvisoryRowCursor_encode, if_neg]
    rintro (h | h | h)
    · exact hid h
    · exact hecosystem h
    · exact hname h
  · intro a b c
    simp
  · intro a b c d
    simp
  · intro raw f g hf hg hne
    have hparts := CursorFormat.parts_eq_of_accepts hf hg
    cases f <;> cases g <;> simp_all [CursorFormat.parts]
  · intro raw id ecosystem name hrow
    rw [decodeSyncCursorKey, decodeSyncAdvisoryRowCursor_eq_some hrow]
    rfl

theorem cursorFormats_read_back_ghsa :
    decodeSyncAdvisoryRowCursor (encodeSyncAdvisoryRowCursor "GHSA-1" "npm" "left-pad") =
      some ("GHSA-1", "npm", "left-pad") :=
  cursorFormats_read_back.2.1 "GHSA-1" "npm" "left-pad" (by decide) (by decide) (by decide)

/-- A cursor inside an advisory is also read as four values. -/
theorem advisoryRow_fourParts :
    CursorFormat.advisoryRow.accepts (encodeSyncAdvisoryRowCursor "GHSA-1" "npm" "left-pad") = true ∧
      CursorFormat.fourParts.accepts (encodeSyncAdvisoryRowCursor "GHSA-1" "npm" "left-pad") = true := by
  constructor
  · rw [CursorFormat.accepts, decodeSyncAdvisoryRowCursor_encode]
    decide
  · rw [CursorFormat.accepts, encodeSyncAdvisoryRowCursor, decodeSyncCursorKey_encode]
    rfl

end Packmon

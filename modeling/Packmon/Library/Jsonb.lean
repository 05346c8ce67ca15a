import Packmon.Library.GoJson

/-!
# Documents as a database stores them

A column of type `jsonb` keeps a document in decomposed form: the members of an object are ordered by the
length of their names and then by the names, and of members with one name only the last stays (`jsonb`).
Read as text it is printed with blanks (`jsonbText`).
-/

namespace Json

/-- The order of names: shorter ones first. -/
def nameLE (a b : String) : Bool :=
  a.utf8ByteSize < b.utf8ByteSize || (a.utf8ByteSize = b.utf8ByteSize && a ≤ b)

/-- Put a member in its place; it replaces the one with its name. -/
def insertMember (name : String) (value : Json) : List (String × Json) → List (String × Json)
  | [] => [(name, value)]
  | (other, old) :: members =>
    if other = name then (name, value) :: members
    else if nameLE name other then (name, value) :: (other, old) :: members
    else (other, old) :: insertMember name value members

mutual

/-- The decomposed form of a document. -/
def jsonb : Json → Json
  | arr items => arr (jsonbItems items)
  | obj members => obj (jsonbMembers members [])
  | value => value

def jsonbItems : List Json → List Json
  | [] => []
  | item :: items => jsonb item :: jsonbItems items

/-- Put members in their places one after another. -/
def jsonbMembers : List (String × Json) → List (String × Json) → List (String × Json)
  | [], placed => placed
  | (name, value) :: members, placed => jsonbMembers members (insertMember name (jsonb value) placed)

end

lemma jsonbItems_eq_map (items : List Json) : jsonbItems items = items.map jsonb := by
  induction items with
  | nil => rfl
  | cons item items ih => rw [jsonbItems, ih, List.map_cons]

@[simp] lemma jsonb_arr (items : List Json) : jsonb (arr items) = arr (items.map jsonb) := by
  rw [jsonb, jsonbItems_eq_map]

@[simp] lemma jsonb_null : jsonb null = null := by
  rw [jsonb]
  all_goals exact fun _ h => nomatch h

@[simp] lemma jsonb_str (s : String) : jsonb (str s) = str s := by
  rw [jsonb]
  all_goals exact fun _ h => nomatch h

lemma jsonb_obj (members : List (String × Json)) :
    jsonb (obj members) = obj (jsonbMembers members []) := by
  rw [jsonb]

private lemma lookup_cons_eq_ite (key name : String) (value : Json) (members : List (String × Json)) :
    ((name, value) :: members).lookup key = if key = name then some value else members.lookup key := by
  by_cases h : key = name
  · simp [h]
  · rw [List.lookup_cons, if_neg h, beq_eq_false_iff_ne.mpr h]

lemma lookup_insertMember (name key : String) (value : Json) (placed : List (String × Json)) :
    (insertMember name value placed).lookup key =
      if key = name then some value else placed.lookup key := by
  induction placed with
  | nil => rw [insertMember, lookup_cons_eq_ite]
  | cons m placed ih =>
    obtain ⟨other, old⟩ := m
    rw [insertMember]
    split_ifs with hother hkey hle hkey hkey
    all_goals simp_all [lookup_cons_eq_ite]
    · rintro rfl
      exact absurd rfl hother

/-- Of members with one name the last stays, in its decomposed form. -/
lemma lookup_jsonbMembers (members placed : List (String × Json)) (key : String) :
    (jsonbMembers members placed).lookup key =
      ((GoJson.member members key).map jsonb).or (placed.lookup key) := by
  induction members generalizing placed with
  | nil => rfl
  | cons m members ih =>
    obtain ⟨name, value⟩ := m
    have hmember : GoJson.member ((name, value) :: members) key =
        (GoJson.member members key).or (if key = name then some value else none) := by
      rw [GoJson.member, List.reverse_cons, List.lookup_append, lookup_cons_eq_ite]
      rfl
    rw [jsonbMembers, ih, lookup_insertMember, hmember]
    cases GoJson.member members key with
    | some found => rfl
    | none => split_ifs <;> rfl

/-- The text of a stored document; nothing for a text that is no document. -/
def jsonbText (text : String) : Option String :=
  (parse text.toList).map fun document => String.ofList (Printer.spaced.render (jsonb document))

/-- A printed document is stored in its decomposed form. -/
lemma jsonbText_render (p : Printer) (document : Json) :
    jsonbText (String.ofList (p.render document)) =
      some (String.ofList (Printer.spaced.render (jsonb document))) := by
  rw [jsonbText, String.toList_ofList, Printer.parse_render, Option.map_some]

end Json

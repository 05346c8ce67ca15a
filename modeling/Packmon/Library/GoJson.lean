import Packmon.Library.GoText
import Packmon.Library.Json

/-!
# Decoding JSON the way Go does

`encoding/json` decodes a document into a value that is already there: `null` leaves a string or a
structure as it is, a member whose name is repeated is decoded again into the same place, and a
member belongs to the field with its name, or else to the first one that differs only in case.  A
slice keeps its memory when it is decoded again, so an item is decoded into what was there before
(`Slice.memory`).
-/

namespace GoJson

open GoText (equalFold)

variable {α σ : Type}

/-- Changes a value by a document; nothing when the document has the wrong type. -/
abbrev Decoder (α : Type) := α → Json → Option α

def string : Decoder String
  | old, .null => some old
  | _, .str s => some s
  | _, _ => none

/-! ## Slices -/

/-- A slice: what its memory holds, and how many items of it belong to the slice. -/
structure Slice (α : Type) where
  memory : List α := []
  len : ℕ := 0
  deriving DecidableEq

namespace Slice

/-- The items of a slice. -/
def items (s : Slice α) : List α := s.memory.take s.len

/-- A slice of its own. -/
def ofList (as : List α) : Slice α := ⟨as, as.length⟩

@[simp] lemma items_ofList (as : List α) : (ofList as).items = as := List.take_length

end Slice

/-- Decode items one after another into what the memory holds, or into new places. -/
def decodeItems (elem : Decoder α) (zero : α) : List α → List Json → Option (List α)
  | _, [] => some []
  | memory, item :: items =>
    (elem (memory.headD zero) item).bind fun a =>
      (decodeItems elem zero memory.tail items).map (a :: ·)

def slice (elem : Decoder α) (zero : α) : Decoder (Slice α)
  | _, .null => some {}
  | _, .arr [] => some {}
  | old, .arr items =>
    (decodeItems elem zero old.memory items).map fun as =>
      ⟨as ++ old.memory.drop items.length, items.length⟩
  | _, _ => none

/-- Items that decode into new places are decoded one by one. -/
lemma decodeItems_map {ι : Type} {elem : Decoder α} {zero : α} {json : ι → Json} {value : ι → α}
    {xs : List ι} (h : ∀ x ∈ xs, elem zero (json x) = some (value x)) :
    decodeItems elem zero [] (xs.map json) = some (xs.map value) := by
  induction xs with
  | nil => rfl
  | cons x xs ih =>
    have htail := ih fun y hy => h y (List.mem_cons_of_mem x hy)
    simp [decodeItems, h x List.mem_cons_self, htail]

/-- A new slice holds the decoded items. -/
lemma slice_map {ι : Type} {elem : Decoder α} {zero : α} {json : ι → Json} {value : ι → α}
    {xs : List ι} (h : ∀ x ∈ xs, elem zero (json x) = some (value x)) :
    slice elem zero {} (.arr (xs.map json)) = some (Slice.ofList (xs.map value)) := by
  have hitems := decodeItems_map h
  cases xs with
  | nil => rfl
  | cons x xs =>
    rw [List.map_cons] at hitems ⊢
    simp [slice, hitems, Slice.ofList]

section Fresh

variable {elem : Decoder α} {zero : α} {items : List Json}

/-- Where every item decodes, a new slice holds what they decode to. -/
lemma slice_of_forall (h : ∀ item ∈ items, (elem zero item).isSome) :
    slice elem zero {} (.arr items) = some (Slice.ofList (items.filterMap (elem zero))) := by
  have hvalue : ∀ item ∈ items, elem zero item = some ((elem zero item).getD zero) := by
    intro item hitem
    obtain ⟨a, ha⟩ := Option.isSome_iff_exists.mp (h item hitem)
    rw [ha, Option.getD_some]
  have hfilter : items.filterMap (elem zero) = items.map fun item => (elem zero item).getD zero := by
    rw [← List.filterMap_eq_map, List.filterMap_congr hvalue]
    rfl
  have hslice := @slice_map _ _ elem zero id (fun item => (elem zero item).getD zero) items hvalue
  rwa [List.map_id, ← hfilter] at hslice

/-- An item that does not decode spoils the slice. -/
lemma slice_of_exists (h : ∃ item ∈ items, elem zero item = none) :
    slice elem zero {} (.arr items) = none := by
  have hnone : decodeItems elem zero [] items = none := by
    obtain ⟨item, hitem, hdecode⟩ := h
    induction items with
    | nil => cases hitem
    | cons head items ih =>
      rw [decodeItems, List.headD_nil, List.tail_nil]
      rcases List.mem_cons.mp hitem with rfl | htail
      · rw [hdecode, Option.bind_none]
      · rw [ih htail]
        cases elem zero head <;> rfl
  cases items with
  | nil => simp at h
  | cons head items => simp [slice, hnone]

end Fresh

/-! ## Structures -/

/-- The fields of a structure by their names. -/
abbrev Fields (σ : Type) := List (String × Decoder σ)

/-- The field a member belongs to. -/
def Fields.get (fields : Fields σ) (name : String) : Option (Decoder σ) :=
  match fields.lookup name with
  | some field => some field
  | none => (fields.find? fun field => equalFold field.1 name).map Prod.snd

/-- Decode members one after another; those that belong to no field are skipped. -/
def decodeMembers (fields : Fields σ) : σ → List (String × Json) → Option σ
  | s, [] => some s
  | s, (name, value) :: members =>
    match fields.get name with
    | some field => (field s value).bind fun s => decodeMembers fields s members
    | none => decodeMembers fields s members

/-- Members that belong to no field change nothing. -/
lemma decodeMembers_of_forall_none {fields : Fields σ} {members : List (String × Json)}
    (h : ∀ m ∈ members, fields.get m.1 = none) (s : σ) : decodeMembers fields s members = some s := by
  induction members with
  | nil => rfl
  | cons m members ih =>
    rw [decodeMembers, h m List.mem_cons_self]
    exact ih fun m' hm' => h m' (List.mem_cons_of_mem m hm')

def object (fields : Fields σ) : Decoder σ
  | s, .null => some s
  | s, .obj members => decodeMembers fields s members
  | _, _ => none

/-- A field that is decoded by its own decoder. -/
def field (get : σ → α) (set : σ → α → σ) (decoder : Decoder α) : Decoder σ :=
  fun s value => (decoder (get s) value).map (set s)

/-! ## Texts of arrays -/

/-- A printed array has no white space around it. -/
lemma trimSpace_render_arr (p : Json.Printer) (items : List Json) :
    GoText.trimSpace (String.ofList (p.render (.arr items))) =
      String.ofList (p.render (.arr items)) := by
  obtain ⟨body, hbody⟩ := Json.Printer.exists_render_arr (p := p) items
  rw [hbody]
  exact GoText.trimSpace_ofList (by decide) (by decide) body

/-- A printed array is neither empty nor `null`. -/
lemma render_arr_ne (p : Json.Printer) (items : List Json) :
    String.ofList (p.render (.arr items)) ≠ "" ∧ String.ofList (p.render (.arr items)) ≠ "null" := by
  obtain ⟨body, hbody⟩ := Json.Printer.exists_render_arr (p := p) items
  rw [hbody]
  constructor
  · intro h
    have := congrArg String.toList h
    simp at this
  · intro h
    have := congrArg (fun s => s.toList.head?) h
    simp at this

/-! ## Documents that are kept as they are -/

/-- The items of an array, of which there are none for `null`. -/
def rawItems : Json → Option (List Json)
  | .null => some []
  | .arr items => some items
  | _ => none

/-- The members of an object. -/
def rawMembers : Json → Option (List (String × Json))
  | .obj members => some members
  | _ => none

/-- The member of a map: the last one with that name. -/
def member (members : List (String × Json)) (name : String) : Option Json :=
  members.reverse.lookup name

/-- A pointer to a string: the string, or nothing for `null`. -/
def stringPointer : Json → Option (Option String)
  | .null => some none
  | .str s => some (some s)
  | _ => none

end GoJson

import Packmon.Library.GoJson
import Mathlib.Data.List.GetD
import Mathlib.Data.List.Pairwise

/-!
# What a decoded structure holds

An object is decoded member by member, but every field of the structure sees only the members that belong
to it, in their order (`decodeMembers_eq_some_iff`).  A field of text then holds the last text among them
(`decodeAll_string`).  A slice that is decoded more than once is written in layers: an item is laid over
the items that the earlier arrays had at its place, back to the last array without items
(`map_items_decodeAll_slice`).
-/

namespace GoJson

open GoText (equalFold)

variable {α σ : Type}

/-- The values of the members that belong to a field. -/
def named (name : String) (members : List (String × Json)) : List Json :=
  (members.filter fun m => equalFold name m.1).map Prod.snd

lemma named_cons_of_fold {name other : String} (h : equalFold name other = true) (value : Json)
    (members : List (String × Json)) :
    named name ((other, value) :: members) = value :: named name members := by
  simp [named, h]

lemma named_cons_of_not_fold {name other : String} (h : equalFold name other = false) (value : Json)
    (members : List (String × Json)) :
    named name ((other, value) :: members) = named name members := by
  simp [named, h]

/-- Decode values one after another into one place. -/
def decodeAll (decoder : Decoder α) : α → List Json → Option α
  | a, [] => some a
  | a, value :: values => (decoder a value).bind fun a => decodeAll decoder a values

/-! ## Fields apart -/

/-- A field of a structure with its own decoder. -/
structure StructField (σ : Type) where
  {α : Type}
  name : String
  get : σ → α
  set : σ → α → σ
  decoder : Decoder α

/-- The field among those of its structure. -/
def StructField.entry (f : StructField σ) : String × Decoder σ := (f.name, field f.get f.set f.decoder)

/-- The names differ in more than case, every field keeps to itself, and together they are the
structure. -/
structure Separate (fields : List (StructField σ)) : Prop where
  names : fields.Pairwise fun f g => equalFold f.name g.name = false
  get_set : ∀ f ∈ fields, ∀ s a, f.get (f.set s a) = a
  get_set_of_ne : ∀ f ∈ fields, ∀ g ∈ fields, equalFold f.name g.name = false →
    ∀ s a, f.get (g.set s a) = f.get s
  ext : ∀ s t, (∀ f ∈ fields, f.get s = f.get t) → s = t

@[simp] lemma equalFold_self (s : String) : equalFold s s = true := by simp [equalFold]

lemma equalFold_comm (s t : String) : equalFold s t = equalFold t s := by
  simp [equalFold, eq_comm]

lemma equalFold_trans {s t u : String} (hst : equalFold s t = true) (htu : equalFold t u = true) :
    equalFold s u = true := by
  simp only [equalFold, decide_eq_true_eq] at *
  exact hst.trans htu

section

variable {fields : List (StructField σ)} {name : String}

/-- A member belongs to a field whose name differs from its own at most in case. -/
lemma exists_of_get_entries {decoder : Decoder σ}
    (h : Fields.get (fields.map StructField.entry) name = some decoder) :
    ∃ f ∈ fields, equalFold f.name name = true ∧ decoder = field f.get f.set f.decoder := by
  rw [Fields.get] at h
  cases hlookup : (fields.map StructField.entry).lookup name with
  | some found =>
    rw [hlookup, Option.some.injEq] at h
    obtain ⟨before, after, hsplit, -⟩ := List.lookup_eq_some_iff.mp hlookup
    have hmem : (name, found) ∈ fields.map StructField.entry := by simp [hsplit]
    obtain ⟨f, hf, hentry⟩ := List.mem_map.mp hmem
    obtain ⟨hname, hfound⟩ := Prod.mk.inj hentry
    refine ⟨f, hf, ?_, ?_⟩
    · rw [hname, equalFold_self]
    · rw [← h, ← hfound]
  | none =>
    rw [hlookup, Option.map_eq_some_iff] at h
    obtain ⟨found, hfind, rfl⟩ := h
    obtain ⟨f, hf, rfl⟩ := List.mem_map.mp (List.mem_of_find?_eq_some hfind)
    have hname := List.find?_some hfind
    exact ⟨f, hf, hname, rfl⟩

/-- A member that belongs to no field has a name of its own. -/
lemma not_fold_of_get_entries (h : Fields.get (fields.map StructField.entry) name = none)
    {f : StructField σ} (hf : f ∈ fields) : equalFold f.name name = false := by
  rw [Fields.get] at h
  cases hlookup : (fields.map StructField.entry).lookup name with
  | some found => rw [hlookup] at h; cases h
  | none =>
    rw [hlookup, Option.map_eq_none_iff, List.find?_eq_none] at h
    have hname := h f.entry (List.mem_map_of_mem hf)
    exact Bool.eq_false_of_not_eq_true hname

/-- Only one field has the name. -/
lemma Separate.eq_of_fold (hfields : Separate fields) {f g : StructField σ} (hf : f ∈ fields)
    (hg : g ∈ fields) (hfname : equalFold f.name name = true)
    (hgname : equalFold g.name name = true) : f = g := by
  have hsymm : Std.Symm fun f g : StructField σ => equalFold f.name g.name = false :=
    ⟨fun f g h => (equalFold_comm g.name f.name).trans h⟩
  by_contra hne
  have hdistinct := hfields.names.forall hf hg hne
  have hsame := equalFold_trans hfname ((equalFold_comm name g.name).trans hgname)
  exact absurd hsame (by simp [hdistinct])

/-- Every field sees only the members that belong to it. -/
theorem decodeMembers_eq_some_iff (hfields : Separate fields) (s t : σ)
    (members : List (String × Json)) :
    decodeMembers (fields.map StructField.entry) s members = some t ↔
      ∀ f ∈ fields, decodeAll f.decoder (f.get s) (named f.name members) = some (f.get t) := by
  induction members generalizing s with
  | nil =>
    simp only [decodeMembers, named, List.filter_nil, List.map_nil, decodeAll, Option.some.injEq]
    exact ⟨fun h f _ => h ▸ rfl, hfields.ext s t⟩
  | cons m members ih =>
    obtain ⟨name, value⟩ := m
    rw [decodeMembers]
    cases hget : Fields.get (fields.map StructField.entry) name with
    | none =>
      rw [ih]
      refine forall₂_congr fun f hf => ?_
      rw [named_cons_of_not_fold (not_fold_of_get_entries hget hf)]
    | some decoder =>
      obtain ⟨f, hf, hname, rfl⟩ := exists_of_get_entries hget
      have hother : ∀ g ∈ fields, g ≠ f → equalFold g.name name = false := by
        intro g hg hne
        by_contra h
        exact hne (hfields.eq_of_fold hg hf (by simpa using h) hname)
      cases hdecode : f.decoder (f.get s) value with
      | none =>
        -- the field itself fails
        simp only [field, hdecode, Option.map_none, Option.bind_none, reduceCtorEq, false_iff,
          not_forall]
        refine ⟨f, hf, ?_⟩
        rw [named_cons_of_fold hname, decodeAll, hdecode, Option.bind_none]
        simp
      | some a =>
        simp only [field, hdecode, Option.map_some, Option.bind_some, ih]
        refine forall₂_congr fun g hg => ?_
        by_cases hne : g = f
        · subst hne
          rw [named_cons_of_fold hname, decodeAll, hdecode, Option.bind_some,
            hfields.get_set g hg]
        · have hother : equalFold g.name name = false := by
            by_contra h
            exact hne (hfields.eq_of_fold hg hf (by simpa using h) hname)
          have hapart : equalFold g.name f.name = false := by
            by_contra h
            exact hne (hfields.eq_of_fold hg hf (by simpa using h) (equalFold_self f.name))
          rw [named_cons_of_not_fold hother, hfields.get_set_of_ne g hg f hf hapart]

end

/-! ## Texts -/

/-- A text or `null`. -/
def isText (value : Json) : Bool := (stringPointer value).isSome

@[simp] lemma isText_null : isText .null = true := rfl

@[simp] lemma isText_str (s : String) : isText (.str s) = true := rfl

/-- The text of a value that is one. -/
def text : Json → Option String
  | .str s => some s
  | _ => none

/-- The last text among values. -/
def lastText (values : List Json) : Option String := (values.filterMap text).getLast?

lemma lastText_append (values values' : List Json) :
    lastText (values ++ values') = (lastText values').or (lastText values) := by
  rw [lastText, List.filterMap_append, List.getLast?_append]
  rfl

/-- A field of text keeps the last text. -/
lemma decodeAll_string (old : String) (values : List Json) :
    decodeAll string old values =
      if values.all isText then some ((lastText values).getD old) else none := by
  induction values generalizing old with
  | nil => rfl
  | cons value values ih =>
    have hlast : lastText (value :: values) = (lastText values).or (text value) := by
      rw [← List.singleton_append, lastText_append]
      cases value <;> rfl
    cases value <;> simp [decodeAll, string, ih, isText, stringPointer, hlast, text]

/-! ## Slices in layers -/

/-- The arrays that a place has been decoded from, after one more value: what is not an array with items
forgets them. -/
def nextLayers (layers : List (List Json)) : Json → List (List Json)
  | .arr (item :: items) => layers ++ [item :: items]
  | _ => []

/-- The arrays that lie over one another after all values. -/
def layers (values : List Json) : List (List Json) := values.foldl nextLayers []

/-- An array of good items or `null`. -/
def isArrayOf (good : Json → Bool) : Json → Bool
  | .null => true
  | .arr items => items.all good
  | _ => false

section Layers

variable (apply : α → Json → α) (zero : α)

/-- What lies at a place: the items of the layers there, one over the other. -/
def layered (layers : List (List Json)) (j : ℕ) : α :=
  layers.foldl (fun a items => (items[j]?).elim a (apply a)) zero

/-- The items of the layers; there are as many as in the last one. -/
def layeredItems (layers : List (List Json)) : List α :=
  (List.range (layers.getLast?.elim 0 List.length)).map (layered apply zero layers)

/-- The memory of the slice is what the layers wrote. -/
structure Slice.Holds (s : Slice α) (layers : List (List Json)) : Prop where
  len_le : s.len ≤ s.memory.length
  len_eq : s.len = layers.getLast?.elim 0 List.length
  memory : ∀ j, s.memory.getD j zero = layered apply zero layers j

variable {apply zero} {elem : Decoder α} {good : Json → Bool}

lemma Slice.Holds.items_eq {s : Slice α} {layers : List (List Json)} (h : s.Holds apply zero layers) :
    s.items = layeredItems apply zero layers := by
  refine List.ext_getElem ?_ ?_
  · simp [Slice.items, layeredItems, h.len_eq ▸ h.len_le, h.len_eq]
  · intro j hj hj'
    have hmemory : j < s.memory.length := by
      simp only [Slice.items, List.length_take] at hj
      omega
    have hj := h.memory j
    rw [List.getD_eq_getElem _ _ hmemory] at hj
    simp [Slice.items, layeredItems, hj]

/-- Items are decoded over what the memory holds. -/
lemma decodeItems_eq (helem : ∀ a value, elem a value = if good value then some (apply a value) else none)
    (memory : List α) (items : List Json) :
    decodeItems elem zero memory items =
      if items.all good then some (items.mapIdx fun j item => apply (memory.getD j zero) item)
      else none := by
  induction items generalizing memory with
  | nil => rfl
  | cons item items ih =>
    have hhead : memory.headD zero = memory.getD 0 zero := by cases memory <;> rfl
    have htail (j : ℕ) : memory.tail.getD j zero = memory.getD (j + 1) zero := by
      cases memory <;> simp
    rw [decodeItems, helem, ih, hhead, List.all_cons, List.mapIdx_cons]
    simp only [htail]
    cases good item with
    | false => rfl
    | true => cases items.all good <;> rfl

lemma Slice.holds_nil : Slice.Holds apply zero {} [] :=
  ⟨Nat.zero_le _, rfl, fun _ => rfl⟩

/-- A layer is written over the memory, and what lies behind it stays. -/
lemma Slice.Holds.append {s : Slice α} {layers : List (List Json)} (h : s.Holds apply zero layers)
    (items : List Json) :
    Slice.Holds apply zero
      ⟨(items.mapIdx fun j item => apply (s.memory.getD j zero) item) ++ s.memory.drop items.length,
        items.length⟩ (layers ++ [items]) := by
  refine ⟨by simp, by simp, ?_⟩
  intro j
  have hlayered : layered apply zero (layers ++ [items]) j =
      (items[j]?).elim (s.memory.getD j zero) (apply (s.memory.getD j zero)) := by
    rw [layered, List.foldl_append, h.memory]
    rfl
  rw [hlayered]
  by_cases hj : j < items.length
  · rw [List.getD_append _ _ _ _ (by simpa using hj), List.getD_eq_getElem _ _ (by simpa using hj)]
    simp [hj]
  · rw [List.getD_append_right _ _ _ _ (by simpa using hj)]
    simp [List.getD_eq_getElem?_getD, hj, Nat.add_sub_cancel' (Nat.le_of_not_lt hj)]

/-- One more value adds a layer. -/
lemma Slice.Holds.slice
    (helem : ∀ a value, elem a value = if good value then some (apply a value) else none)
    {s : Slice α} {layers : List (List Json)} (h : s.Holds apply zero layers) (value : Json) :
    if isArrayOf good value then
      ∃ s', GoJson.slice elem zero s value = some s' ∧ s'.Holds apply zero (nextLayers layers value)
    else GoJson.slice elem zero s value = none := by
  cases value with
  | null => exact ⟨{}, rfl, holds_nil⟩
  | arr items =>
    cases items with
    | nil => exact ⟨{}, rfl, holds_nil⟩
    | cons item items =>
      rw [isArrayOf, GoJson.slice, decodeItems_eq helem]
      · split_ifs with hgood
        · exact ⟨_, rfl, h.append (item :: items)⟩
        · rfl
      · simp
  | bool _ => rfl
  | num _ => rfl
  | str _ => rfl
  | obj _ => rfl

/-- The items of a slice that has been decoded from all values. -/
theorem map_items_decodeAll_slice
    (helem : ∀ a value, elem a value = if good value then some (apply a value) else none)
    (values : List Json) :
    (decodeAll (slice elem zero) {} values).map Slice.items =
      if values.all (isArrayOf good) then some (layeredItems apply zero (layers values)) else none := by
  have hrun (s : Slice α) (ls : List (List Json)) (h : s.Holds apply zero ls) :
      (decodeAll (slice elem zero) s values).map Slice.items =
        if values.all (isArrayOf good) then
          some (layeredItems apply zero (values.foldl nextLayers ls)) else none := by
    induction values generalizing s ls with
    | nil => simp [decodeAll, h.items_eq]
    | cons value values ih =>
      have hstep := h.slice helem value
      rw [decodeAll, List.all_cons, List.foldl_cons]
      split_ifs at hstep with hgood
      · obtain ⟨s', hslice, hholds⟩ := hstep
        rw [hslice, Option.bind_some, ih s' _ hholds, hgood, Bool.true_and]
      · rw [hstep, Bool.eq_false_of_not_eq_true hgood]
        rfl
  exact hrun {} [] Slice.holds_nil

end Layers

/-- A slice that is decoded for the first time, where an item decodes exactly when it is good. -/
lemma map_items_slice {β : Type} {elem : Decoder α} {zero : α} {g : α → β} {good : Json → Bool}
    {value : Json → β} {document : Json} {items : List Json} (hitems : rawItems document = some items)
    (h : ∀ item ∈ items, (elem zero item).map g = if good item then some (value item) else none) :
    (slice elem zero {} document).map (fun s => s.items.map g) =
      if items.all good then some (items.map value) else none := by
  cases document with
  | null =>
    cases hitems
    rfl
  | arr items' =>
    obtain rfl := Option.some.inj hitems
    by_cases hall : items'.all good = true
    · have hsome : ∀ item ∈ items', (elem zero item).map g = some (value item) := by
        intro item hitem
        rw [h item hitem, if_pos (List.all_eq_true.mp hall item hitem)]
      have hdecoded : ∀ item ∈ items', (elem zero item).isSome := by
        intro item hitem
        rw [← Option.isSome_map (f := g), hsome item hitem, Option.isSome_some]
      rw [slice_of_forall hdecoded, if_pos hall, Option.map_some, Slice.items_ofList,
        List.map_filterMap, List.filterMap_congr hsome]
      exact congrArg some (congrFun List.filterMap_eq_map items')
    · rw [if_neg hall]
      obtain ⟨item, hitem, hbad⟩ : ∃ item ∈ items', good item ≠ true := by
        simpa using hall
      have hnone : elem zero item = none := by
        have := h item hitem
        rwa [if_neg hbad, Option.map_eq_none_iff] at this
      rw [slice_of_exists ⟨item, hitem, hnone⟩, Option.map_none]
  | bool _ => cases hitems
  | num _ => cases hitems
  | str _ => cases hitems
  | obj _ => cases hitems

end GoJson

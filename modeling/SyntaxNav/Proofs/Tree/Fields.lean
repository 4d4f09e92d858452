import Mathlib.Data.List.Nodup
import SyntaxNav.Tree.SlotTree

/-! # Fields and the slots they fill

The children of a node are those that its fields hold, in the slots that the fields fill. If no two fields
of a node have the same name, then the elements of a list are told by their indices: the children in
elements of one field stand one after another, with indices from zero on
(`SlotTree.DistinctFields.mem_children_iff`), and a slot is found where the list has an element.
-/

namespace SyntaxNav

namespace Field

variable {α β : Type}

def name : Field α → String
  | single name _ | list name _ => name

def contents : Field α → List α
  | single _ child => child.toList
  | list _ children => children

@[simp] theorem contents_single (name : String) (child : Option α) :
    (single name child).contents = child.toList := rfl

@[simp] theorem contents_list (name : String) (children : List α) :
    (list name children).contents = children := rfl

/-- The slots of a field hold its children in order. -/
theorem map_snd_slots (field : Field α) : field.slots.map (·.2) = field.contents := by
  cases field with
  | single name child => cases child <;> rfl
  | list name children =>
    simp only [slots, contents, List.map_map, Function.comp_def]
    exact List.zipIdx_map_fst 0 children

/-- The children in their slots are those that the fields hold. -/
theorem map_snd_spread (fields : List (Field α)) :
    (spread fields).map (·.2) = fields.flatMap contents := by
  simp only [spread, List.map_flatMap, map_snd_slots]

section Map

variable (change : α → β)

def map : Field α → Field β
  | single name child => single name (child.map change)
  | list name children => list name (children.map change)

private theorem slots_map (field : Field α) :
    (field.map change).slots = field.slots.map fun child => (child.1, change child.2) := by
  cases field with
  | single name child => cases child <;> rfl
  | list name children =>
    simp [map, slots, List.zipIdx_map, Function.comp_def]

/-- Changing the children of fields changes what their slots hold, and no slot. -/
theorem spread_map (fields : List (Field α)) :
    spread (fields.map (map change)) = (spread fields).map fun child => (child.1, change child.2) := by
  simp [spread, List.map_flatMap, List.flatMap_map, slots_map]

end Map

private theorem spread_cons (field : Field α) (fields : List (Field α)) :
    spread (field :: fields) = field.slots ++ spread fields :=
  List.flatMap_cons

private theorem getElem?_slots_list (name : String) (children : List α) (index : Nat) :
    (list name children).slots[index]? = children[index]?.map (Slot.element name index, ·) := by
  rw [slots, List.getElem?_map, List.getElem?_zipIdx, Option.map_map, Nat.zero_add]
  rfl

private theorem field_of_mem_slots {field : Field α} {child : Slot × α} (member : child ∈ field.slots) :
    child.1.field = field.name := by
  cases field with
  | single name held =>
    cases held with
    | none => exact absurd member List.not_mem_nil
    | some held => rw [List.mem_singleton.mp member]; rfl
  | list name children =>
    obtain ⟨entry, -, rfl⟩ := List.mem_map.mp member
    rfl

section Refill

/-- Children in the slots of a field are held by a field of the same name. -/
theorem exists_of_slots {field : Field α} {children : List (Slot × β)}
    (same : children.map (·.1) = field.slots.map (·.1)) :
    ∃ filled : Field β, filled.name = field.name ∧ children = filled.slots := by
  cases field with
  | single name held =>
    cases held with
    | none => exact ⟨single name none, rfl, List.map_eq_nil_iff.mp same⟩
    | some held =>
      obtain ⟨child, rest, rfl, here, nothing⟩ := List.map_eq_cons_iff.mp same
      refine ⟨single name (some child.2), rfl, ?_⟩
      rw [List.map_eq_nil_iff.mp nothing]
      exact congrArg (fun slot => [(slot, child.2)]) here
  | list name held =>
    refine ⟨list name (children.map (·.2)), rfl, List.ext_getElem? fun index => ?_⟩
    have slot := congrArg (·[index]?) same
    simp only [List.getElem?_map, getElem?_slots_list, Option.map_map] at slot ⊢
    cases child : children[index]? with
    | none => rfl
    | some entry =>
      rw [child] at slot
      obtain ⟨_, _, here⟩ := Option.map_eq_some_iff.mp slot.symm
      exact congrArg (fun place => some (place, entry.2)) here.symm

/-- Children in the slots of fields are held by fields of the same names. -/
theorem exists_of_spread {fields : List (Field α)} {children : List (Slot × β)}
    (same : children.map (·.1) = (spread fields).map (·.1)) :
    ∃ filled : List (Field β), filled.map name = fields.map name ∧ children = spread filled := by
  induction fields generalizing children with
  | nil => exact ⟨[], rfl, List.map_eq_nil_iff.mp same⟩
  | cons field fields ih =>
    rw [spread_cons, List.map_append] at same
    obtain ⟨first, rest, rfl, here, further⟩ := List.map_eq_append_iff.mp same
    obtain ⟨one, named, rfl⟩ := exists_of_slots here
    obtain ⟨others, namedAll, rfl⟩ := ih further
    exact ⟨one :: others, by rw [List.map_cons, List.map_cons, named, namedAll], (spread_cons _ _).symm⟩

end Refill

end Field

def Slot.isElementOf (name : String) (slot : Slot) : Bool :=
  slot.field = name && slot.isElement

namespace Field

variable {α : Type} {fields : List (Field α)} {name : String}

private theorem filter_spread_of_notMem (missing : name ∉ fields.map Field.name) :
    (spread fields).filter (·.1.isElementOf name) = [] := by
  refine List.filter_eq_nil_iff.mpr fun child member isElement => missing ?_
  obtain ⟨field, listed, within⟩ := List.mem_flatMap.mp member
  have here : child.1.field = name := by
    simp only [Slot.isElementOf, Bool.and_eq_true, decide_eq_true_eq] at isElement
    exact isElement.1
  exact List.mem_map.mpr ⟨field, listed, (field_of_mem_slots within).symm.trans here⟩

private theorem filter_slots_of_ne {field : Field α} (other : field.name ≠ name) :
    field.slots.filter (·.1.isElementOf name) = [] := by
  refine List.filter_eq_nil_iff.mpr fun child member => ?_
  simp [Slot.isElementOf, field_of_mem_slots member, other]

private theorem filter_slots_single (name : String) (child : Option α) :
    (single name child).slots.filter (·.1.isElementOf name) = [] := by
  refine List.filter_eq_nil_iff.mpr ?_
  cases child <;> simp [slots, Slot.isElementOf, Slot.isElement, Slot.single]

private theorem filter_slots_list (name : String) (children : List α) :
    (list name children).slots.filter (·.1.isElementOf name) = (list name children).slots := by
  refine List.filter_eq_self.mpr fun child member => ?_
  obtain ⟨entry, -, rfl⟩ := List.mem_map.mp member
  simp [Slot.isElementOf, Slot.isElement, Slot.element]

/-- The elements of a field are in its own slots, if the fields have different names. -/
theorem filter_spread_of_mem (distinct : (fields.map Field.name).Nodup) {field : Field α}
    (member : field ∈ fields) :
    (spread fields).filter (·.1.isElementOf field.name) =
      field.slots.filter (·.1.isElementOf field.name) := by
  induction fields with
  | nil => exact absurd member List.not_mem_nil
  | cons first fields ih =>
    obtain ⟨fresh, distinct⟩ := List.nodup_cons.mp distinct
    rw [spread_cons, List.filter_append]
    cases List.mem_cons.mp member with
    | inl here =>
      subst here
      rw [filter_spread_of_notMem fresh, List.append_nil]
    | inr further =>
      have other : first.name ≠ field.name := fun same => fresh (same ▸ List.mem_map_of_mem further)
      rw [filter_slots_of_ne other, List.nil_append, ih distinct further]

/-- The elements of one field are those of one list, if the fields have different names. -/
theorem exists_filter_spread (distinct : (fields.map Field.name).Nodup) (name : String) :
    ∃ children, (spread fields).filter (·.1.isElementOf name) = (list name children).slots := by
  by_cases present : name ∈ fields.map Field.name
  · obtain ⟨field, member, rfl⟩ := List.mem_map.mp present
    rw [filter_spread_of_mem distinct member]
    cases field with
    | single name child => exact ⟨[], filter_slots_single name child⟩
    | list name children => exact ⟨children, filter_slots_list name children⟩
  · exact ⟨[], filter_spread_of_notMem present⟩

end Field

namespace SlotTree

variable {α β : Type}

/-- The children in the elements of a field, in order. -/
def elements (tree : SlotTree α) (name : String) : List (SlotTree α) :=
  (tree.children.filter (·.1.isElementOf name)).map (·.2)

/-- The children are those of fields with different names. -/
def DistinctFields (tree : SlotTree α) : Prop :=
  ∃ fields : List (Field (SlotTree α)), (fields.map Field.name).Nodup ∧
    tree.children = Field.spread fields

/-- The elements of a list field are the children that it holds. -/
theorem elements_eq {tree : SlotTree α} {fields : List (Field (SlotTree α))}
    (distinct : (fields.map Field.name).Nodup) (whole : tree.children = Field.spread fields)
    {name : String} {children : List (SlotTree α)} (member : Field.list name children ∈ fields) :
    tree.elements name = children := by
  have own := Field.filter_spread_of_mem distinct member
  rw [Field.name, Field.filter_slots_list] at own
  rw [elements, whole, own, Field.map_snd_slots, Field.contents_list]

/-- Fields with different names are told by the slots alone. -/
theorem distinctFields_of_slots {tree : SlotTree α} {fields : List (Field β)}
    (distinct : (fields.map Field.name).Nodup)
    (same : tree.children.map (·.1) = (Field.spread fields).map (·.1)) : tree.DistinctFields := by
  obtain ⟨filled, named, whole⟩ := Field.exists_of_spread same
  exact ⟨filled, named ▸ distinct, whole⟩

namespace DistinctFields

variable {tree child : SlotTree α} {name : String} {index : Nat}

/-- A child is in an element of a field where it stands among the elements of the field. -/
theorem mem_children_iff (distinct : tree.DistinctFields) :
    (Slot.element name index, child) ∈ tree.children ↔ (tree.elements name)[index]? = some child := by
  obtain ⟨fields, names, whole⟩ := distinct
  obtain ⟨children, listed⟩ := Field.exists_filter_spread names name
  rw [← whole] at listed
  have isElement : (Slot.element name index).isElementOf name = true := by
    simp [Slot.isElementOf, Slot.isElement, Slot.element]
  have filtered : (Slot.element name index, child) ∈ tree.children ↔
      (Slot.element name index, child) ∈ (Field.list name children).slots := by
    rw [← listed, List.mem_filter]
    exact (and_iff_left isElement).symm
  rw [filtered, elements, listed, Field.map_snd_slots, Field.contents_list, List.mem_iff_getElem?]
  simp only [Field.getElem?_slots_list, Option.map_eq_some_iff, Prod.mk.injEq]
  constructor
  · rintro ⟨place, held, found, same, rfl⟩
    obtain rfl : place = index := Option.some.inj (congrArg Slot.index same)
    exact found
  · exact fun found => ⟨index, child, found, rfl, rfl⟩

/-- In an element of a field the element of that index is found, if there is one. -/
theorem childAt?_element (distinct : tree.DistinctFields) (name : String) (index : Nat) :
    tree.childAt? (.element name index) = (tree.elements name)[index]? := by
  refine Option.ext fun child => ?_
  rw [← distinct.mem_children_iff, childAt?, Option.map_eq_some_iff]
  constructor
  · rintro ⟨⟨slot, _⟩, found, rfl⟩
    have here : slot = .element name index := by simpa using List.find?_some found
    exact here ▸ List.mem_of_find?_eq_some found
  · intro member
    have somewhere : (tree.children.find? (·.1 = .element name index)).isSome = true :=
      List.find?_isSome.mpr ⟨_, member, decide_eq_true rfl⟩
    obtain ⟨⟨slot, other⟩, found⟩ := Option.isSome_iff_exists.mp somewhere
    have here : slot = .element name index := by simpa using List.find?_some found
    subst here
    have listed := distinct.mem_children_iff.mp (List.mem_of_find?_eq_some found)
    rw [distinct.mem_children_iff.mp member] at listed
    exact ⟨_, found, (Option.some.inj listed).symm⟩

end DistinctFields

end SlotTree

end SyntaxNav

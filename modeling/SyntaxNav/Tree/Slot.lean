/-! # Slots and fields

A child sits in a slot of its parent: a field that holds one child, or an element of a field that holds
a list. Parents are made from fields; `Field.spread` lists the slots they fill, in order.
-/

namespace SyntaxNav

/-- The place of a child in its parent: a field, and an index if the field holds a list. -/
structure Slot where
  field : String
  index : Option Nat
deriving DecidableEq, Repr, Inhabited

namespace Slot

def single (field : String) : Slot := ⟨field, none⟩

/-- The slot of an element of a field that holds a list. -/
def element (field : String) (index : Nat) : Slot := ⟨field, some index⟩

def isElement (slot : Slot) : Bool :=
  slot.index.isSome

/-- The slot of the element of the same list that stands some places further on, if its index is one. -/
def shift? (slot : Slot) (offset : Int) : Option Slot :=
  slot.index.bind fun index =>
    match (index : Int) + offset with
    | .negSucc _ => none
    | .ofNat sum => if sum < UInt64.size then some (element slot.field sum) else none

/-- A slot is written as its field, with the index of an element in brackets. -/
def render (slot : Slot) : String :=
  match slot.index with
  | none => slot.field
  | some index => slot.field ++ "[" ++ toString index ++ "]"

end Slot

/-- A field of a new node, with the children it holds. -/
inductive Field (α : Type) where
  /-- A field for one child, which may be absent. -/
  | single (name : String) (child : Option α)
  /-- A field for a list of children. -/
  | list (name : String) (children : List α)
deriving Repr

namespace Field

variable {α : Type}

def slots : Field α → List (Slot × α)
  | single _ none => []
  | single name (some child) => [(Slot.single name, child)]
  | list name children =>
    children.zipIdx.map fun (child, index) => (Slot.element name index, child)

/-- The children of all fields with their slots, in order. -/
def spread (fields : List (Field α)) : List (Slot × α) :=
  fields.flatMap slots

end Field

end SyntaxNav

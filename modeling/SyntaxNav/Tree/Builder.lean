import SyntaxNav.Tree.Basic

/-! # Building trees

A builder makes nodes bottom up. A new node takes over its children, named by number; each has to be a
node of the builder without a parent. `Draft.plant` makes all nodes of a draft.
-/

namespace SyntaxNav

/-- A node made by a builder, and whether it has a parent. -/
structure Made where
  node : Node
  attached : Bool

/-- The nodes made so far, by number. -/
structure Builder where
  made : Array Made

namespace Builder

def empty : Builder := ⟨#[]⟩

/-- Gives a parent to the node of a number. -/
def attach (builder : Builder) (number : NodeId) : Except Defect (Node × Builder) :=
  match builder.made[number]? with
  | none => .error .foreignChild
  | some ⟨_, true⟩ => .error .attachedTwice
  | some ⟨node, false⟩ => .ok (node, ⟨builder.made.setIfInBounds number ⟨node, true⟩⟩)

/-- Gives a parent to each of a list of children, in order. -/
def attachAll (builder : Builder) :
    List (Slot × NodeId) → Except Defect (List (Slot × Node) × Builder)
  | [] => .ok ([], builder)
  | (slot, number) :: rest => do
    let (node, builder) ← builder.attach number
    let (nodes, builder) ← builder.attachAll rest
    return ((slot, node) :: nodes, builder)

/-- Makes a node over children in slots, and gives its number. -/
def add (builder : Builder) (label : Label) (children : List (Slot × NodeId)) :
    Except Defect (NodeId × Builder) := do
  let (nodes, builder) ← builder.attachAll children
  let number := builder.made.size
  return (number, ⟨builder.made.push ⟨.node ⟨label, number⟩ nodes, false⟩⟩)

/-- Makes a node with the children that its fields hold, and gives its number. -/
def branch (builder : Builder) (label : Label) (fields : List (Field NodeId)) :
    Except Defect (NodeId × Builder) :=
  builder.add label (Field.spread fields)

/-- The tree under a node without a parent. -/
def finish (builder : Builder) (id : TreeId) (root : NodeId) : Except Defect Tree :=
  match builder.made[root]? with
  | none => .error .foreignRoot
  | some ⟨_, true⟩ => .error .rootHasParent
  | some ⟨node, false⟩ => .ok ⟨id, builder.made.map (·.node), node⟩

end Builder

/-- The kinds of nodes whose children are made from the last to the first. -/
abbrev MakingOrder := String → Bool

namespace Draft

mutual

/-- Makes the nodes of a draft, children before their parents, and gives the number of its root. -/
def plant (backward : MakingOrder) : Draft → Builder → Except Defect (NodeId × Builder)
  | .node label children, builder => do
    let (children, builder) ← plantAll backward (backward label.kind) children builder
    builder.add label children

/-- Makes the nodes of a list of drafts, from the last to the first if asked to. -/
def plantAll (backward : MakingOrder) (lastFirst : Bool) :
    List (Slot × Draft) → Builder → Except Defect (List (Slot × NodeId) × Builder)
  | [], builder => .ok ([], builder)
  | (slot, draft) :: rest, builder =>
    if lastFirst then do
      let (numbers, builder) ← plantAll backward lastFirst rest builder
      let (number, builder) ← plant backward draft builder
      return ((slot, number) :: numbers, builder)
    else do
      let (number, builder) ← plant backward draft builder
      let (numbers, builder) ← plantAll backward lastFirst rest builder
      return ((slot, number) :: numbers, builder)

end

def toTree (backward : MakingOrder) (id : TreeId) (draft : Draft) : Except Defect Tree := do
  let (root, builder) ← plant backward draft .empty
  builder.finish id root

end Draft

end SyntaxNav

import SyntaxNav.FieldOrder
import SyntaxNav.Navigation.Locate

/-! # Moving through a tree

A navigator answers where a move leads in its tree. It turns away paths of other trees. Looking up a
node of a path is the only thing that can go wrong, and does not for paths that lead through the tree.
-/

namespace SyntaxNav

/-- A way along the siblings of a node. -/
inductive Direction where
  | forward
  | backward
deriving DecidableEq, Repr

namespace Direction

def name : Direction → String
  | forward => "next"
  | backward => "prev"

/-- Where the neighbour stands in the same list. -/
def offset : Direction → Int
  | forward => 1
  | backward => -1

def beside? (direction : Direction) (order : FieldOrder) (kind field : String) : Option String :=
  match direction with
  | forward => order.after? kind field
  | backward => order.before? kind field

/-- The visits below a visit: parents first on the way forward, children first on the way back. -/
def below (direction : Direction) (visit : Visit) : List Visit :=
  match direction with
  | forward => visit.below
  | backward => visit.belowUpward

end Direction

/-- A planned removal of a node from the text: the span to delete, where the cursor goes, and the path
that is current until the text is parsed again. -/
structure Removal where
  deleted : Span
  cursor : Pos
  path : Option Path
deriving DecidableEq, Repr

/-- The text after a removal, if the deleted span lies in it. -/
def Removal.apply (removal : Removal) (text : String) : Option String :=
  (removal.deleted.deleteFrom? text.toList).map String.ofList

/-- What to remove: the node of the current path, or the node at a span. -/
inductive RemovalTarget where
  | current (path : Path)
  | atSpan (span : Span)
deriving DecidableEq, Repr

/-- A tree with the order in which fields are stepped through. -/
structure Navigator where
  tree : Tree
  order : FieldOrder

namespace Navigator

variable (navigator : Navigator)

def locate (span : Span) : Option Path :=
  navigator.tree.locate? span

/-- The path to the parent of the current node; without one, to the node at a span. -/
def expand (span : Span) : Option Path → Option Path
  | some path => if path.belongsTo navigator.tree then path.parent? else none
  | none => navigator.locate span

/-- The path to the first node below the node of a path. -/
def shrink (path : Path) : Except Defect (Option Path) :=
  if path.belongsTo navigator.tree then do
    let visit ← Visit.ofPath navigator.tree path
    return visit.below.head?.map (·.path)
  else
    .ok none

/-- The first visit below a parent that stands beside a child of it: in the field beside that of the
child, if the fields of the parent are ordered, and else not within the child. -/
def beside (direction : Direction) (parent : Visit) (slot : Slot) (child : NodeId) : Option Visit :=
  let kind := parent.node.label.kind
  match navigator.order.fields? kind with
  | some _ =>
    (direction.beside? navigator.order kind slot.field).bind fun field =>
      (direction.below parent).find? fun visit => visit.path.slot?.any (·.field = field)
  | none => (direction.below parent).find? fun visit => !visit.path.isWithin child

/-- The path to the next or previous node: the neighbour in the same list, or else a node beside it. -/
def step (direction : Direction) (path : Path) : Except Defect (Option Path) :=
  if path.belongsTo navigator.tree then do
    match ← path.sibling? navigator.tree direction.offset with
    | some sibling => return some sibling
    | none =>
      match path.parent?, path.slot? with
      | some parentPath, some slot =>
        let parent ← Visit.ofPath navigator.tree parentPath
        return (navigator.beside direction parent slot path.node).map (·.path)
      | _, _ => return none
  else
    .ok none

/-- The first path, from a path upward, that leads to the root or to a child of the root. -/
def topLevel (path : Path) : Path :=
  (path.ancestors.find? fun ancestor => ancestor.parent?.all Path.isRoot).getD path

/-- The removal of the node of the current path, or of the node at a span. The former leaves no current
path; the latter makes the parent current, and the cursor goes to its start. -/
def plan : RemovalTarget → Except Defect (Option Removal)
  | .current path =>
    if path.belongsTo navigator.tree then do
      let node ← navigator.tree.lookup path.node
      return node.label.span.map fun deleted => ⟨deleted, deleted.start, none⟩
    else
      .ok none
  | .atSpan span =>
    match navigator.locate span with
    | none => .ok none
    | some path =>
      match path.parent? with
      | none => .ok none
      | some parentPath => do
        let node ← navigator.tree.lookup path.node
        let parent ← navigator.tree.lookup parentPath.node
        return do
          let deleted ← node.label.span
          let outer ← parent.label.span
          return ⟨deleted, outer.start, some parentPath⟩

end Navigator

end SyntaxNav

import SyntaxNav.Defect
import SyntaxNav.Text.Span
import SyntaxNav.Tree.SlotTree

/-! # Syntax trees

What a syntax node says of itself is its label: a kind, a span and a text, of which the last two may be
missing. A draft is a tree of labels, before its nodes are numbered. A finished tree numbers its nodes in the
order in which they were made. Nodes are known by their numbers, which say nothing of the tree they belong to,
so looking a number up in a tree can fail.
-/

namespace SyntaxNav

/-- What a syntax node says of itself. The text holds names, literals and operators. -/
structure Label where
  kind : String
  span : Option Span
  text : Option String
deriving DecidableEq, Repr, Inhabited

/-- A syntax tree whose nodes are not numbered yet. -/
abbrev Draft := SlotTree Label

namespace Draft

/-- A draft with the children that its fields hold. -/
def branch (label : Label) (fields : List (Field Draft)) : Draft :=
  .node label (Field.spread fields)

end Draft

/-- A node, known by the number of nodes made before it. -/
abbrev NodeId := Nat

/-- A tree, told apart from all other trees. -/
abbrev TreeId := Nat

/-- A label with the number of its node. -/
structure Numbered extends Label where
  number : NodeId
deriving DecidableEq, Repr, Inhabited

/-- A numbered node with everything below it. -/
abbrev Node := SlotTree Numbered

/-- A finished syntax tree: its nodes by number, attached to the root or not, and its root. -/
structure Tree where
  id : TreeId
  nodes : Array Node
  root : Node

namespace Tree

def numNodes (tree : Tree) : Nat :=
  tree.nodes.size

/-- The node of a number, which has to belong to the tree. -/
def lookup (tree : Tree) (number : NodeId) : Except Defect Node :=
  match tree.nodes[number]? with
  | some node => .ok node
  | none => .error .foreignNode

end Tree

end SyntaxNav

import SyntaxNav.Text.Quoted
import SyntaxNav.Tree.Basic

/-! # Outlines of trees

An outline shows a tree line by line: a line for each node, with its kind, text and span, and before
each child a line with its slot. Every level is indented by four columns, slots by two of them.
-/

namespace SyntaxNav.Node

def headline (label : Label) : String :=
  label.kind ++ label.text.elim "" (fun text => " " ++ Text.quote text)
    ++ label.span.elim "" (fun span => " @" ++ span.render)

def indented (column : Nat) (line : String) : String :=
  String.ofList (List.replicate column ' ') ++ line

mutual

/-- The lines of a node and everything below it, starting in a column. -/
def outline (column : Nat) : Node → List String
  | .node label children => indented column (headline label.toLabel) :: outlines column children

/-- The lines of the children of a node that starts in a column. -/
def outlines (column : Nat) : List (Slot × Node) → List String
  | [] => []
  | (slot, child) :: rest =>
    indented (column + 2) ("." ++ slot.render) :: outline (column + 4) child ++ outlines column rest

end

end SyntaxNav.Node

namespace SyntaxNav.Tree

def outline (tree : Tree) : String :=
  String.join ((Node.outline 0 tree.root).map (· ++ "\n"))

end SyntaxNav.Tree

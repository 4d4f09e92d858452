import SyntaxNav.Text.Basic

/-! # Defects

A defect is a broken promise inside the program, as opposed to a mistake in its input. Operations that
rely on such a promise return the defect instead of a value.
-/

namespace SyntaxNav

/-- The internal promises that can be found broken. -/
inductive Defect where
  /-- A child of a new node is not a node of the builder. -/
  | foreignChild
  /-- A child of a new node has a parent already. -/
  | attachedTwice
  /-- The root of a finished tree is not a node of the builder. -/
  | foreignRoot
  /-- The root of a finished tree has a parent. -/
  | rootHasParent
  /-- A node number does not occur in the tree it is looked up in. -/
  | foreignNode
  /-- A value that had to be there was missing. -/
  | missingValue
  /-- A slice of a text starts or stops inside a character, or behind the end of the text. -/
  | splitCharacter
  /-- Any other broken promise, in words. -/
  | stated (message : String)
deriving DecidableEq, Repr

namespace Defect

def message : Defect → String
  | foreignChild => "TreeBuilder: child from another builder"
  | attachedTwice => "TreeBuilder: node attached twice"
  | foreignRoot => "TreeBuilder: root from another builder"
  | rootHasParent => "TreeBuilder: root has a parent"
  | foreignNode => "Node does not belong to this tree"
  | missingValue => "Tried to unwrap a `None` value"
  | splitCharacter => "A slice of a text is not between characters"
  | stated message => message

/-- The report of a defect found at a location, with one marked line per line of its message. -/
def report (location : String) (defect : Defect) : String :=
  let lines := (Text.reportLines defect.message.toList).map fun line =>
    "\n***   " ++ String.ofList line
  "\n*** Bug in structnav.\n*** Location:\n***   " ++ location ++ "\n*** Error message:"
    ++ String.join lines ++ "\n"

/-- A value that must be there; its absence is the defect, in the given words if there are any. -/
def demand {α : Type} (context : Option String) : Option α → Except Defect α
  | some value => .ok value
  | none => .error (context.elim missingValue stated)

/-- A result that must be a success; a failure is the defect, after the given words if there are any. -/
def demandSuccess {α : Type} (context : Option String) : Except String α → Except Defect α
  | .ok value => .ok value
  | .error failure =>
    .error (stated (context.elim failure fun words => words ++ "\n" ++ failure))

end Defect

end SyntaxNav

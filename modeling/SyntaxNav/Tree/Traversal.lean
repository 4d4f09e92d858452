import SyntaxNav.Tree.Path

/-! # Traversals in document order

A traversal keeps a stack of visits still to be made. A visit is a path together with the subtree it
leads to. Pre-order hands a visit out and puts its children on the stack in its place; post-order puts
the children above the visit first, and hands it out when it comes up again.
-/

namespace SyntaxNav

/-- A path with the subtree it leads to. -/
structure Visit where
  path : Path
  node : Node

namespace Visit

def ofRoot (tree : Tree) : Visit := ⟨Path.ofRoot tree, tree.root⟩

/-- The visit to the node that a path leads to in a tree. -/
def ofPath (tree : Tree) (path : Path) : Except Defect Visit := do
  let node ← tree.lookup path.node
  return ⟨path, node⟩

def children (visit : Visit) : List Visit :=
  visit.node.children.map fun (slot, child) => ⟨visit.path.child slot child.label.number, child⟩

/-- The number of nodes that visits lead to, with all nodes below them. -/
def work (visits : List Visit) : Nat :=
  visits.foldr (fun visit rest => visit.node.size + rest) 0

/-- Going down from a node leaves one node less to visit. -/
theorem work_children (visit : Visit) : work visit.children + 1 = visit.node.size := by
  have total := SlotTree.sizes_eq_foldr visit.node.children
  rw [SlotTree.size_eq, total, Nat.add_comm, work, children, List.foldr_map]

theorem work_cons (visit : Visit) (rest : List Visit) :
    work (visit :: rest) = visit.node.size + work rest := rfl

theorem work_append (first second : List Visit) : work (first ++ second) = work first + work second := by
  induction first with
  | nil => exact (Nat.zero_add _).symm
  | cons visit rest ih => rw [List.cons_append, work_cons, work_cons, ih, Nat.add_assoc]

/-- Hands out the visits on a stack and those below them, parents first. -/
def preorder : List Visit → List Visit
  | [] => []
  | visit :: stack => visit :: preorder (visit.children ++ stack)
termination_by stack => work stack
decreasing_by
  have smaller := work_children visit
  rw [work_append, work_cons]
  omega

/-- A visit on the stack of a post-order traversal, and whether its children are done. -/
abbrev Pending := Visit × Bool

/-- The steps that a post-order traversal still has to take. -/
def steps (stack : List Pending) : Nat :=
  stack.foldr (fun pending rest => (if pending.2 then 1 else 2 * pending.1.node.size) + rest) 0

private theorem steps_ready (visit : Visit) (stack : List Pending) :
    steps ((visit, true) :: stack) = 1 + steps stack := rfl

private theorem steps_waiting (visit : Visit) (stack : List Pending) :
    steps ((visit, false) :: stack) = 2 * visit.node.size + steps stack := rfl

private theorem steps_pending (visits : List Visit) (stack : List Pending) :
    steps (visits.map (·, false) ++ stack) = 2 * work visits + steps stack := by
  induction visits with
  | nil => exact (Nat.zero_add _).symm
  | cons visit rest ih =>
    rw [List.map_cons, List.cons_append, steps_waiting, ih, work_cons]
    omega

/-- Hands out the visits on a stack and those below them, children first. -/
def postorder : List Pending → List Visit
  | [] => []
  | (visit, true) :: stack => visit :: postorder stack
  | (visit, false) :: stack =>
    postorder (visit.children.map (·, false) ++ (visit, true) :: stack)
termination_by stack => steps stack
decreasing_by
  · rw [steps_ready]
    omega
  · have smaller := work_children visit
    rw [steps_pending, steps_ready, steps_waiting]
    omega

/-- A visit and all visits below it, parents first. -/
def including (visit : Visit) : List Visit :=
  preorder [visit]

/-- All visits below a visit, parents first. -/
def below (visit : Visit) : List Visit :=
  preorder visit.children

/-- All visits below a visit, children first. -/
def belowUpward (visit : Visit) : List Visit :=
  postorder (visit.children.map (·, false))

end Visit

end SyntaxNav

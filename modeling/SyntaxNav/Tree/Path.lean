import SyntaxNav.Tree.Basic

/-! # Paths

A path leads from the root of a tree to one of its nodes. It remembers the tree it was made for, and for
each step down the slot it takes and the node it reaches. Everything else about these nodes is read in
a tree.
-/

namespace SyntaxNav

/-- A step down to a child: the slot it takes and the node it reaches. -/
structure Step where
  slot : Slot
  node : NodeId
deriving DecidableEq, Repr

/-- The way from the root of a tree to a node, with the last step first. -/
structure Path where
  tree : TreeId
  root : NodeId
  steps : List Step
deriving DecidableEq, Repr

namespace Path

def ofRoot (tree : Tree) : Path := ⟨tree.id, tree.root.label.number, []⟩

def child (path : Path) (slot : Slot) (node : NodeId) : Path :=
  { path with steps := ⟨slot, node⟩ :: path.steps }

/-- The node that steps from a root lead to. -/
def target (root : NodeId) : List Step → NodeId
  | [] => root
  | step :: _ => step.node

def node (path : Path) : NodeId :=
  target path.root path.steps

def slot? (path : Path) : Option Slot :=
  path.steps.head?.map (·.slot)

/-- The path to the parent of the node, unless it is the root. -/
def parent? (path : Path) : Option Path :=
  match path.steps with
  | [] => none
  | _ :: above => some { path with steps := above }

def isRoot (path : Path) : Bool :=
  path.steps.isEmpty

def depth (path : Path) : Nat :=
  path.steps.length

def belongsTo (path : Path) (tree : Tree) : Bool :=
  path.tree = tree.id

/-- The paths that take the last step off one by one, from the whole path to the root. -/
def ancestorsOf (tree : TreeId) (root : NodeId) : List Step → List Path
  | [] => [⟨tree, root, []⟩]
  | step :: above => ⟨tree, root, step :: above⟩ :: ancestorsOf tree root above

/-- The path itself, the path to its parent, and so on up to the root. -/
def ancestors (path : Path) : List Path :=
  ancestorsOf path.tree path.root path.steps

/-- The nodes along a path, from the one it leads to up to the root. -/
def chain (path : Path) : List NodeId :=
  path.steps.map (·.node) ++ [path.root]

def isWithin (path : Path) (node : NodeId) : Bool :=
  path.chain.contains node

/-- Whether two paths lead through the same nodes of the same tree. -/
def same (path other : Path) : Bool :=
  path.tree = other.tree && path.chain = other.chain

def children (path : Path) (tree : Tree) : Except Defect (List Path) := do
  let node ← tree.lookup path.node
  return node.children.map fun (slot, child) => path.child slot child.label.number

/-- The indices, among the children of their parents, of the nodes that steps from a root reach, from
the top down. A node that is no child of its parent has none. -/
def indicesAlong (tree : Tree) (root : NodeId) : List Step → Except Defect (List Nat)
  | [] => .ok []
  | step :: above => do
    let parent ← tree.lookup (target root above)
    let indices ← indicesAlong tree root above
    return indices ++ (parent.children.findIdx? (·.2.label.number = step.node)).toList

/-- The index of each node on the path among the children of its parent, from the root down. -/
def indices (path : Path) (tree : Tree) : Except Defect (List Nat) :=
  indicesAlong tree path.root path.steps

/-- The path to the element of the same list that stands `offset` places further on. -/
def sibling? (path : Path) (tree : Tree) (offset : Int) : Except Defect (Option Path) :=
  match path.steps with
  | [] => .ok none
  | step :: above =>
    match step.slot.shift? offset with
    | none => .ok none
    | some slot => do
      let parent ← tree.lookup (target path.root above)
      return (parent.childAt? slot).map fun sibling =>
        { path with steps := ⟨slot, sibling.label.number⟩ :: above }

/-- A path is written as the slots along it, from the root down. -/
def render (path : Path) : String :=
  "Path(" ++ ".".intercalate (path.steps.reverse.map (·.slot.render)) ++ ")"

/-- How a path that may be missing is written. -/
def renderOption : Option Path → String
  | none => "None"
  | some path => "Some(" ++ path.render ++ ")"

end Path

end SyntaxNav

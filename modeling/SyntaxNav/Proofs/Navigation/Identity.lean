import SyntaxNav.Proofs.Tree.Indices
import SyntaxNav.Navigation.Noted

/-! # Navigation and the identity of trees

A tree is told apart from other trees by its identity, and a path remembers that of its tree. Nothing
else depends on it: if a tree and the paths in it are given another identity together, every move leads
to the same place as before, and paths keep their indices.
-/

namespace SyntaxNav

/-- The same tree with another identity. -/
def Tree.withId (tree : Tree) (id : TreeId) : Tree := { tree with id }

def Path.withId (id : TreeId) (path : Path) : Path := { path with tree := id }

variable (id : TreeId)

namespace Path

variable (path : Path)

@[simp] theorem withId_node : (path.withId id).node = path.node := rfl

@[simp] theorem withId_slot? : (path.withId id).slot? = path.slot? := rfl

@[simp] theorem withId_isWithin (node : NodeId) :
    (path.withId id).isWithin node = path.isWithin node := rfl

@[simp] theorem withId_belongsTo (tree : Tree) : (path.withId id).belongsTo (tree.withId id) = true :=
  decide_eq_true rfl

@[simp] theorem withId_parent? : (path.withId id).parent? = path.parent?.map (withId id) := by
  obtain ⟨tree, root, steps⟩ := path
  cases steps <;> rfl

/-- The indices along a path do not depend on the identity of the tree. -/
theorem withId_indices (tree : Tree) : (path.withId id).indices (tree.withId id) = path.indices tree := by
  have along (steps : List Step) :
      indicesAlong (tree.withId id) path.root steps = indicesAlong tree path.root steps := by
    induction steps with
    | nil => rfl
    | cons step above ih =>
      rw [indicesAlong, indicesAlong, ih]
      rfl
  exact along path.steps

private theorem withId_sibling? (tree : Tree) (offset : Int) :
    (path.withId id).sibling? (tree.withId id) offset =
      (path.sibling? tree offset).map (Option.map (withId id)) := by
  obtain ⟨own, root, steps⟩ := path
  cases steps with
  | nil => rfl
  | cons step above =>
    have same (number : NodeId) : (tree.withId id).lookup number = tree.lookup number := rfl
    simp only [sibling?, withId, same]
    split
    · rfl
    · cases tree.lookup (target root above) with
      | error defect => rfl
      | ok parent =>
        simp only [bind, Except.bind, pure, Except.pure, Except.map, Option.map_map]
        rfl

end Path

namespace Visit

def withId (visit : Visit) : Visit := ⟨visit.path.withId id, visit.node⟩

private theorem withId_children (visit : Visit) :
    (visit.withId id).children = visit.children.map (withId id) := by
  simp only [children, withId, List.map_map]
  rfl

private theorem preorder_withId (stack : List Visit) :
    preorder (stack.map (withId id)) = (preorder stack).map (withId id) := by
  induction stack using preorder.induct with
  | case1 => simp [preorder]
  | case2 visit stack ih =>
    rw [List.map_cons, preorder, withId_children, ← List.map_append, ih, ← List.map_cons]
    rw [← preorder]

/-- The same visit, waiting in a traversal of a tree with another identity. -/
def Pending.withId (pending : Pending) : Pending := (pending.1.withId id, pending.2)

private theorem postorder_withId (stack : List Pending) :
    postorder (stack.map (Pending.withId id)) = (postorder stack).map (withId id) := by
  induction stack using postorder.induct with
  | case1 => simp [postorder]
  | case2 visit stack ih =>
    rw [List.map_cons, Pending.withId, postorder, ih, ← List.map_cons, ← postorder]
  | case3 visit stack ih =>
    rw [List.map_cons, Pending.withId, postorder, postorder, ← ih, withId_children]
    simp only [List.map_append, List.map_map, List.map_cons]
    rfl

private theorem below_withId (direction : Direction) (visit : Visit) :
    direction.below (visit.withId id) = (direction.below visit).map (withId id) := by
  cases direction with
  | forward =>
    rw [Direction.below, Direction.below, below, below, withId_children, preorder_withId]
  | backward =>
    rw [Direction.below, Direction.below, belowUpward, belowUpward, withId_children,
      ← postorder_withId]
    simp only [List.map_map]
    rfl

private theorem ofPath_withId (tree : Tree) (path : Path) :
    ofPath (tree.withId id) (path.withId id) = (ofPath tree path).map (withId id) := by
  have same : (tree.withId id).lookup path.node = tree.lookup path.node := rfl
  rw [ofPath, Path.withId_node, same, ofPath]
  cases tree.lookup path.node <;> rfl

/-- Indices lead to the same place in a tree with another identity. -/
theorem descend?_withId (visit : Visit) (indices : List Nat) :
    (visit.withId id).descend? indices = (visit.descend? indices).map (withId id) := by
  induction indices generalizing visit with
  | nil => rfl
  | cons index rest ih =>
    rw [descend?, descend?, withId_children, List.getElem?_map]
    cases visit.children[index]? with
    | none => rfl
    | some child => exact ih child

end Visit

/-- The same indices lead to the same path in a tree with another identity. -/
theorem Tree.pathAt?_withId (tree : Tree) (indices : List Nat) :
    (tree.withId id).pathAt? indices = (tree.pathAt? indices).map (Path.withId id) := by
  have root : Visit.ofRoot (tree.withId id) = (Visit.ofRoot tree).withId id := rfl
  rw [pathAt?, root, Visit.descend?_withId, pathAt?, Option.map_map, Option.map_map]
  rfl

private theorem Tree.locate?_withId (tree : Tree) (span : Span) :
    (tree.withId id).locate? span = (tree.locate? span).map (Path.withId id) := by
  have visits : Visit.including (.ofRoot (tree.withId id)) =
      (Visit.including (.ofRoot tree)).map (Visit.withId id) :=
    Visit.preorder_withId id [.ofRoot tree]
  have fits : Visit.fits span ∘ Visit.withId id = Visit.fits span := rfl
  have isOnLineOf : Visit.isOnLineOf span ∘ Visit.withId id = Visit.isOnLineOf span := rfl
  simp only [locate?_eq, visits, List.filter_map, List.getLast?_map, List.find?_map, fits, isOnLineOf,
    ← Option.map_or, Option.map_map]
  rfl

namespace RemovalTarget

def withId : RemovalTarget → RemovalTarget
  | current path => current (path.withId id)
  | atSpan span => atSpan span

/-- A target whose path, if it has one, was made for a tree. -/
def BelongsTo (tree : Tree) : RemovalTarget → Prop
  | current path => path.belongsTo tree = true
  | atSpan _ => True

end RemovalTarget

def Removal.withId (removal : Removal) : Removal :=
  { removal with path := removal.path.map (Path.withId id) }

namespace Navigator

variable (navigator : Navigator)

def withId : Navigator := { navigator with tree := navigator.tree.withId id }

/-- The same node is found at a span. -/
theorem locate_withId (span : Span) :
    (navigator.withId id).locate span = (navigator.locate span).map (Path.withId id) :=
  navigator.tree.locate?_withId id span

/-- Going out leads to the same node, from a path of the tree or from nowhere. -/
theorem expand_withId (span : Span) {current : Option Path}
    (belongs : ∀ path, current = some path → path.belongsTo navigator.tree = true) :
    (navigator.withId id).expand span (current.map (Path.withId id)) =
      (navigator.expand span current).map (Path.withId id) := by
  cases current with
  | none => exact navigator.locate_withId id span
  | some path =>
    have inside : (path.withId id).belongsTo (navigator.withId id).tree = true :=
      path.withId_belongsTo id navigator.tree
    rw [Option.map_some, expand, expand, if_pos (belongs path rfl), if_pos inside, Path.withId_parent?]

private theorem beside_withId (direction : Direction) (parent : Visit) (slot : Slot) (child : NodeId) :
    (navigator.withId id).beside direction (parent.withId id) slot child =
      (navigator.beside direction parent slot child).map (Visit.withId id) := by
  have kind : (parent.withId id).node.label.kind = parent.node.label.kind := rfl
  have order : (navigator.withId id).order = navigator.order := rfl
  simp only [beside, kind, order, Visit.below_withId, List.find?_map]
  split
  · cases direction.beside? navigator.order parent.node.label.kind slot.field <;> rfl
  · rfl

variable {path : Path} (belongs : path.belongsTo navigator.tree = true)

include belongs

/-- Going in leads to the same node. -/
theorem shrink_withId :
    (navigator.withId id).shrink (path.withId id) =
      (navigator.shrink path).map (Option.map (Path.withId id)) := by
  have inside : (path.withId id).belongsTo (navigator.withId id).tree = true :=
    path.withId_belongsTo id navigator.tree
  have visited := Visit.ofPath_withId id navigator.tree path
  rw [shrink, shrink, if_pos belongs, if_pos inside, withId, visited]
  cases Visit.ofPath navigator.tree path with
  | error defect => rfl
  | ok visit =>
    have below := Visit.below_withId id .forward visit
    simp only [Direction.below] at below
    simp only [Except.map, bind, Except.bind, pure, Except.pure, below, List.head?_map, Option.map_map]
    rfl

/-- Stepping aside leads to the same node. -/
theorem step_withId (direction : Direction) :
    (navigator.withId id).step direction (path.withId id) =
      (navigator.step direction path).map (Option.map (Path.withId id)) := by
  have inside := path.withId_belongsTo id navigator.tree
  have siblings := path.withId_sibling? id navigator.tree direction.offset
  have tree : (navigator.withId id).tree = navigator.tree.withId id := rfl
  simp only [step, if_pos belongs, tree, if_pos inside, siblings, Path.withId_parent?, Path.withId_slot?]
  cases path.sibling? navigator.tree direction.offset with
  | error defect => rfl
  | ok sibling =>
    cases sibling with
    | some sibling => rfl
    | none =>
      cases path.parent? with
      | none => rfl
      | some parentPath =>
        cases path.slot? with
        | none => rfl
        | some slot =>
          simp only [Option.map_some, Except.map, bind, Except.bind, Visit.ofPath_withId]
          cases Visit.ofPath navigator.tree parentPath with
          | error defect => rfl
          | ok parent =>
            simp only [pure, Except.pure, Path.withId_node, beside_withId, Option.map_map]
            rfl

omit belongs in
/-- The same removal is planned for a target that belongs to the tree. -/
theorem plan_withId {target : RemovalTarget} (belongs : target.BelongsTo navigator.tree) :
    (navigator.withId id).plan (target.withId id) =
      (navigator.plan target).map (Option.map (Removal.withId id)) := by
  have lookup (number : NodeId) :
      (navigator.withId id).tree.lookup number = navigator.tree.lookup number := rfl
  cases target with
  | current path =>
    have inside : (path.withId id).belongsTo (navigator.withId id).tree = true :=
      path.withId_belongsTo id navigator.tree
    have before : path.belongsTo navigator.tree = true := belongs
    simp only [RemovalTarget.withId, plan, if_pos before, if_pos inside, Path.withId_node, lookup]
    cases navigator.tree.lookup path.node with
    | error defect => rfl
    | ok node =>
      simp only [bind, Except.bind, pure, Except.pure, Except.map, Option.map_map]
      rfl
  | atSpan span =>
    simp only [RemovalTarget.withId, plan, locate_withId]
    cases navigator.locate span with
    | none => rfl
    | some path =>
      simp only [Option.map_some, Path.withId_parent?]
      cases path.parent? with
      | none => rfl
      | some parentPath =>
        simp only [Option.map_some, Path.withId_node, lookup]
        cases navigator.tree.lookup path.node with
        | error defect => rfl
        | ok node =>
          cases navigator.tree.lookup parentPath.node with
          | error defect => rfl
          | ok parent =>
            simp only [bind, Except.bind, pure, Except.pure, Except.map]
            cases node.label.span with
            | none => rfl
            | some deleted => cases parent.label.span <;> rfl

end Navigator

end SyntaxNav

import Mathlib.Data.List.Perm.Basic
import SyntaxNav.Navigation.Navigator
import SyntaxNav.Proofs.Tree.Leading

/-! # What lies below a node

A path lies below another one if it goes on from it by at least one step. The two traversals are given
with a stack; here they are taken apart child by child: all that is handed out below a node is handed out
around one of its children, parents first or children first (`Direction.below_eq_flatMap`). Both hand out
the same visits, and each of their paths lies below the path they start from.
-/

namespace SyntaxNav

namespace Path

/-- A path goes on from another one by at least one step. -/
def Below (path above : Path) : Prop :=
  above ∈ path.ancestors ∧ path ≠ above

variable {path middle above other : Path}

/-- The ancestors of a path are the paths that it goes on from. -/
theorem mem_ancestors_iff :
    above ∈ path.ancestors ↔ ∃ steps, path = { above with steps := steps ++ above.steps } := by
  obtain ⟨tree, root, steps⟩ := path
  obtain ⟨aboveTree, aboveRoot, aboveSteps⟩ := above
  simp only [ancestors, Path.mk.injEq]
  induction steps with
  | nil =>
    simp only [ancestorsOf, List.mem_singleton, Path.mk.injEq]
    constructor
    · rintro ⟨rfl, rfl, rfl⟩
      exact ⟨[], rfl, rfl, rfl⟩
    · rintro ⟨steps, rfl, rfl, nothing⟩
      exact ⟨rfl, rfl, (List.append_eq_nil_iff.mp nothing.symm).2⟩
  | cons step rest ih =>
    simp only [ancestorsOf, List.mem_cons, Path.mk.injEq, ih]
    constructor
    · rintro (⟨rfl, rfl, rfl⟩ | ⟨steps, rfl, rfl, rfl⟩)
      · exact ⟨[], rfl, rfl, rfl⟩
      · exact ⟨step :: steps, rfl, rfl, rfl⟩
    · rintro ⟨steps, rfl, rfl, whole⟩
      cases steps with
      | nil => exact .inl ⟨rfl, rfl, whole.symm⟩
      | cons first steps =>
        obtain ⟨rfl, rfl⟩ := List.cons.inj whole
        exact .inr ⟨steps, rfl, rfl, rfl⟩

theorem mem_ancestors_self (path : Path) : path ∈ path.ancestors :=
  mem_ancestors_iff.mpr ⟨[], rfl⟩

/-- A path is an ancestor of the paths to its children. -/
theorem mem_ancestors_child (path : Path) (slot : Slot) (node : NodeId) :
    path ∈ (path.child slot node).ancestors :=
  mem_ancestors_iff.mpr ⟨[⟨slot, node⟩], rfl⟩

/-- Ancestors of ancestors are ancestors. -/
theorem mem_ancestors_trans (lower : middle ∈ path.ancestors) (upper : above ∈ middle.ancestors) :
    above ∈ path.ancestors := by
  obtain ⟨steps, rfl⟩ := mem_ancestors_iff.mp lower
  obtain ⟨further, rfl⟩ := mem_ancestors_iff.mp upper
  exact mem_ancestors_iff.mpr ⟨steps ++ further, by rw [List.append_assoc]⟩

/-- A path is below another one just if it goes on from it by at least one step. -/
theorem below_iff :
    path.Below above ↔
      ∃ steps, steps ≠ [] ∧ path = { above with steps := steps ++ above.steps } := by
  rw [Below, mem_ancestors_iff]
  constructor
  · rintro ⟨⟨steps, rfl⟩, differs⟩
    refine ⟨steps, ?_, rfl⟩
    rintro rfl
    exact differs rfl
  · rintro ⟨steps, someStep, rfl⟩
    refine ⟨⟨steps, rfl⟩, ?_⟩
    intro same
    exact someStep (List.append_left_eq_self.mp (congrArg Path.steps same))

/-- A path that lies below another one has more steps. -/
theorem Below.depth_lt (below : path.Below above) : above.depth < path.depth := by
  obtain ⟨steps, someStep, rfl⟩ := below_iff.mp below
  have positive := List.length_pos_iff.mpr someStep
  simp only [depth, List.length_append]
  omega

/-- What leads through a child of a path lies below the path. -/
theorem below_of_child {slot : Slot} {node : NodeId}
    (through : above.child slot node ∈ path.ancestors) : path.Below above := by
  obtain ⟨steps, rfl⟩ := mem_ancestors_iff.mp through
  exact below_iff.mpr ⟨steps ++ [⟨slot, node⟩], by simp, by simp [child]⟩

/-- A path leads through one path of each depth at most. -/
theorem ancestor_unique (one : above ∈ path.ancestors) (two : other ∈ path.ancestors)
    (level : above.depth = other.depth) : above = other := by
  obtain ⟨steps, rfl⟩ := mem_ancestors_iff.mp one
  obtain ⟨others, same⟩ := mem_ancestors_iff.mp two
  obtain ⟨tree, root, aboveSteps⟩ := above
  obtain ⟨otherTree, otherRoot, otherSteps⟩ := other
  simp only [Path.mk.injEq] at same
  obtain ⟨rfl, rfl, whole⟩ := same
  obtain ⟨-, rfl⟩ := List.append_inj' whole level
  rfl

end Path

namespace Visit

private theorem preorder_append (first second : List Visit) :
    preorder (first ++ second) = preorder first ++ preorder second := by
  induction first using preorder.induct with
  | case1 => rw [preorder, List.nil_append, List.nil_append]
  | case2 visit stack ih =>
    rw [List.cons_append, preorder, ← List.append_assoc, ih, ← List.cons_append, ← preorder]

private theorem postorder_append (first second : List Pending) :
    postorder (first ++ second) = postorder first ++ postorder second := by
  induction first using postorder.induct with
  | case1 => rw [postorder, List.nil_append, List.nil_append]
  | case2 visit stack ih => rw [List.cons_append, postorder, ih, postorder, List.cons_append]
  | case3 visit stack ih =>
    rw [List.append_assoc, List.cons_append] at ih
    rw [List.cons_append, postorder, ih, postorder]

/-- The visits of a stack are made one after another, each with all that lies below it. -/
theorem preorder_eq_flatMap (stack : List Visit) :
    preorder stack = stack.flatMap fun visit => visit :: visit.below := by
  induction stack with
  | nil => rw [preorder, List.flatMap_nil]
  | cons visit stack ih =>
    rw [preorder, preorder_append, ih, List.flatMap_cons, List.cons_append]
    rfl

private theorem postorder_eq_flatMap (visits : List Visit) :
    postorder (visits.map (·, false)) = visits.flatMap fun visit => visit.belowUpward ++ [visit] := by
  induction visits with
  | nil => rw [List.map_nil, postorder, List.flatMap_nil]
  | cons visit rest ih =>
    rw [List.map_cons, postorder, postorder_append, postorder, ih, List.flatMap_cons,
      List.append_assoc, List.singleton_append]
    rfl

/-- Both traversals hand out the same visits. -/
theorem belowUpward_perm_below (visit : Visit) : visit.belowUpward.Perm visit.below := by
  obtain ⟨path, node⟩ := visit
  induction node using SlotTree.induct generalizing path with
  | step label children ih =>
    rw [belowUpward, postorder_eq_flatMap, below, preorder_eq_flatMap]
    refine List.Perm.flatMap_left _ fun child member => ?_
    obtain ⟨entry, entryMember, rfl⟩ := List.mem_map.mp member
    exact (List.perm_append_singleton _ _).trans ((ih entry entryMember _).cons _)

/-- The children of a visit are the visits to the children of its node. -/
theorem mem_children {visit child : Visit} :
    child ∈ visit.children ↔ ∃ entry ∈ visit.node.children,
      child = ⟨visit.path.child entry.1 entry.2.label.number, entry.2⟩ := by
  simp only [children, List.mem_map, eq_comm]

/-- What is handed out from a stack leads through one of its visits. -/
theorem through_of_mem_preorder {stack : List Visit} {visit : Visit} (member : visit ∈ preorder stack) :
    ∃ top ∈ stack, top.path ∈ visit.path.ancestors := by
  induction stack using preorder.induct with
  | case1 =>
    rw [preorder] at member
    exact absurd member List.not_mem_nil
  | case2 first stack ih =>
    rw [preorder, List.mem_cons] at member
    rcases member with rfl | member
    · exact ⟨visit, List.mem_cons_self, visit.path.mem_ancestors_self⟩
    · obtain ⟨top, among, through⟩ := ih member
      rcases List.mem_append.mp among with isChild | later
      · obtain ⟨entry, -, rfl⟩ := mem_children.mp isChild
        exact ⟨first, List.mem_cons_self,
          Path.mem_ancestors_trans through (first.path.mem_ancestors_child _ _)⟩
      · exact ⟨top, List.mem_cons_of_mem _ later, through⟩

/-- Every visit below another one has a path below its path. -/
theorem path_below {visit inner : Visit} (member : inner ∈ visit.below) :
    inner.path.Below visit.path := by
  obtain ⟨top, isChild, through⟩ := through_of_mem_preorder member
  obtain ⟨entry, -, rfl⟩ := mem_children.mp isChild
  exact Path.below_of_child through

end Visit

namespace Direction

variable (direction : Direction)

/-- A visit with all visits below it, in the order of a direction. -/
def around (visit : Visit) : List Visit :=
  match direction with
  | forward => visit :: visit.below
  | backward => visit.belowUpward ++ [visit]

/-- What lies below a visit is handed out child by child. -/
theorem below_eq_flatMap (visit : Visit) :
    direction.below visit = visit.children.flatMap direction.around := by
  cases direction with
  | forward => exact Visit.preorder_eq_flatMap visit.children
  | backward => exact Visit.postorder_eq_flatMap visit.children

/-- Both directions visit the same nodes below a node. -/
theorem mem_below_iff {visit inner : Visit} : inner ∈ direction.below visit ↔ inner ∈ visit.below := by
  cases direction with
  | forward => exact Iff.rfl
  | backward => exact visit.belowUpward_perm_below.mem_iff

/-- Around a node are the node itself and all below it, in either direction. -/
theorem mem_around_iff {visit inner : Visit} :
    inner ∈ direction.around visit ↔ inner = visit ∨ inner ∈ visit.below := by
  cases direction with
  | forward => exact List.mem_cons
  | backward =>
    rw [around, List.mem_append, List.mem_singleton, visit.belowUpward_perm_below.mem_iff, or_comm]

end Direction

end SyntaxNav

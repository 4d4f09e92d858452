import SyntaxNav.Proofs.Tree.Building
import SyntaxNav.Tree.Traversal

/-! # Counting nodes

A traversal from the root hands out every node of a tree once, and planting a draft makes one node for
each of its own. So the tree of a draft has no node besides those that a traversal hands out.
-/

namespace SyntaxNav

namespace SlotTree

variable {α β : Type}

/-- Changing labels keeps the number of nodes. -/
theorem size_relabel (change : α → β) (tree : SlotTree α) : (tree.relabel change).size = tree.size := by
  induction tree using SlotTree.induct with
  | step label children ih =>
    have same : sizes (children.map fun child => (child.1, child.2.relabel change)) = sizes children := by
      induction children with
      | nil => rfl
      | cons child rest ihRest =>
        obtain ⟨first, others⟩ := List.forall_mem_cons.mp ih
        rw [List.map_cons, sizes, sizes, first, ihRest others]
    rw [relabel_node, size, size, same]

end SlotTree

namespace Visit

/-- A traversal hands out as many visits as there are nodes under the visits it starts from. -/
theorem length_preorder (stack : List Visit) : (preorder stack).length = work stack := by
  induction stack using preorder.induct with
  | case1 =>
    rw [preorder]
    rfl
  | case2 visit stack ih =>
    have below := work_children visit
    rw [preorder, List.length_cons, ih, work_append, work_cons]
    omega

private theorem length_including (visit : Visit) : visit.including.length = visit.node.size := by
  rw [including, length_preorder, work_cons]
  rfl

end Visit

namespace Builder

variable {builder after : Builder} {label : Label} {children : List (Slot × NodeId)} {number : NodeId}

private theorem nodes_size (builder : Builder) : builder.nodes.size = builder.made.size := by
  rw [nodes, Array.size_map]

/-- A call makes one node. -/
theorem add_size (added : builder.add label children = .ok (number, after)) :
    after.made.size = builder.made.size + 1 := by
  obtain ⟨below, pushed, -⟩ := add_nodes added
  rw [← nodes_size, ← nodes_size, pushed, Array.size_push]

end Builder

namespace Draft

variable {backward : MakingOrder} {builder after : Builder}

/-- Planting a draft makes a node for each of its own. -/
def PlantsSize (backward : MakingOrder) (draft : Draft) : Prop :=
  ∀ builder number after, plant backward draft builder = .ok (number, after) →
    after.made.size = builder.made.size + draft.size

private theorem plantAll_size {lastFirst : Bool} {drafts : List (Slot × Draft)}
    {numbers : List (Slot × NodeId)} (sized : ∀ draft ∈ drafts, PlantsSize backward draft.2)
    (planted : plantAll backward lastFirst drafts builder = .ok (numbers, after)) :
    after.made.size = builder.made.size + SlotTree.sizes drafts := by
  induction drafts generalizing builder numbers after with
  | nil =>
    cases planted
    rfl
  | cons draft rest ih =>
    obtain ⟨slot, draft⟩ := draft
    obtain ⟨sizedFirst, sizedRest⟩ := List.forall_mem_cons.mp sized
    rw [SlotTree.sizes]
    cases lastFirst with
    | true =>
      obtain ⟨restNumbers, middle, plantedRest, -⟩ := plantAll_of_plants backward true rest
        (fun draft _ => plants backward draft.2) builder
      obtain ⟨number, final, plantedLast, -⟩ := plants backward draft middle
      simp only [plantAll, ↓reduceIte, plantedRest, plantedLast, bind, Except.bind, pure, Except.pure,
        Except.ok.injEq, Prod.mk.injEq] at planted
      obtain ⟨-, rfl⟩ := planted
      have restSize := ih sizedRest plantedRest
      have firstSize : final.made.size = middle.made.size + draft.size :=
        sizedFirst middle number final plantedLast
      omega
    | false =>
      obtain ⟨number, middle, plantedFirst, -⟩ := plants backward draft builder
      obtain ⟨restNumbers, final, plantedRest, -⟩ := plantAll_of_plants backward false rest
        (fun draft _ => plants backward draft.2) middle
      simp only [plantAll, Bool.false_eq_true, ↓reduceIte, plantedFirst, plantedRest, bind, Except.bind,
        pure, Except.pure, Except.ok.injEq, Prod.mk.injEq] at planted
      obtain ⟨-, rfl⟩ := planted
      have restSize := ih sizedRest plantedRest
      have firstSize : middle.made.size = builder.made.size + draft.size :=
        sizedFirst builder number middle plantedFirst
      omega

private theorem plant_size (draft : Draft) : PlantsSize backward draft := by
  induction draft using SlotTree.induct with
  | step label children ih =>
    intro builder number after planted
    rw [plant] at planted
    cases made : plantAll backward (backward label.kind) children builder with
    | error defect =>
      rw [made] at planted
      cases planted
    | ok result =>
      obtain ⟨numbers, middle⟩ := result
      rw [made] at planted
      have below := plantAll_size ih made
      have here := Builder.add_size planted
      rw [SlotTree.size]
      omega

/-- The tree of a draft has as many nodes as a traversal from its root hands out. -/
theorem toTree_numNodes {backward : MakingOrder} {id : TreeId} {draft : Draft} {tree : Tree}
    (made : draft.toTree backward id = .ok tree) :
    tree.numNodes = (Visit.ofRoot tree).including.length := by
  obtain ⟨root, builder, planted, -, -, node, found, same⟩ := plants backward draft .empty
  have finished : builder.finish id root = .ok ⟨id, builder.nodes, node⟩ :=
    Builder.finish_eq_ok_iff.mpr ⟨node, found, rfl⟩
  simp only [toTree, planted, finished, bind, Except.bind, Except.ok.injEq] at made
  subst made
  have counted := plant_size draft Builder.empty root builder planted
  have size : node.size = draft.size := by rw [← same, SlotTree.size_relabel]
  calc builder.nodes.size
      = builder.made.size := builder.nodes_size
    _ = 0 + draft.size := counted
    _ = node.size := by rw [size, Nat.zero_add]
    _ = (Visit.ofRoot ⟨id, builder.nodes, node⟩).including.length :=
      (Visit.length_including (Visit.ofRoot ⟨id, builder.nodes, node⟩)).symm

end Draft

end SyntaxNav

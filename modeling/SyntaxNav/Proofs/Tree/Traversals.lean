import SyntaxNav.Proofs.Tree.PathIdentity

/-! # Traversals are recursions

The traversals keep a stack of visits still to be made. What they hand out is listed here by recursion over
the tree: a node with all that lies below it, child by child, and the node itself in front of its children
or behind them. Emptying a stack lists its visits one after another (`Visit.preorder_eq_flatMap`,
`Visit.postorder_eq_flatMap`), so an induction over the tree makes the two the same. As only one path of a
built tree leads to each node, a traversal hands out each path within its node once, and no other path.
-/

namespace SyntaxNav

namespace Direction

variable (direction : Direction)

mutual

/-- A path and all paths below it, child by child: the path in front of them on the way forward, and behind
them on the way back. -/
def listing (path : Path) : Node → List Path
  | .node _ children =>
    match direction with
    | forward => path :: listingBelow path children
    | backward => listingBelow path children ++ [path]

/-- All paths below a path to a node with these children. -/
def listingBelow (path : Path) : List (Slot × Node) → List Path
  | [] => []
  | (slot, child) :: rest =>
    listing (path.child slot child.label.number) child ++ listingBelow path rest

end

private theorem listingBelow_eq_flatMap (path : Path) (children : List (Slot × Node)) :
    direction.listingBelow path children =
      children.flatMap fun entry => direction.listing (path.child entry.1 entry.2.label.number) entry.2 := by
  induction children with
  | nil => rfl
  | cons entry rest ih => rw [listingBelow, ih, List.flatMap_cons]

/-- All that is handed out below a node is listed, if it is around each of its children. -/
theorem map_path_below_of_children {path : Path} {label : Numbered} {children : List (Slot × Node)}
    (each : ∀ entry ∈ children, ∀ path, (direction.around ⟨path, entry.2⟩).map (·.path) =
      direction.listing path entry.2) :
    (direction.below ⟨path, .node label children⟩).map (·.path) = direction.listingBelow path children := by
  rw [below_eq_flatMap, listingBelow_eq_flatMap, List.map_flatMap, Visit.children, List.flatMap_map]
  exact List.flatMap_congr fun entry member => each entry member _

private theorem map_path_around (visit : Visit) :
    (direction.around visit).map (·.path) = direction.listing visit.path visit.node := by
  obtain ⟨path, node⟩ := visit
  induction node using SlotTree.induct generalizing path with
  | step label children ih =>
    have below : (direction.below ⟨path, .node label children⟩).map (·.path) =
        direction.listingBelow path children := direction.map_path_below_of_children ih
    cases direction with
    | forward => exact congrArg (path :: ·) below
    | backward => exact List.map_append.trans (congrArg (· ++ [path]) below)

private theorem map_path_below (visit : Visit) :
    (direction.below visit).map (·.path) = direction.listingBelow visit.path visit.node.children := by
  obtain ⟨path, label, children⟩ := visit
  exact direction.map_path_below_of_children fun entry _ path => direction.map_path_around ⟨path, entry.2⟩

end Direction

namespace Visit

private theorem including_eq_cons (visit : Visit) : visit.including = visit :: visit.below := by
  rw [including, preorder_eq_flatMap, List.flatMap_singleton]

private theorem mem_including_of_descend? {visit inner : Visit} {indices : List Nat}
    (reached : visit.descend? indices = some inner) : inner ∈ visit.including := by
  induction indices generalizing visit with
  | nil =>
    cases reached
    rw [including_eq]
    exact List.mem_cons_self
  | cons index rest ih =>
    obtain ⟨child, here, reached⟩ := Option.bind_eq_some_iff.mp reached
    rw [including_eq]
    exact List.mem_cons_of_mem _ (List.mem_flatMap.mpr ⟨child, List.mem_of_getElem? here, ih reached⟩)

end Visit

/-- Visits are made to just those paths of a tree that are wanted, once to each of them and with the node
that is found there. -/
structure HandsOut (tree : Tree) (visits : List Visit) (wanted : Path → Prop) : Prop where
  once : (visits.map (·.path)).Nodup
  just : ∀ path, path ∈ visits.map (·.path) ↔ path.Genuine tree ∧ wanted path
  nodes : ∀ visit ∈ visits, tree.lookup visit.path.node = .ok visit.node

namespace HandsOut

variable {tree : Tree} {visits others : List Visit} {wanted : Path → Prop}

/-- The order of the visits does not matter. -/
theorem perm (handsOut : HandsOut tree visits wanted) (same : others.Perm visits) :
    HandsOut tree others wanted where
  once := (same.map _).nodup_iff.mpr handsOut.once
  just path := (same.map _).mem_iff.trans (handsOut.just path)
  nodes visit member := handsOut.nodes visit (same.mem_iff.mp member)

/-- Without the first visit, the paths other than its own are handed out. -/
theorem tail {visit : Visit} (handsOut : HandsOut tree (visit :: visits) wanted) :
    HandsOut tree visits fun path => wanted path ∧ path ≠ visit.path where
  once := (List.nodup_cons.mp handsOut.once).2
  just path := by
    have fresh : visit.path ∉ visits.map (·.path) := (List.nodup_cons.mp handsOut.once).1
    rw [← and_assoc, ← handsOut.just, List.map_cons, List.mem_cons]
    constructor
    · intro member
      refine ⟨.inr member, ?_⟩
      rintro rfl
      exact fresh member
    · rintro ⟨same | member, differs⟩
      · exact absurd same differs
      · exact member
  nodes other member := handsOut.nodes other (List.mem_cons_of_mem _ member)

end HandsOut

namespace Tree

variable {tree : Tree} {path : Path} {node : Node}

/-- From a path on, the visits are those whose paths lead through it. -/
theorem Leads.mem_including_iff (leads : tree.Leads path node) (built : tree.Built) {inner : Visit} :
    inner ∈ Visit.including ⟨path, node⟩ ↔
      tree.Leads inner.path inner.node ∧ path ∈ inner.path.ancestors := by
  constructor
  · intro member
    obtain ⟨indices, reached⟩ := Visit.descend?_of_mem_including member
    have allLead : AllLead tree (Visit.including ⟨path, node⟩) :=
      AllLead.preorder (List.forall_mem_singleton.mpr leads)
    exact ⟨allLead inner member, (Visit.within_of_descend? reached).1⟩
  · rintro ⟨innerLeads, upward⟩
    obtain ⟨indices, reached⟩ := leads.exists_descend? innerLeads built upward
    exact Visit.mem_including_of_descend? reached

/-- No path is handed out twice: the indices of the paths go up. -/
theorem Leads.nodup_including (leads : tree.Leads path node) (built : tree.Built) :
    ((Visit.including ⟨path, node⟩).map (·.path)).Nodup := by
  obtain ⟨own, -, reached⟩ := leads.indices built
  rw [List.Nodup, List.pairwise_map]
  refine (Visit.including_reachedInOrder ⟨path, node⟩).imp ?_
  rintro first second ⟨indices, others, firstReached, secondReached, order⟩ same
  have place {further : List Nat} {inner : Visit}
      (onward : Visit.descend? ⟨path, node⟩ further = some inner) :
      inner.path.indices tree = .ok (own ++ further) := by
    apply built.indices_of_descend?
    rw [Visit.descend?_append, reached, Option.bind_some, onward]
  have equal : own ++ indices = own ++ others :=
    Except.ok.inj ((place firstReached).symm.trans (same ▸ place secondReached))
  rw [List.append_cancel_left equal] at order
  exact List.lt_irrefl others order

private theorem Leads.including_handsOut (leads : tree.Leads path node) (built : tree.Built) :
    HandsOut tree (Visit.including ⟨path, node⟩) (·.isWithin path.node = true) where
  once := leads.nodup_including built
  just other := by
    constructor
    · intro listed
      obtain ⟨inner, member, rfl⟩ := List.mem_map.mp listed
      obtain ⟨innerLeads, upward⟩ := (leads.mem_including_iff built).mp member
      exact ⟨innerLeads.genuine, (leads.genuine.isWithin_iff built innerLeads.genuine).mpr upward⟩
    · rintro ⟨⟨otherNode, otherLeads⟩, within⟩
      have upward := (leads.genuine.isWithin_iff built otherLeads.genuine).mp within
      have member : ⟨other, otherNode⟩ ∈ Visit.including ⟨path, node⟩ :=
        (leads.mem_including_iff built).mpr ⟨otherLeads, upward⟩
      exact List.mem_map_of_mem member
  nodes inner member :=
    ((leads.mem_including_iff built).mp member).1.lookup built.coherent

private theorem Leads.below_handsOut (leads : tree.Leads path node) (built : tree.Built) :
    HandsOut tree (Visit.below ⟨path, node⟩) fun other => other.isWithin path.node = true ∧ other ≠ path := by
  have whole := leads.including_handsOut built
  rw [Visit.including_eq_cons] at whole
  exact whole.tail

/-- From a path of a built tree, a traversal hands out what a recursion over the tree lists: parents first
the path and then all below it, child by child, and below the path the same without it, parents first or
children first. Each hands out every path that leads through the node of the path once, with its own slots
and to its own node, and no other path. -/
theorem traversals_are_recursions (tree : Tree) (built : tree.Built) (path : Path)
    (genuine : path.Genuine tree) :
    ∃ visit, Visit.ofPath tree path = .ok visit ∧ visit.path = path ∧
      path.children tree = .ok (visit.children.map (·.path)) ∧
      visit.including.map (·.path) = Direction.forward.listing path visit.node ∧
      visit.below.map (·.path) = Direction.forward.listingBelow path visit.node.children ∧
      visit.belowUpward.map (·.path) = Direction.backward.listingBelow path visit.node.children ∧
      HandsOut tree visit.including (·.isWithin path.node = true) ∧
      HandsOut tree visit.below (fun other => other.isWithin path.node = true ∧ other ≠ path) ∧
      HandsOut tree visit.belowUpward (fun other => other.isWithin path.node = true ∧ other ≠ path) := by
  obtain ⟨node, leads⟩ := genuine
  have visited : Visit.ofPath tree path = .ok ⟨path, node⟩ := by
    rw [Visit.ofPath, leads.lookup built.coherent]
    rfl
  refine ⟨⟨path, node⟩, visited, rfl, leads.children_eq built.coherent, ?_, ?_, ?_, ?_, ?_, ?_⟩
  · rw [Visit.including_eq_cons]
    exact Direction.forward.map_path_around ⟨path, node⟩
  · exact Direction.forward.map_path_below ⟨path, node⟩
  · exact Direction.backward.map_path_below ⟨path, node⟩
  · exact leads.including_handsOut built
  · exact leads.below_handsOut built
  · exact (leads.below_handsOut built).perm (Visit.belowUpward_perm_below ⟨path, node⟩)

/-- A root with two children, the first of which has two children of its own. -/
def branchingCalls : List Builder.Call :=
  [⟨⟨"d", none, none⟩, []⟩, ⟨⟨"e", none, none⟩, []⟩, ⟨⟨"b", none, none⟩, [.list "kids" [0, 1]]⟩,
    ⟨⟨"c", none, none⟩, []⟩,
    ⟨⟨"a", none, none⟩, [.single "left" (some 2), .single "right" (some 3)]⟩]

/-- The traversals from the root of a tree with five nodes. -/
theorem branching_traversals_are_recursions :
    ∃ builder tree visit, Builder.run branchingCalls = .ok builder ∧ builder.finish 0 4 = .ok tree ∧
      Visit.ofPath tree (.ofRoot tree) = .ok visit ∧
      visit.including.map (·.node.label.kind) = ["a", "b", "d", "e", "c"] ∧
      visit.belowUpward.map (·.node.label.kind) = ["d", "e", "b", "c"] ∧
      visit.belowUpward.map (·.path) =
        Direction.backward.listingBelow (.ofRoot tree) visit.node.children ∧
      HandsOut tree visit.belowUpward
        (fun other => other.isWithin (Path.ofRoot tree).node = true ∧ other ≠ .ofRoot tree) := by
  obtain ⟨builder, tree, ran, finished, built, facts⟩ := Builder.exists_tree_of_calls branchingCalls 4
    (fun tree => (Visit.ofPath tree (.ofRoot tree)).toOption.any fun visit =>
      visit.including.map (·.node.label.kind) = ["a", "b", "d", "e", "c"] ∧
        visit.belowUpward.map (·.node.label.kind) = ["d", "e", "b", "c"])
    (by decide +kernel)
  obtain ⟨visit, visited, -, -, -, -, upward, -, -, handsOut⟩ :=
    traversals_are_recursions tree built (.ofRoot tree) Leads.root.genuine
  rw [visited] at facts
  obtain ⟨parentsFirst, childrenFirst⟩ := of_decide_eq_true facts
  exact ⟨builder, tree, visit, ran, finished, visited, parentsFirst, childrenFirst, upward, handsOut⟩

end Tree

end SyntaxNav

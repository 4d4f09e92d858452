import SyntaxNav.Proofs.Tree.Descendants
import SyntaxNav.Proofs.Tree.Forest

/-! # Document order

One path of a tree comes before another in document order if its indices are smaller, compared index by
index from the root down; a path comes before all that lie below it. The order speaks of no traversal.
The traversal that hands out parents first hands out exactly the paths of the tree
(`Visit.mem_including_root_iff`), and in this order (`Tree.Built.including_ordered`).
-/

namespace SyntaxNav

section Indices

/-- Of two lists of indices in order, the first is the front of the second, or they part at a place
where the first goes on with the smaller index. -/
theorem parting_of_lt {first second : List Nat} (order : first < second) :
    first <+: second ∨ ∃ common index further rest others,
      first = common ++ index :: rest ∧ second = common ++ further :: others ∧ index < further := by
  induction first generalizing second with
  | nil => exact .inl List.nil_prefix
  | cons index rest ih =>
    cases second with
    | nil => exact absurd order (List.not_lt_nil _)
    | cons further others =>
      rcases List.cons_lt_cons_iff.mp order with smaller | ⟨rfl, later⟩
      · exact .inr ⟨[], index, further, rest, others, rfl, rfl, smaller⟩
      · rcases ih later with front | ⟨common, one, two, back, behind, rfl, rfl, smaller⟩
        · exact .inl (List.cons_prefix_cons.mpr ⟨rfl, front⟩)
        · exact .inr ⟨index :: common, one, two, back, behind, rfl, rfl, smaller⟩

end Indices

namespace Visit

variable {top visit inner : Visit}

/-- A node comes first, and all that its children include follows in order. -/
theorem including_eq (visit : Visit) :
    visit.including = visit :: visit.children.flatMap including := by
  have each (child : Visit) : child.including = child :: child.below := by
    rw [including, preorder_eq_flatMap, List.flatMap_singleton]
  rw [each, below, preorder_eq_flatMap]
  exact congrArg (visit :: ·.flatten) (List.map_congr_left fun child _ => (each child).symm)

/-- Every visit at or below another one is reached from it by indices. -/
theorem descend?_of_mem_including (member : inner ∈ visit.including) :
    ∃ indices, visit.descend? indices = some inner := by
  obtain ⟨path, node⟩ := visit
  induction node using SlotTree.induct generalizing path with
  | step label children ih =>
    rw [including_eq, List.mem_cons] at member
    rcases member with rfl | member
    · exact ⟨[], rfl⟩
    · obtain ⟨child, isChild, member⟩ := List.mem_flatMap.mp member
      obtain ⟨entry, entryMember, rfl⟩ := mem_children.mp isChild
      obtain ⟨indices, reached⟩ := ih entry entryMember _ member
      obtain ⟨index, here⟩ := List.mem_iff_getElem?.mp isChild
      exact ⟨index :: indices, by rw [descend?, here, Option.bind_some, reached]⟩

/-- What indices lead to from a visit lies at or below it. -/
theorem within_of_descend? {indices : List Nat} (reached : visit.descend? indices = some inner) :
    visit.path ∈ inner.path.ancestors ∧ visit.node.Occurs inner.node := by
  induction indices generalizing visit with
  | nil =>
    cases reached
    exact ⟨Path.mem_ancestors_self _, .root⟩
  | cons index rest ih =>
    obtain ⟨child, here, reached⟩ := Option.bind_eq_some_iff.mp reached
    obtain ⟨entry, member, rfl⟩ := mem_children.mp (List.mem_of_getElem? here)
    obtain ⟨through, occurs⟩ := ih reached
    refine ⟨Path.mem_ancestors_trans through (visit.path.mem_ancestors_child _ _), ?_⟩
    exact (SlotTree.Occurs.root.child member).trans occurs

/-- Nothing is reached from a leaf but the leaf. -/
theorem eq_of_descend?_leaf {indices : List Nat} (childless : visit.node.children = [])
    (reached : visit.descend? indices = some inner) : inner = visit := by
  cases indices with
  | nil => exact (Option.some.inj reached).symm
  | cons index rest => simp [descend?, children, childless] at reached

/-- A traversal from a visit reaches two visits by indices in order. -/
def ReachedInOrder (top first second : Visit) : Prop :=
  ∃ indices others, top.descend? indices = some first ∧ top.descend? others = some second ∧
    indices < others

/-- Parents first is the order of the indices. -/
theorem including_reachedInOrder (visit : Visit) : visit.including.Pairwise visit.ReachedInOrder := by
  obtain ⟨path, node⟩ := visit
  induction node using SlotTree.induct generalizing path with
  | step label children ih =>
    let top : Visit := ⟨path, .node label children⟩
    have through {index : Nat} {child inner : Visit} {indices : List Nat}
        (here : top.children[index]? = some child) (reached : child.descend? indices = some inner) :
        top.descend? (index :: indices) = some inner := by
      rw [descend?, here, Option.bind_some, reached]
    rw [including_eq, List.pairwise_cons, List.pairwise_flatMap]
    refine ⟨?_, ?_, ?_⟩
    · intro inner member
      obtain ⟨child, isChild, member⟩ := List.mem_flatMap.mp member
      obtain ⟨index, here⟩ := List.mem_iff_getElem?.mp isChild
      obtain ⟨indices, reached⟩ := descend?_of_mem_including member
      exact ⟨[], index :: indices, rfl, through here reached, List.nil_lt_cons _ _⟩
    · intro child isChild
      obtain ⟨index, here⟩ := List.mem_iff_getElem?.mp isChild
      obtain ⟨entry, entryMember, rfl⟩ := mem_children.mp isChild
      refine (ih entry entryMember _).imp ?_
      rintro first second ⟨indices, others, reached, reachedLater, order⟩
      exact ⟨index :: indices, index :: others, through here reached, through here reachedLater,
        List.cons_lt_cons_iff.mpr (.inr ⟨rfl, order⟩)⟩
    · rw [List.pairwise_iff_getElem]
      intro index further inside insideLater smaller first member second memberLater
      obtain ⟨indices, reached⟩ := descend?_of_mem_including member
      obtain ⟨others, reachedLater⟩ := descend?_of_mem_including memberLater
      exact ⟨index :: indices, further :: others,
        through (List.getElem?_eq_getElem inside) reached,
        through (List.getElem?_eq_getElem insideLater) reachedLater,
        List.cons_lt_cons_iff.mpr (.inl smaller)⟩

private theorem mem_including_of_child {child : Visit} (member : inner ∈ visit.including)
    (isChild : child ∈ inner.children) : child ∈ visit.including := by
  obtain ⟨path, node⟩ := visit
  induction node using SlotTree.induct generalizing path with
  | step label children ih =>
    rw [including_eq, List.mem_cons] at member
    rw [including_eq]
    refine List.mem_cons_of_mem _ (List.mem_flatMap.mpr ?_)
    rcases member with rfl | member
    · exact ⟨child, isChild, by rw [including_eq]; exact List.mem_cons_self⟩
    · obtain ⟨top, isTop, member⟩ := List.mem_flatMap.mp member
      obtain ⟨entry, entryMember, rfl⟩ := mem_children.mp isTop
      exact ⟨_, isTop, ih entry entryMember _ member⟩

/-- The traversal from the root hands out the paths of the tree with their nodes, and nothing else. -/
theorem mem_including_root_iff {tree : Tree} :
    visit ∈ including (.ofRoot tree) ↔ tree.Leads visit.path visit.node := by
  constructor
  · exact AllLead.preorder (List.forall_mem_singleton.mpr .root) visit
  · intro leads
    obtain ⟨path, node⟩ := visit
    change tree.Leads path node at leads
    induction leads with
    | root =>
      rw [including_eq]
      exact List.mem_cons_self
    | child _ member ih => exact mem_including_of_child ih (mem_children.mpr ⟨_, member, rfl⟩)

end Visit

/-- The indices that lead to a visit are those of its path. -/
theorem Tree.Built.indices_of_descend? {tree : Tree} {indices : List Nat} {visit : Visit}
    (built : tree.Built) (reached : (Visit.ofRoot tree).descend? indices = some visit) :
    visit.path.indices tree = .ok indices := by
  have leads := leads_of_descend? reached
  obtain ⟨own, found, ownReached⟩ := leads.indices built
  obtain ⟨builder, root, reachable, finished⟩ := built
  obtain ⟨-, only, -, unique⟩ := reachable.reached_once finished leads.occurs
  have here : indices = only := unique indices (by simp only [reached, Option.map_some])
  have there : own = only := unique own (by simp only [ownReached, Option.map_some])
  rw [found, here, there]

/-- One path comes before another in document order. -/
def Path.Precedes (tree : Tree) (path other : Path) : Prop :=
  ∃ indices others, path.indices tree = .ok indices ∧ other.indices tree = .ok others ∧ indices < others

namespace Path.Precedes

variable {tree : Tree} {path middle other : Path}

private theorem trans (first : path.Precedes tree middle) (second : middle.Precedes tree other) :
    path.Precedes tree other := by
  obtain ⟨indices, between, found, foundMiddle, before⟩ := first
  obtain ⟨again, others, foundAgain, foundOther, behind⟩ := second
  cases foundMiddle.symm.trans foundAgain
  exact ⟨indices, others, found, foundOther, List.lt_trans before behind⟩

/-- Of two paths at most one comes before the other. -/
theorem asymm (order : path.Precedes tree other) : ¬ other.Precedes tree path := by
  rintro ⟨others, indices, foundOther, found, behind⟩
  obtain ⟨again, othersAgain, foundAgain, foundOtherAgain, before⟩ := order
  cases found.symm.trans foundAgain
  cases foundOther.symm.trans foundOtherAgain
  exact List.lt_asymm before behind

end Path.Precedes

/-- A path comes before its children. -/
theorem Tree.Leads.precedes_child {tree : Tree} {path : Path} {parent : Node} {child : Slot × Node}
    (leads : tree.Leads path parent) (member : child ∈ parent.children) (built : tree.Built) :
    path.Precedes tree (path.child child.1 child.2.label.number) := by
  obtain ⟨indices, found, reached⟩ := leads.indices built
  have isChild : ⟨path.child child.1 child.2.label.number, child.2⟩ ∈ Visit.children ⟨path, parent⟩ :=
    Visit.mem_children.mpr ⟨child, member, rfl⟩
  obtain ⟨index, here⟩ := List.mem_iff_getElem?.mp isChild
  have reachedChild : (Visit.ofRoot tree).descend? (indices ++ [index]) =
      some ⟨path.child child.1 child.2.label.number, child.2⟩ := by
    rw [Visit.descend?_append, reached, Option.bind_some, Visit.descend?, here]
    rfl
  refine ⟨indices, indices ++ [index], found, built.indices_of_descend? reachedChild, ?_⟩
  have longer : indices ++ [] < indices ++ [index] :=
    List.append_left_lt (List.nil_lt_cons index [])
  rwa [List.append_nil] at longer

/-- A path comes before all that lie below it. -/
theorem Path.Below.precedes {tree : Tree} {path above : Path} (below : path.Below above)
    (genuine : path.Genuine tree) (built : tree.Built) : above.Precedes tree path := by
  obtain ⟨node, leads⟩ := genuine
  induction leads with
  | root => exact absurd below.depth_lt (Nat.not_lt_zero _)
  | @child path parent child leads member ih =>
    have last := leads.precedes_child member built
    obtain ⟨steps, someStep, whole⟩ := Path.below_iff.mp below
    obtain ⟨step, rest, rfl⟩ := List.exists_cons_of_ne_nil someStep
    have upper : path = { above with steps := rest ++ above.steps } := by
      obtain ⟨id, root, pathSteps⟩ := path
      simp only [Path.child, List.cons_append, Path.mk.injEq, List.cons.injEq] at whole
      obtain ⟨rfl, rfl, -, rfl⟩ := whole
      rfl
    cases rest with
    | nil =>
      obtain rfl : path = above := upper
      exact last
    | cons step rest =>
      exact (ih (Path.below_iff.mpr ⟨_, List.cons_ne_nil _ _, upper⟩)).trans last

/-- Of two paths in document order, the second leads on from the first, or they part at a node where the
first goes on with an earlier child. -/
theorem Path.Precedes.parting {tree : Tree} {path other : Path} {node otherNode : Node}
    (order : path.Precedes tree other) (leads : tree.Leads path node)
    (otherLeads : tree.Leads other otherNode) (built : tree.Built) :
    (∃ indices, Visit.descend? ⟨path, node⟩ indices = some ⟨other, otherNode⟩) ∨
      ∃ (parent first second : Visit) (index further : Nat) (rest others : List Nat),
        tree.Leads parent.path parent.node ∧ index < further ∧
        parent.children[index]? = some first ∧ parent.children[further]? = some second ∧
        first.descend? rest = some ⟨path, node⟩ ∧ second.descend? others = some ⟨other, otherNode⟩ := by
  obtain ⟨indices, others, found, otherFound, smaller⟩ := order
  obtain ⟨again, foundAgain, reached⟩ := leads.indices built
  cases found.symm.trans foundAgain
  obtain ⟨again, foundAgain, otherReached⟩ := otherLeads.indices built
  cases otherFound.symm.trans foundAgain
  rcases parting_of_lt smaller with front | ⟨common, index, further, rest, others, rfl, rfl, earlier⟩
  · obtain ⟨behind, rfl⟩ := front
    rw [Visit.descend?_append, reached, Option.bind_some] at otherReached
    exact .inl ⟨behind, otherReached⟩
  · rw [Visit.descend?_append] at reached otherReached
    obtain ⟨parent, parentReached, reached⟩ := Option.bind_eq_some_iff.mp reached
    rw [parentReached, Option.bind_some] at otherReached
    obtain ⟨first, here, reached⟩ := Option.bind_eq_some_iff.mp reached
    obtain ⟨second, there, otherReached⟩ := Option.bind_eq_some_iff.mp otherReached
    exact .inr ⟨parent, first, second, index, further, rest, others,
      Tree.leads_of_descend? parentReached, earlier, here, there, reached, otherReached⟩

/-- The traversal from the root hands out paths in document order. -/
theorem Tree.Built.including_ordered {tree : Tree} (built : tree.Built) :
    (Visit.including (.ofRoot tree)).Pairwise fun first second =>
      first.path.Precedes tree second.path := by
  refine (Visit.including_reachedInOrder (.ofRoot tree)).imp ?_
  rintro first second ⟨indices, others, reached, reachedLater, order⟩
  exact ⟨indices, others, built.indices_of_descend? reached, built.indices_of_descend? reachedLater,
    order⟩

end SyntaxNav

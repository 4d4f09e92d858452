import SyntaxNav.Proofs.Tree.DocumentOrder

/-! # Which path is which

Paths are compared by the nodes along them, and their indices are found by looking for each node among the
children of the one before it; neither looks at slots. In a built tree both are enough. One path leads to
each node, so the last node tells a path, and where a path leads through a node of another one it leads
through that whole path (`Path.Genuine.isWithin_iff`). Going down along the indices of a path leads back to
it, step by step and slot by slot, and the indices of the paths above it are the fronts of its own
(`Tree.Built.prefix_indices_iff`).
-/

namespace SyntaxNav

namespace Path

variable {path above other : Path} {tree : Tree} {node : NodeId}

/-- Goes down from a path, to the child at each of a list of indices in turn. -/
def descend (tree : Tree) (path : Path) : List Nat → Except Defect (Option Path)
  | [] => .ok (some path)
  | index :: rest => do
    match (← path.children tree)[index]? with
    | some child => child.descend tree rest
    | none => return none

private theorem mem_ancestors_child_iff {slot : Slot} :
    above ∈ (path.child slot node).ancestors ↔ above = path.child slot node ∨ above ∈ path.ancestors :=
  List.mem_cons

/-- A node lies on a path where one of the paths above, or the path itself, leads to it. -/
theorem isWithin_iff_exists : path.isWithin node = true ↔ ∃ above ∈ path.ancestors, above.node = node := by
  obtain ⟨tree, root, steps⟩ := path
  rw [isWithin, List.contains_iff_mem]
  induction steps with
  | nil => simp [chain, ancestors, ancestorsOf, Path.node, target, eq_comm]
  | cons step rest ih =>
    have chained : chain ⟨tree, root, step :: rest⟩ = step.node :: chain ⟨tree, root, rest⟩ := rfl
    have listed : ancestors ⟨tree, root, step :: rest⟩ =
        ⟨tree, root, step :: rest⟩ :: ancestors ⟨tree, root, rest⟩ := rfl
    rw [chained, listed, List.mem_cons, ih, List.exists_mem_cons_iff]
    exact or_congr_left eq_comm

private theorem same_self (path : Path) : path.same path = true := by
  simp [same]

/-- Paths through the same nodes lead to the same node. -/
theorem node_eq_of_same (same : path.same other = true) : path.node = other.node := by
  have head (path : Path) : path.chain.head? = some path.node := by
    obtain ⟨tree, root, steps⟩ := path
    cases steps <;> rfl
  simp only [Path.same, Bool.and_eq_true, decide_eq_true_eq] at same
  exact Option.some.inj ((head path).symm.trans ((congrArg List.head? same.2).trans (head other)))

namespace Genuine

/-- The paths above a path of a tree are paths of the tree. -/
theorem of_mem_ancestors (genuine : path.Genuine tree) (upward : above ∈ path.ancestors) :
    above.Genuine tree := by
  obtain ⟨node, leads⟩ := genuine
  induction leads with
  | root =>
    rw [List.mem_singleton.mp upward]
    exact Tree.Leads.root.genuine
  | child leads member ih =>
    rcases mem_ancestors_child_iff.mp upward with rfl | further
    · exact (leads.child member).genuine
    · exact ih further

variable (built : tree.Built) (genuine : path.Genuine tree) (otherGenuine : other.Genuine tree)

include built genuine otherGenuine

/-- Paths are compared node by node, but the last node decides. -/
theorem same_iff : path.same other = true ↔ path.node = other.node := by
  constructor
  · exact node_eq_of_same
  · intro sameNode
    rw [genuine.eq_of_node built otherGenuine sameNode]
    exact same_self other

/-- A path leads through the node of another one where it leads through the whole path. -/
theorem isWithin_iff : other.isWithin path.node = true ↔ path ∈ other.ancestors := by
  rw [isWithin_iff_exists]
  constructor
  · rintro ⟨above, upward, sameNode⟩
    have equal := (otherGenuine.of_mem_ancestors upward).eq_of_node built genuine sameNode
    exact equal ▸ upward
  · exact fun upward => ⟨path, upward, rfl⟩

end Genuine

end Path

namespace Visit

/-- Every index leads one step further down. -/
theorem depth_of_descend? {visit inner : Visit} {indices : List Nat}
    (reached : visit.descend? indices = some inner) :
    inner.path.depth = visit.path.depth + indices.length := by
  induction indices generalizing visit with
  | nil =>
    cases reached
    rfl
  | cons index rest ih =>
    obtain ⟨child, here, reached⟩ := Option.bind_eq_some_iff.mp reached
    obtain ⟨entry, -, rfl⟩ := mem_children.mp (List.mem_of_getElem? here)
    have deeper : (visit.path.child entry.1 entry.2.label.number).depth = visit.path.depth + 1 := rfl
    rw [ih reached, deeper, List.length_cons, Nat.add_assoc, Nat.add_comm 1]

end Visit

namespace Tree

variable {tree : Tree} {path other : Path} {node otherNode : Node}

namespace Leads

/-- Going down from path to path is going down from visit to visit. -/
theorem descend_eq (leads : tree.Leads path node) (coherent : tree.Coherent) (indices : List Nat) :
    path.descend tree indices = .ok ((Visit.descend? ⟨path, node⟩ indices).map (·.path)) := by
  induction indices generalizing path node with
  | nil => rfl
  | cons index rest ih =>
    simp only [Path.descend, leads.children_eq coherent, bind, Except.bind, List.getElem?_map,
      Visit.descend?]
    cases here : (Visit.children ⟨path, node⟩)[index]? with
    | none => rfl
    | some child => exact ih (AllLead.children leads child (List.mem_of_getElem? here))

/-- A path is reached by indices from every path above it. -/
theorem exists_descend? (leads : tree.Leads path node) (others : tree.Leads other otherNode)
    (built : tree.Built) (upward : path ∈ other.ancestors) :
    ∃ indices, Visit.descend? ⟨path, node⟩ indices = some ⟨other, otherNode⟩ := by
  induction others with
  | root =>
    obtain rfl := List.mem_singleton.mp upward
    obtain rfl := leads.node_unique .root built
    exact ⟨[], rfl⟩
  | @child middle parent child leadsAbove member ih =>
    rcases Path.mem_ancestors_child_iff.mp upward with rfl | further
    · obtain rfl := leads.node_unique (leadsAbove.child member) built
      exact ⟨[], rfl⟩
    · obtain ⟨indices, reached⟩ := ih further
      have isChild : ⟨middle.child child.1 child.2.label.number, child.2⟩ ∈
          Visit.children ⟨middle, parent⟩ := Visit.mem_children.mpr ⟨child, member, rfl⟩
      obtain ⟨index, here⟩ := List.mem_iff_getElem?.mp isChild
      refine ⟨indices ++ [index], ?_⟩
      rw [Visit.descend?_append, reached, Option.bind_some, Visit.descend?, here]
      rfl

end Leads

namespace Built

variable (built : tree.Built) {indices others : List Nat}

include built

private theorem indices_length (leads : tree.Leads path node) (found : path.indices tree = .ok indices) :
    indices.length = path.depth := by
  obtain ⟨own, ownFound, reached⟩ := leads.indices built
  cases found.symm.trans ownFound
  exact ((Visit.depth_of_descend? reached).trans (Nat.zero_add _)).symm

/-- The indices of a path start with those of another one where it leads through that path. -/
theorem prefix_indices_iff (leads : tree.Leads path node) (otherLeads : tree.Leads other otherNode)
    (found : path.indices tree = .ok indices) (otherFound : other.indices tree = .ok others) :
    indices <+: others ↔ path ∈ other.ancestors := by
  obtain ⟨own, ownFound, reached⟩ := leads.indices built
  cases found.symm.trans ownFound
  constructor
  · rintro ⟨further, rfl⟩
    obtain ⟨again, againFound, otherReached⟩ := otherLeads.indices built
    cases otherFound.symm.trans againFound
    rw [Visit.descend?_append, reached, Option.bind_some] at otherReached
    exact (Visit.within_of_descend? otherReached).1
  · intro upward
    obtain ⟨further, onward⟩ := leads.exists_descend? otherLeads built upward
    have whole : (Visit.ofRoot tree).descend? (indices ++ further) = some ⟨other, otherNode⟩ := by
      rw [Visit.descend?_append, reached, Option.bind_some, onward]
    cases otherFound.symm.trans (built.indices_of_descend? whole)
    exact List.prefix_append indices further

end Built

/-- Two paths of a built tree are the same just if they lead to the same node, and just if they have the
same indices. Going down from the root along the indices of a path leads to the path itself, by as many
indices as it has steps. A path leads through the node of another one just if its indices start with those
of the other. -/
theorem paths_told_by_node_and_indices (tree : Tree) (built : tree.Built) (path other : Path)
    (genuine : path.Genuine tree) (otherGenuine : other.Genuine tree) :
    ∃ indices others, path.indices tree = .ok indices ∧ other.indices tree = .ok others ∧
      (path.same other = true ↔ path.node = other.node) ∧
      (path.node = other.node ↔ indices = others) ∧
      (Path.ofRoot tree).descend tree indices = .ok (some path) ∧ indices.length = path.depth ∧
      (other.isWithin path.node = true ↔ indices <+: others) := by
  obtain ⟨node, leads⟩ := genuine
  obtain ⟨otherNode, otherLeads⟩ := otherGenuine
  obtain ⟨indices, found, reached⟩ := leads.indices built
  obtain ⟨others, otherFound, otherReached⟩ := otherLeads.indices built
  refine ⟨indices, others, found, otherFound, ?_, ?_, ?_, ?_, ?_⟩
  · exact leads.genuine.same_iff built otherLeads.genuine
  · constructor
    · intro sameNode
      have equal := leads.genuine.eq_of_node built otherLeads.genuine sameNode
      rw [equal] at found
      exact Except.ok.inj (found.symm.trans otherFound)
    · rintro rfl
      exact congrArg (·.path.node) (Option.some.inj (reached.symm.trans otherReached))
  · have fromRoot := Leads.root.descend_eq built.coherent indices
    have last : Visit.descend? ⟨.ofRoot tree, tree.root⟩ indices = some ⟨path, node⟩ := reached
    rw [fromRoot, last, Option.map_some]
  · exact built.indices_length leads found
  · rw [built.prefix_indices_iff leads otherLeads found otherFound]
    exact leads.genuine.isWithin_iff built otherLeads.genuine

/-- A list whose two fields have the same name, so that its two children sit in the same slot. -/
def repeatedFieldCalls : List Builder.Call :=
  [⟨⟨"Name", none, some "a"⟩, []⟩, ⟨⟨"Name", none, some "b"⟩, []⟩,
    ⟨⟨"List", none, none⟩, [.list "items" [0], .list "items" [1]]⟩,
    ⟨⟨"Program", none, none⟩, [.list "body" [2]]⟩]

/-- Two paths with the same slots are told apart by their nodes and by their indices. -/
theorem repeated_slots_are_told_apart :
    ∃ builder tree path other, Builder.run repeatedFieldCalls = .ok builder ∧
      builder.finish 0 3 = .ok tree ∧ path.Genuine tree ∧ other.Genuine tree ∧
      path.render = "Path(body[0].items[0])" ∧ other.render = "Path(body[0].items[0])" ∧
      path.indices tree = .ok [0, 0] ∧ other.indices tree = .ok [0, 1] ∧ path.node ≠ other.node ∧
      path.same other = false ∧ (Path.ofRoot tree).descend tree [0, 0] = .ok (some path) ∧
      other.isWithin path.node = false := by
  obtain ⟨builder, tree, ran, finished, built, facts⟩ := Builder.exists_tree_of_calls repeatedFieldCalls 3
    (fun tree => ((Visit.ofRoot tree).descend? [0, 0]).any fun visit =>
      ((Visit.ofRoot tree).descend? [0, 1]).any fun other =>
        visit.path.render = "Path(body[0].items[0])" ∧ other.path.render = "Path(body[0].items[0])")
    (by decide +kernel)
  obtain ⟨visit, reached, facts⟩ := (Option.any_eq_true _ _).mp facts
  obtain ⟨other, otherReached, facts⟩ := (Option.any_eq_true _ _).mp facts
  obtain ⟨written, otherWritten⟩ := of_decide_eq_true facts
  have genuine := (leads_of_descend? reached).genuine
  have otherGenuine := (leads_of_descend? otherReached).genuine
  obtain ⟨indices, others, found, otherFound, sameNode, sameIndices, back, -, within⟩ :=
    paths_told_by_node_and_indices tree built visit.path other.path genuine otherGenuine
  obtain rfl : indices = [0, 0] :=
    Except.ok.inj (found.symm.trans (built.indices_of_descend? reached))
  obtain rfl : others = [0, 1] :=
    Except.ok.inj (otherFound.symm.trans (built.indices_of_descend? otherReached))
  have apart : visit.path.node ≠ other.path.node := fun equal => absurd (sameIndices.mp equal) (by decide)
  refine ⟨builder, tree, visit.path, other.path, ran, finished, genuine, otherGenuine, written,
    otherWritten, found, otherFound, apart, ?_, back, ?_⟩
  · exact Bool.eq_false_iff.mpr fun same => apart (sameNode.mp same)
  · exact Bool.eq_false_iff.mpr fun inside => absurd (within.mp inside) (by decide)

end Tree

end SyntaxNav

import Mathlib.Data.List.Nodup
import SyntaxNav.Proofs.Tree.Leading

/-! # Paths as lists of indices

A path of a finished tree is told by the indices of its nodes among their siblings: going down from the
root along them leads back to the path. It rests on one fact about builders: a node is taken over only
once, so the children of a node are all different and the index of a child leads to no other.
-/

namespace SyntaxNav

/-- The children of every node are different nodes. -/
def DistinctChildren (nodes : Array Node) : Prop :=
  ∀ (number : NodeId) (node : Node), nodes[number]? = some node →
    (node.children.map (·.2.label.number)).Nodup

namespace Builder

variable {builder after : Builder} {label : Label} {children : List (Slot × NodeId)}
  {nodes : List (Slot × Node)}

/-- A node that has a parent is not attached again. -/
theorem attachAll_fresh {number : NodeId} {node : Node}
    (attached : builder.attachAll children = .ok (nodes, after))
    (taken : builder.made[number]? = some ⟨node, true⟩) : number ∉ children.map (·.2) := by
  induction children generalizing builder nodes with
  | nil => exact List.not_mem_nil
  | cons child rest ih =>
    obtain ⟨slot, first⟩ := child
    obtain ⟨found, middle, others, attachedFirst, attachedRest, -⟩ :=
      attachAll_cons_eq_ok_iff.mp attached
    obtain ⟨free, rfl⟩ := attach_eq_ok_iff.mp attachedFirst
    have apart : number ≠ first := by
      rintro rfl
      rw [taken] at free
      cases free
    have stillTaken : (builder.made.setIfInBounds first ⟨found, true⟩)[number]? =
        some ⟨node, true⟩ := by
      rw [Array.getElem?_setIfInBounds_ne apart.symm]
      exact taken
    rw [List.map_cons, List.mem_cons, not_or]
    exact ⟨apart, ih attachedRest stillTaken⟩

/-- Nodes that are attached together are different, and are those of the given numbers. -/
theorem attachAll_distinct (coherent : CoherentNodes builder.nodes)
    (attached : builder.attachAll children = .ok (nodes, after)) :
    (children.map (·.2)).Nodup ∧ nodes.map (·.2.label.number) = children.map (·.2) := by
  induction children generalizing builder nodes with
  | nil =>
    cases attached
    exact ⟨.nil, rfl⟩
  | cons child rest ih =>
    obtain ⟨slot, number⟩ := child
    obtain ⟨node, middle, others, attachedFirst, attachedRest, rfl⟩ :=
      attachAll_cons_eq_ok_iff.mp attached
    have coherentRest : CoherentNodes middle.nodes := by
      rw [attach_nodes attachedFirst]
      exact coherent
    obtain ⟨distinct, same⟩ := ih coherentRest attachedRest
    obtain ⟨free, rfl⟩ := attach_eq_ok_iff.mp attachedFirst
    have inside : number < builder.made.size := (Array.getElem?_eq_some_iff.mp free).1
    have taken : (builder.made.setIfInBounds number ⟨node, true⟩)[number]? = some ⟨node, true⟩ := by
      rw [Array.getElem?_setIfInBounds_self, if_pos inside]
    have numbered : node.label.number = number := by
      have found : builder.nodes[number]? = some node := by
        rw [nodes_getElem?, free, Option.map_some]
      exact (coherent number node found).1
    constructor
    · exact List.nodup_cons.mpr ⟨attachAll_fresh attachedRest taken, distinct⟩
    · rw [List.map_cons, List.map_cons, same, numbered]

/-- A new node stands over different nodes. -/
theorem add_distinct {number : NodeId} (coherent : CoherentNodes builder.nodes)
    (added : builder.add label children = .ok (number, after)) :
    ∃ below : List (Slot × Node),
      after.nodes = builder.nodes.push (.node ⟨label, builder.nodes.size⟩ below) ∧
        (below.map (·.2.label.number)).Nodup := by
  obtain ⟨below, middle, attached, pushed⟩ := attachAll_of_add added
  obtain ⟨distinct, same⟩ := attachAll_distinct coherent attached
  exact ⟨below, pushed, same ▸ distinct⟩

private theorem Reachable.distinctChildren (reachable : Reachable builder) :
    DistinctChildren builder.nodes := by
  induction reachable with
  | empty => simp [DistinctChildren, Builder.nodes, Builder.empty]
  | add reachable added ih =>
    obtain ⟨below, pushed, distinct⟩ := add_distinct reachable.coherent added
    intro number node found
    rw [pushed, Array.getElem?_push] at found
    split at found
    · cases found
      exact distinct
    · exact ih number node found

end Builder

/-- The children of every node of a finished tree are different nodes. -/
theorem Tree.Built.distinctChildren {tree : Tree} (built : tree.Built) :
    DistinctChildren tree.nodes := by
  obtain ⟨builder, root, reachable, finished⟩ := built
  obtain ⟨node, -, same⟩ := Builder.finish_eq_ok_iff.mp finished
  rw [same]
  exact reachable.distinctChildren

namespace Visit

/-- Goes down from a visit, to the child at each of a list of indices in turn. -/
def descend? (visit : Visit) : List Nat → Option Visit
  | [] => some visit
  | index :: rest => visit.children[index]?.bind fun child => child.descend? rest

/-- Indices can be followed in two parts. -/
theorem descend?_append (visit : Visit) (first second : List Nat) :
    visit.descend? (first ++ second) = (visit.descend? first).bind fun below => below.descend? second := by
  induction first generalizing visit with
  | nil => rfl
  | cons index rest ih =>
    rw [List.cons_append, descend?, descend?]
    cases visit.children[index]? with
    | none => rfl
    | some child => exact ih child

end Visit

/-- The path that a list of indices leads to from the root of a tree. -/
def Tree.pathAt? (tree : Tree) (indices : List Nat) : Option Path :=
  ((Visit.ofRoot tree).descend? indices).map (·.path)

/-- A child stands where its number is found first, if the children are different nodes. -/
theorem findIdx?_of_distinct {children : List (Slot × Node)} {child : Slot × Node}
    (distinct : (children.map (·.2.label.number)).Nodup) (member : child ∈ children) :
    ∃ index, children.findIdx? (·.2.label.number = child.2.label.number) = some index ∧
      children[index]? = some child := by
  obtain ⟨index, inside, rfl⟩ := List.getElem_of_mem member
  refine ⟨index, ?_, List.getElem?_eq_getElem inside⟩
  rw [List.findIdx?_eq_some_iff_getElem]
  refine ⟨inside, by simp, ?_⟩
  intro earlier before
  have earlierInside : earlier < children.length := Nat.lt_trans before inside
  have apart := List.pairwise_iff_getElem.mp distinct earlier index
    (by rwa [List.length_map]) (by rwa [List.length_map]) before
  simpa using apart

/-- The indices of a path of a built tree lead back to it. -/
theorem Tree.Leads.indices {tree : Tree} {path : Path} {node : Node} (leads : tree.Leads path node)
    (built : tree.Built) :
    ∃ indices, path.indices tree = .ok indices ∧
      (Visit.ofRoot tree).descend? indices = some ⟨path, node⟩ := by
  have coherent := built.coherent
  induction leads with
  | root => exact ⟨[], rfl, rfl⟩
  | @child path parent child leads member ih =>
    obtain ⟨above, found, reached⟩ := ih
    have distinct := built.distinctChildren _ _ (coherent.occurs_found leads.occurs)
    obtain ⟨index, listed, inside⟩ := findIdx?_of_distinct distinct member
    refine ⟨above ++ [index], ?_, ?_⟩
    · have parentFound : tree.lookup (Path.target path.root path.steps) = .ok parent :=
        leads.lookup coherent
      have aboveFound : Path.indicesAlong tree path.root path.steps = .ok above := found
      simp only [Path.indices, Path.child, Path.indicesAlong, parentFound, aboveFound, bind, Except.bind,
        listed]
      rfl
    · rw [Visit.descend?_append, reached]
      simp only [Option.bind_some, Visit.descend?, Visit.children, List.getElem?_map, inside,
        Option.map_some]

/-- A genuine path is the one that its indices lead to. -/
theorem Path.Genuine.pathAt?_indices {tree : Tree} {path : Path} (genuine : path.Genuine tree)
    (built : tree.Built) :
    ∃ indices, path.indices tree = .ok indices ∧ tree.pathAt? indices = some path := by
  obtain ⟨node, leads⟩ := genuine
  obtain ⟨indices, found, reached⟩ := leads.indices built
  exact ⟨indices, found, by rw [Tree.pathAt?, reached, Option.map_some]⟩

end SyntaxNav

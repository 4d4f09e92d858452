import Mathlib.Data.List.Induction
import Mathlib.Data.List.Nodup
import Mathlib.Data.List.Pairwise
import SyntaxNav.Proofs.Tree.Indices

/-! # Builders keep forests

However nodes are made, as long as no call fails: every node is a child at most once, a child was made
before its parent, and the mark of a node says whether it is a child. One call keeps this
(`Forest.add`), so every run of calls does. It decides when a further call fails, and it makes the way
from the root of a finished tree to each of its nodes the only one.
-/

namespace SyntaxNav

namespace Builder

/-- A call that makes a node. A call without fields makes a leaf. -/
structure Call where
  label : Label
  fields : List (Field NodeId)

/-- Makes nodes one after another, until a call fails. -/
def runFrom (builder : Builder) : List Call → Except Defect Builder
  | [] => .ok builder
  | call :: calls => do
    let (_, builder) ← builder.branch call.label call.fields
    builder.runFrom calls

def run (calls : List Call) : Except Defect Builder :=
  empty.runFrom calls

/-- Calls succeed just if the first one does and the others do behind it. -/
theorem runFrom_cons_eq_ok_iff {builder after : Builder} {call : Call} {calls : List Call} :
    builder.runFrom (call :: calls) = .ok after ↔
      ∃ number middle, builder.branch call.label call.fields = .ok (number, middle) ∧
        middle.runFrom calls = .ok after := by
  rw [runFrom]
  cases called : builder.branch call.label call.fields with
  | error defect => simp [bind, Except.bind]
  | ok made =>
    obtain ⟨number, middle⟩ := made
    simp [bind, Except.bind]

/-- Calls lead from builders that can come about to such builders. -/
theorem Reachable.runFrom {builder after : Builder} {calls : List Call} (reachable : builder.Reachable)
    (ran : builder.runFrom calls = .ok after) : after.Reachable := by
  induction calls generalizing builder with
  | nil =>
    cases ran
    exact reachable
  | cons call calls ih =>
    obtain ⟨number, middle, called, ran⟩ := runFrom_cons_eq_ok_iff.mp ran
    exact ih (reachable.add called) ran

def childNumbers (nodes : List Node) : List NodeId :=
  nodes.flatMap fun node => node.children.map (·.2.label.number)

private theorem mem_childNumbers {nodes : List Node} {number : NodeId} :
    number ∈ childNumbers nodes ↔
      ∃ parent ∈ nodes, ∃ child ∈ parent.children, child.2.label.number = number := by
  simp only [childNumbers, List.mem_flatMap, List.mem_map]

/-- Every node is a child at most once, of a node made later, and is marked if it is a child. -/
structure Forest (builder : Builder) : Prop where
  once : (childNumbers builder.nodes.toList).Nodup
  earlier : ∀ parent ∈ builder.nodes.toList, ∀ child ∈ parent.children,
    child.2.label.number < parent.label.number
  marked : ∀ (number : NodeId) (made : Made), builder.made[number]? = some made →
    (made.attached = true ↔ number ∈ childNumbers builder.nodes.toList)

variable {builder after : Builder} {label : Label} {children : List (Slot × NodeId)}

/-- Attaching marks the given nodes, which had no mark, and leaves all others as they were. -/
theorem attachAll_marks {nodes : List (Slot × Node)}
    (attached : builder.attachAll children = .ok (nodes, after)) :
    (∀ number ∈ children.map (·.2), ∃ node, builder.made[number]? = some ⟨node, false⟩) ∧
      ∀ (number : NodeId) (made : Made), after.made[number]? = some made →
        (made.attached = true ↔ number ∈ children.map (·.2) ∨
          ∃ node, builder.made[number]? = some ⟨node, true⟩) := by
  induction children generalizing builder nodes with
  | nil =>
    cases attached
    refine ⟨nofun, ?_⟩
    rintro number ⟨node, marked⟩ found
    cases marked <;> simp [found]
  | cons child rest ih =>
    obtain ⟨slot, first⟩ := child
    obtain ⟨node, middle, others, attachedFirst, attachedRest, rfl⟩ :=
      attachAll_cons_eq_ok_iff.mp attached
    obtain ⟨free, rfl⟩ := attach_eq_ok_iff.mp attachedFirst
    have inside : first < builder.made.size := (Array.getElem?_eq_some_iff.mp free).1
    obtain ⟨restFree, marks⟩ := ih attachedRest
    have fresh : first ∉ rest.map (·.2) := by
      apply attachAll_fresh attachedRest
      rw [Array.getElem?_setIfInBounds_self, if_pos inside]
    constructor
    · rw [List.map_cons, List.forall_mem_cons]
      refine ⟨⟨node, free⟩, ?_⟩
      intro number member
      have apart : first ≠ number := fun same => fresh (same ▸ member)
      have stillFree := restFree number member
      rwa [Array.getElem?_setIfInBounds_ne apart] at stillFree
    · intro number made found
      rw [marks number made found, List.map_cons, List.mem_cons]
      by_cases same : first = number
      · subst same
        rw [Array.getElem?_setIfInBounds_self, if_pos inside]
        simp
      · rw [Array.getElem?_setIfInBounds_ne same]
        simp only [Ne.symm same, false_or]

/-- Attaching succeeds just if the nodes are there, have no parent and are all different. -/
theorem attachAll_succeeds_iff (coherent : CoherentNodes builder.nodes) :
    (∃ result, builder.attachAll children = .ok result) ↔
      (∀ number ∈ children.map (·.2), ∃ node, builder.made[number]? = some ⟨node, false⟩) ∧
        (children.map (·.2)).Nodup := by
  constructor
  · rintro ⟨⟨nodes, after⟩, attached⟩
    exact ⟨(attachAll_marks attached).1, (attachAll_distinct coherent attached).1⟩
  · rintro ⟨free, distinct⟩
    have drafts : ∃ drafts, builder.AllFree children drafts := by
      clear distinct
      induction children with
      | nil => exact ⟨[], .nil⟩
      | cons child rest ih =>
        rw [List.map_cons, List.forall_mem_cons] at free
        obtain ⟨⟨node, found⟩, restFree⟩ := free
        obtain ⟨drafts, allFree⟩ := ih restFree
        exact ⟨(child.1, node.relabel Numbered.toLabel) :: drafts, .cons ⟨rfl, node, found, rfl⟩ allFree⟩
    obtain ⟨drafts, allFree⟩ := drafts
    obtain ⟨nodes, after, attached, -⟩ := attachAll_of_free allFree distinct
    exact ⟨_, attached⟩

/-- What a successful call leaves behind: the nodes of the given numbers are marked and stand below a
new node, which is not. -/
theorem add_marks {number : NodeId} (coherent : CoherentNodes builder.nodes)
    (added : builder.add label children = .ok (number, after)) :
    ∃ below : List (Slot × Node),
      after.nodes = builder.nodes.push (.node ⟨label, builder.nodes.size⟩ below) ∧
      below.map (·.2.label.number) = children.map (·.2) ∧ (children.map (·.2)).Nodup ∧
      (∀ number ∈ children.map (·.2), ∃ node, builder.made[number]? = some ⟨node, false⟩) ∧
      ∀ (number : NodeId) (made : Made), after.made[number]? = some made →
        (made.attached = true ↔ number ∈ children.map (·.2) ∨
          ∃ node, builder.made[number]? = some ⟨node, true⟩) := by
  unfold add at added
  cases attached : builder.attachAll children with
  | error defect => simp [attached, bind, Except.bind] at added
  | ok found =>
    obtain ⟨below, middle⟩ := found
    obtain ⟨distinct, same⟩ := attachAll_distinct coherent attached
    obtain ⟨free, marks⟩ := attachAll_marks attached
    have unchanged := (attachAll_nodes attached).1
    have size : middle.made.size = builder.made.size := by
      simpa only [Builder.nodes, Array.size_map] using congrArg Array.size unchanged
    simp only [attached, bind, Except.bind, pure, Except.pure, Except.ok.injEq, Prod.mk.injEq] at added
    obtain ⟨rfl, rfl⟩ := added
    refine ⟨below, ?_, same, distinct, free, ?_⟩
    · rw [← unchanged]
      simp [Builder.nodes]
    · intro number made found
      rw [Array.getElem?_push] at found
      split at found
      · rename_i last
        cases found
        -- The new node lies beyond all numbers that could be given or marked.
        have missing : builder.made[number]? = none :=
          Array.getElem?_eq_none (Nat.le_of_eq (last.trans size).symm)
        simp only [missing, Bool.false_eq_true, false_iff, not_or, reduceCtorEq, exists_false,
          not_false_eq_true, and_true]
        intro given
        obtain ⟨node, there⟩ := free number given
        rw [missing] at there
        cases there
      · exact marks number made found

namespace Forest

private theorem empty : Forest Builder.empty := by
  constructor <;> simp [childNumbers, Builder.nodes, Builder.empty]

/-- A node is marked just if it is a child. -/
theorem marked_iff (forest : builder.Forest) (coherent : CoherentNodes builder.nodes) (number : NodeId) :
    (∃ node, builder.made[number]? = some ⟨node, true⟩) ↔
      number ∈ childNumbers builder.nodes.toList := by
  constructor
  · rintro ⟨node, found⟩
    exact (forest.marked number _ found).mp rfl
  · intro isChild
    obtain ⟨parent, parentMember, child, member, rfl⟩ := mem_childNumbers.mp isChild
    obtain ⟨index, here⟩ := List.getElem?_of_mem parentMember
    have parentFound : builder.nodes[index]? = some parent := by rwa [Array.getElem?_toList] at here
    have found := (coherent index parent parentFound).2 child member
    rw [nodes_getElem?] at found
    obtain ⟨made, here, same⟩ := Option.map_eq_some_iff.mp found
    refine ⟨child.2, ?_⟩
    rw [here, ← same, ← (forest.marked _ made here).mpr isChild]

/-- A node is there without a mark just if it was made and is no child. -/
theorem free_iff (forest : builder.Forest) (number : NodeId) :
    (∃ node, builder.made[number]? = some ⟨node, false⟩) ↔
      number < builder.nodes.size ∧ number ∉ childNumbers builder.nodes.toList := by
  constructor
  · rintro ⟨node, found⟩
    have inside := (Array.getElem?_eq_some_iff.mp found).1
    refine ⟨by simpa [Builder.nodes] using inside, ?_⟩
    rw [← forest.marked number _ found]
    exact Bool.false_ne_true
  · rintro ⟨inside, noChild⟩
    have inside : number < builder.made.size := by simpa [Builder.nodes] using inside
    have found : builder.made[number]? = some builder.made[number] := Array.getElem?_eq_getElem inside
    have unmarked : builder.made[number].attached = false := by
      rw [← Bool.not_eq_true, forest.marked number _ found]
      exact noChild
    exact ⟨builder.made[number].node, by rw [found, ← unmarked]⟩

/-- Making a node keeps a forest. -/
theorem add {number : NodeId} (forest : builder.Forest) (coherent : CoherentNodes builder.nodes)
    (added : builder.add label children = .ok (number, after)) : after.Forest := by
  obtain ⟨below, pushed, numbers, distinct, free, marks⟩ := add_marks coherent added
  have grown : childNumbers after.nodes.toList =
      childNumbers builder.nodes.toList ++ children.map (·.2) := by
    rw [pushed, Array.toList_push, childNumbers, List.flatMap_append, ← numbers]
    simp [childNumbers]
  refine ⟨?_, ?_, ?_⟩
  · rw [grown, List.nodup_append]
    refine ⟨forest.once, distinct, ?_⟩
    intro old isChild new given same
    subst same
    exact ((forest.free_iff old).mp (free old given)).2 isChild
  · intro parent parentMember child member
    rw [pushed, Array.toList_push, List.mem_append, List.mem_singleton] at parentMember
    rcases parentMember with parentMember | rfl
    · exact forest.earlier parent parentMember child member
    · have given : child.2.label.number ∈ children.map (·.2) := by
        rw [← numbers]
        exact List.mem_map_of_mem member
      exact ((forest.free_iff _).mp (free _ given)).1
  · intro number made found
    rw [marks number made found, forest.marked_iff coherent, grown, List.mem_append, or_comm]

/-- A call fails just if one of the given nodes is missing, is a child already or is given twice. -/
theorem branch_fails_iff (forest : builder.Forest) (coherent : CoherentNodes builder.nodes)
    (fields : List (Field NodeId)) :
    (∃ defect, builder.branch label fields = .error defect) ↔
      (∃ number ∈ (Field.spread fields).map (·.2), builder.nodes.size ≤ number ∨
          number ∈ childNumbers builder.nodes.toList) ∨
        ¬ ((Field.spread fields).map (·.2)).Nodup := by
  have fails : (∃ defect, builder.branch label fields = .error defect) ↔
      ¬ ∃ result, builder.attachAll (Field.spread fields) = .ok result := by
    rw [branch, Builder.add]
    cases builder.attachAll (Field.spread fields) <;> simp [bind, Except.bind, pure, Except.pure]
  rw [fails, attachAll_succeeds_iff coherent, not_and_or]
  simp only [forest.free_iff, not_forall, not_and_or, Nat.not_lt, not_not, exists_prop]

/-- Finishing fails just if the root is missing or is a child. -/
theorem finish_fails_iff (forest : builder.Forest) (id : TreeId) (root : NodeId) :
    (∃ defect, builder.finish id root = .error defect) ↔
      builder.nodes.size ≤ root ∨ root ∈ childNumbers builder.nodes.toList := by
  have fails : (∃ defect, builder.finish id root = .error defect) ↔
      ¬ ∃ node, builder.made[root]? = some ⟨node, false⟩ := by
    cases finished : builder.finish id root with
    | error defect =>
      simp only [exists_eq', true_iff, Except.error.injEq]
      rintro ⟨node, found⟩
      rw [finish_eq_ok_iff.mpr ⟨node, found, rfl⟩] at finished
      cases finished
    | ok tree =>
      obtain ⟨node, found, -⟩ := finish_eq_ok_iff.mp finished
      simp [found]
  rw [fails, forest.free_iff, not_and_or, Nat.not_lt, not_not]

end Forest

/-- Every run of calls keeps a forest. -/
theorem Reachable.forest (reachable : builder.Reachable) : builder.Forest := by
  induction reachable with
  | empty => exact .empty
  | add before added ih => exact ih.add before.coherent added

end Builder

/-- A path leads to every node of a tree. -/
theorem Tree.exists_leads {tree : Tree} {node : Node} (occurs : tree.root.Occurs node) :
    ∃ path, tree.Leads path node := by
  induction occurs with
  | root => exact ⟨_, .root⟩
  | child _ member ih =>
    obtain ⟨path, leads⟩ := ih
    exact ⟨_, leads.child member⟩

/-- What a list of indices leads to is led to by its path. -/
theorem Tree.leads_of_descend? {tree : Tree} {indices : List Nat} {visit : Visit}
    (reached : (Visit.ofRoot tree).descend? indices = some visit) :
    tree.Leads visit.path visit.node := by
  induction indices using List.reverseRecOn generalizing visit with
  | nil =>
    cases reached
    exact .root
  | append_singleton above index ih =>
    rw [Visit.descend?_append] at reached
    obtain ⟨parent, parentReached, reached⟩ := Option.bind_eq_some_iff.mp reached
    obtain ⟨child, found, same⟩ := Option.bind_eq_some_iff.mp reached
    rw [← Option.some.inj same]
    exact AllLead.children (ih parentReached) child (List.mem_of_getElem? found)

/-- In a list that names nothing twice, a name stands at one place only. -/
theorem Builder.childNumbers_place {nodes : List Node} (once : (childNumbers nodes).Nodup)
    {first second : Node} (firstMember : first ∈ nodes) (secondMember : second ∈ nodes)
    {i j : Nat} {number : NodeId}
    (firstHere : (first.children.map (·.2.label.number))[i]? = some number)
    (secondHere : (second.children.map (·.2.label.number))[j]? = some number) :
    first = second ∧ i = j := by
  obtain ⟨within, across⟩ := List.nodup_flatMap.mp once
  have same : first = second := by
    by_contra differ
    have symmetric : Std.Symm (Function.onFun List.Disjoint fun node : Node =>
        node.children.map (·.2.label.number)) := ⟨fun _ _ => List.disjoint_symm⟩
    have apart := across.forall firstMember secondMember differ
    exact apart (List.mem_of_getElem? firstHere) (List.mem_of_getElem? secondHere)
  subst same
  refine ⟨rfl, ?_⟩
  obtain ⟨inside, -⟩ := List.getElem?_eq_some_iff.mp firstHere
  exact (List.getElem?_inj inside (within first firstMember)).mp (firstHere.trans secondHere.symm)

namespace Tree

open Builder

variable {tree : Tree}

/-- The last of a list of indices leads from a node to one of its children. -/
theorem descend?_last (coherent : tree.Coherent) {above : List Nat} {index : Nat} {visit : Visit}
    (reached : (Visit.ofRoot tree).descend? (above ++ [index]) = some visit) :
    ∃ parent, (Visit.ofRoot tree).descend? above = some parent ∧ parent.node ∈ tree.nodes.toList ∧
      (parent.node.children.map (·.2.label.number))[index]? = some visit.node.label.number := by
  rw [Visit.descend?_append] at reached
  obtain ⟨parent, parentReached, reached⟩ := Option.bind_eq_some_iff.mp reached
  obtain ⟨child, found, same⟩ := Option.bind_eq_some_iff.mp reached
  have parentFound := coherent.occurs_found (leads_of_descend? parentReached).occurs
  refine ⟨parent, parentReached, Array.mem_toList_iff.mpr (Array.mem_of_getElem? parentFound), ?_⟩
  rw [Visit.children, List.getElem?_map] at found
  obtain ⟨entry, here, made⟩ := Option.map_eq_some_iff.mp found
  rw [List.getElem?_map, here, ← Option.some.inj same, ← made, Option.map_some]

/-- Two lists of indices that lead to the same node are the same, where no node is a child twice and the
root is no child. -/
theorem indices_unique (coherent : tree.Coherent) (once : (childNumbers tree.nodes.toList).Nodup)
    (rootFree : tree.root.label.number ∉ childNumbers tree.nodes.toList)
    {first second : List Nat} {here there : Visit}
    (firstReached : (Visit.ofRoot tree).descend? first = some here)
    (secondReached : (Visit.ofRoot tree).descend? second = some there)
    (same : here.node.label.number = there.node.label.number) : first = second := by
  have isChild {above : List Nat} {index : Nat} {visit : Visit}
      (reached : (Visit.ofRoot tree).descend? (above ++ [index]) = some visit) :
      visit.node.label.number ∈ childNumbers tree.nodes.toList := by
    obtain ⟨parent, -, member, found⟩ := descend?_last coherent reached
    obtain ⟨child, childMember, number⟩ := List.mem_map.mp (List.mem_of_getElem? found)
    exact mem_childNumbers.mpr ⟨parent.node, member, child, childMember, number⟩
  induction first using List.reverseRecOn generalizing second here there with
  | nil =>
    cases firstReached
    cases second using List.reverseRecOn with
    | nil => rfl
    | append_singleton above index => exact absurd (same ▸ isChild secondReached) rootFree
  | append_singleton above index ih =>
    cases second using List.reverseRecOn with
    | nil =>
      cases secondReached
      exact absurd (same ▸ isChild firstReached) rootFree
    | append_singleton otherAbove otherIndex =>
      obtain ⟨parent, parentReached, member, found⟩ := descend?_last coherent firstReached
      obtain ⟨other, otherReached, otherMember, otherFound⟩ := descend?_last coherent secondReached
      rw [← same] at otherFound
      obtain ⟨sameParent, sameIndex⟩ := childNumbers_place once member otherMember found otherFound
      rw [sameIndex, ih parentReached otherReached (by rw [sameParent])]

end Tree

namespace Builder

/-- Exactly one path leads to each node of a finished tree, and exactly one list of indices. -/
theorem Reachable.reached_once {builder : Builder} {id : TreeId} {root : NodeId} {tree : Tree}
    (reachable : builder.Reachable) (finished : builder.finish id root = .ok tree) {node : Node}
    (occurs : tree.root.Occurs node) :
    (∃! path : Path, path.Genuine tree ∧ path.node = node.label.number) ∧
      ∃! indices : List Nat, ((Visit.ofRoot tree).descend? indices).map (·.node.label.number) =
        some node.label.number := by
  have coherent := reachable.finish_coherent finished
  have built := reachable.built finished
  obtain ⟨made, free, rfl⟩ := finish_eq_ok_iff.mp finished
  have rootFree : made.label.number ∉ childNumbers builder.nodes.toList := by
    have found : builder.nodes[root]? = some made := by rw [nodes_getElem?, free, Option.map_some]
    rw [(reachable.coherent root made found).1]
    exact ((reachable.forest.free_iff root).mp ⟨made, free⟩).2
  obtain ⟨path, leads⟩ := Tree.exists_leads occurs
  obtain ⟨indices, -, reached⟩ := leads.indices built
  constructor
  · refine ⟨path, ⟨leads.genuine, leads.node_eq⟩, ?_⟩
    rintro other ⟨⟨otherNode, otherLeads⟩, same⟩
    obtain ⟨otherIndices, -, otherReached⟩ := otherLeads.indices built
    rw [otherLeads.node_eq] at same
    have sameIndices := Tree.indices_unique coherent reachable.forest.once rootFree otherReached reached same
    rw [sameIndices, reached] at otherReached
    cases otherReached
    rfl
  · refine ⟨indices, by simp only [reached, Option.map_some], ?_⟩
    intro otherIndices otherReached
    obtain ⟨visit, otherReached, same⟩ := Option.map_eq_some_iff.mp otherReached
    exact Tree.indices_unique coherent reachable.forest.once rootFree otherReached reached same

/-- A tree that calls make, if it passes a test. -/
theorem exists_tree_of_calls (calls : List Call) (root : NodeId) (test : Tree → Bool)
    (passes : (run calls >>= (·.finish 0 root)).toOption.any test = true) :
    ∃ builder tree, run calls = .ok builder ∧ builder.finish 0 root = .ok tree ∧ tree.Built ∧
      test tree = true := by
  cases ran : run calls with
  | error defect =>
    rw [ran] at passes
    cases passes
  | ok builder =>
    rw [ran] at passes
    obtain ⟨tree, made, passes⟩ := (Option.any_eq_true _ _).mp passes
    have finished : builder.finish 0 root = .ok tree := by
      cases result : builder.finish 0 root with
      | error defect =>
        simp only [bind, Except.bind, result] at made
        cases made
      | ok same =>
        simp only [bind, Except.bind, result] at made
        exact congrArg Except.ok (Option.some.inj made)
    exact ⟨builder, tree, rfl, finished, (Reachable.empty.runFrom ran).built finished, passes⟩

end Builder

/-- Only one path of a built tree leads to each of its nodes. -/
theorem Path.Genuine.eq_of_node {tree : Tree} {path other : Path} (built : tree.Built)
    (genuine : path.Genuine tree) (otherGenuine : other.Genuine tree) (same : path.node = other.node) :
    path = other := by
  obtain ⟨builder, root, reachable, finished⟩ := built
  obtain ⟨node, leads⟩ := genuine
  obtain ⟨⟨only, -, unique⟩, -⟩ := reachable.reached_once finished leads.occurs
  have here := unique path ⟨leads.genuine, leads.node_eq⟩
  have there := unique other ⟨otherGenuine, same.symm.trans leads.node_eq⟩
  exact here.trans there.symm

namespace Builder

/-- However nodes are made, they are found under their numbers and form a forest; a further call fails
just if one of its nodes is missing, is a child already or is given twice; finishing fails just if the root
is missing or is a child, and otherwise leaves exactly one way from the root to each node below it. -/
theorem calls_keep_a_forest (calls : List Call) (builder : Builder) (ran : run calls = .ok builder) :
    CoherentNodes builder.nodes ∧ builder.Forest ∧
      (∀ (label : Label) (fields : List (Field NodeId)),
        (∃ defect, builder.branch label fields = .error defect) ↔
          (∃ number ∈ (Field.spread fields).map (·.2), builder.nodes.size ≤ number ∨
              number ∈ childNumbers builder.nodes.toList) ∨
            ¬ ((Field.spread fields).map (·.2)).Nodup) ∧
      ∀ (id : TreeId) (root : NodeId),
        ((∃ defect, builder.finish id root = .error defect) ↔
          builder.nodes.size ≤ root ∨ root ∈ childNumbers builder.nodes.toList) ∧
        ∀ tree, builder.finish id root = .ok tree → ∀ node, tree.root.Occurs node →
          (∃! path : Path, path.Genuine tree ∧ path.node = node.label.number) ∧
            ∃! indices : List Nat, ((Visit.ofRoot tree).descend? indices).map (·.node.label.number) =
              some node.label.number := by
  have reachable : builder.Reachable := Reachable.empty.runFrom ran
  refine ⟨reachable.coherent, reachable.forest, ?_, ?_⟩
  · exact fun label fields => reachable.forest.branch_fails_iff reachable.coherent fields
  · intro id root
    refine ⟨reachable.forest.finish_fails_iff id root, ?_⟩
    exact fun tree finished node occurs => reachable.reached_once finished occurs

def callOverLeaves : List Call :=
  [⟨⟨"Name", none, some "f"⟩, []⟩, ⟨⟨"Name", none, some "x"⟩, []⟩,
    ⟨⟨"Call", none, none⟩, [.single "callee" (some 0), .list "args" [1]]⟩]

/-- The forest that a call over two leaves makes refuses a node that is given twice. -/
theorem callOverLeaves_keeps_a_forest :
    ∃ builder, run callOverLeaves = .ok builder ∧ builder.Forest ∧
      ∃ defect, builder.branch ⟨"List", none, none⟩ [.list "items" [2, 2]] = .error defect := by
  obtain ⟨-, forest, fails, -⟩ := calls_keep_a_forest callOverLeaves _ rfl
  exact ⟨_, rfl, forest, (fails _ _).mpr (.inr (by decide))⟩

end Builder

end SyntaxNav

import Mathlib.Data.List.Forall2
import SyntaxNav.Proofs.Tree.Occurrence
import SyntaxNav.Tree.Builder

/-! # What builders make

The nodes that a builder has made never change; only whether they have a parent does. They are
coherent: a node has the number under which it is found, and so have its children. Hence every node
that occurs in a finished tree is found under its number.

Planting a draft never fails, and the tree that grows from it is the draft with numbers.
-/

namespace SyntaxNav

/-- Nodes are found under their own numbers, and so are their children. -/
def CoherentNodes (nodes : Array Node) : Prop :=
  ∀ (number : NodeId) (node : Node), nodes[number]? = some node →
    node.label.number = number ∧ ∀ child ∈ node.children, nodes[child.2.label.number]? = some child.2

/-- A tree is coherent if its nodes are and its root is one of them. -/
structure Tree.Coherent (tree : Tree) : Prop where
  nodes : CoherentNodes tree.nodes
  root : tree.nodes[tree.root.label.number]? = some tree.root

private theorem Tree.lookup_eq_ok_iff {tree : Tree} {number : NodeId} {node : Node} :
    tree.lookup number = .ok node ↔ tree.nodes[number]? = some node := by
  unfold lookup
  split <;> simp_all

namespace Tree.Coherent

variable {tree : Tree} {node : Node}

/-- A node below the root is found under its number. -/
theorem occurs_found (coherent : tree.Coherent) (occurs : tree.root.Occurs node) :
    tree.nodes[node.label.number]? = some node := by
  induction occurs with
  | root => exact coherent.root
  | child _ member ih => exact (coherent.nodes _ _ ih).2 _ member

/-- Looking up a node below the root never fails. -/
theorem lookup_of_occurs (coherent : tree.Coherent) (occurs : tree.root.Occurs node) :
    tree.lookup node.label.number = .ok node :=
  lookup_eq_ok_iff.mpr (coherent.occurs_found occurs)

end Tree.Coherent

namespace Builder

variable {builder after : Builder} {label : Label} {children : List (Slot × NodeId)}

/-- The nodes made so far, without their marks. -/
def nodes (builder : Builder) : Array Node := builder.made.map (·.node)

theorem nodes_getElem? (builder : Builder) (number : NodeId) :
    builder.nodes[number]? = (builder.made[number]?).map (·.node) := by
  simp [nodes]

/-- A node gets a parent just if it was made and has none yet; only its mark changes. -/
theorem attach_eq_ok_iff {number : NodeId} {node : Node} :
    builder.attach number = .ok (node, after) ↔
      builder.made[number]? = some ⟨node, false⟩ ∧
        after = ⟨builder.made.setIfInBounds number ⟨node, true⟩⟩ := by
  unfold attach
  split
  · rename_i missing
    simp [missing]
  · rename_i attached
    simp [attached]
  · rename_i found free
    constructor
    · rintro ⟨⟩
      exact ⟨free, rfl⟩
    · rintro ⟨same, rfl⟩
      rw [free, Option.some.injEq, Made.mk.injEq] at same
      rw [same.1]

/-- Nodes get their parent one after another, in order. -/
theorem attachAll_cons_eq_ok_iff {slot : Slot} {number : NodeId} {nodes : List (Slot × Node)} :
    builder.attachAll ((slot, number) :: children) = .ok (nodes, after) ↔
      ∃ node middle rest, builder.attach number = .ok (node, middle) ∧
        middle.attachAll children = .ok (rest, after) ∧ nodes = (slot, node) :: rest := by
  rw [attachAll]
  cases first : builder.attach number with
  | error defect => simp [bind, Except.bind]
  | ok found =>
    obtain ⟨node, middle⟩ := found
    cases second : middle.attachAll children with
    | error defect => simp [bind, Except.bind, second]
    | ok found =>
      obtain ⟨rest, final⟩ := found
      simp [bind, Except.bind, second, pure, Except.pure, eq_comm, and_comm]

/-- Attaching changes no node. -/
theorem attach_nodes {number : NodeId} {node : Node}
    (attached : builder.attach number = .ok (node, after)) : after.nodes = builder.nodes := by
  obtain ⟨found, rfl⟩ := attach_eq_ok_iff.mp attached
  apply Array.ext_getElem?
  intro index
  simp only [nodes_getElem?, Array.getElem?_setIfInBounds]
  split
  · rename_i same
    subst same
    split
    · simp [found]
    · simp_all
  · rfl

/-- Giving parents to nodes changes no node. -/
theorem attachAll_nodes {nodes : List (Slot × Node)}
    (attached : builder.attachAll children = .ok (nodes, after)) :
    after.nodes = builder.nodes ∧
      ∀ child ∈ nodes, ∃ number : NodeId, builder.nodes[number]? = some child.2 := by
  induction children generalizing builder nodes with
  | nil =>
    cases attached
    exact ⟨rfl, nofun⟩
  | cons child rest ih =>
    obtain ⟨slot, number⟩ := child
    obtain ⟨node, middle, others, first, second, rfl⟩ := attachAll_cons_eq_ok_iff.mp attached
    obtain ⟨unchanged, found⟩ := ih second
    rw [attach_nodes first] at unchanged found
    refine ⟨unchanged, ?_⟩
    intro child member
    rcases List.mem_cons.mp member with rfl | member
    · refine ⟨_, (nodes_getElem? builder number).trans ?_⟩
      rw [(attach_eq_ok_iff.mp first).1, Option.map_some]
    · exact found child member

/-- A new node stands behind all nodes made before it, over those that were attached to it. -/
theorem attachAll_of_add {number : NodeId} (added : builder.add label children = .ok (number, after)) :
    ∃ below middle, builder.attachAll children = .ok (below, middle) ∧
      after.nodes = builder.nodes.push (.node ⟨label, builder.nodes.size⟩ below) := by
  unfold add at added
  cases attached : builder.attachAll children with
  | error defect => simp [attached, bind, Except.bind] at added
  | ok found =>
    obtain ⟨below, middle⟩ := found
    have unchanged := (attachAll_nodes attached).1
    simp only [attached, bind, Except.bind, pure, Except.pure, Except.ok.injEq, Prod.mk.injEq] at added
    obtain ⟨rfl, rfl⟩ := added
    refine ⟨below, middle, rfl, ?_⟩
    rw [← unchanged]
    simp [nodes]

/-- The nodes under a new node were made before it. -/
theorem add_nodes {number : NodeId} (added : builder.add label children = .ok (number, after)) :
    ∃ below : List (Slot × Node),
      after.nodes = builder.nodes.push (.node ⟨label, builder.nodes.size⟩ below) ∧
        ∀ child ∈ below, ∃ number : NodeId, builder.nodes[number]? = some child.2 := by
  obtain ⟨below, middle, attached, pushed⟩ := attachAll_of_add added
  exact ⟨below, pushed, (attachAll_nodes attached).2⟩

/-- Builders that come about by making nodes, one after another. -/
inductive Reachable : Builder → Prop
  | empty : Reachable empty
  | add {builder after : Builder} {label : Label} {children : List (Slot × NodeId)} {number : NodeId} :
      Reachable builder → builder.add label children = .ok (number, after) → Reachable after

/-- In a builder that came about by making nodes, numbers and nodes fit together. -/
theorem Reachable.coherent (reachable : Reachable builder) : CoherentNodes builder.nodes := by
  induction reachable with
  | empty => simp [CoherentNodes, nodes, Builder.empty]
  | @add builder after label children _ _ added ih =>
    obtain ⟨below, pushed, found⟩ := add_nodes added
    -- Nodes made earlier keep their places when a node is pushed behind them.
    have kept {number : NodeId} {node : Node} (here : builder.nodes[number]? = some node) :
        after.nodes[number]? = some node := by
      obtain ⟨inside, -⟩ := Array.getElem?_eq_some_iff.mp here
      rw [pushed, Array.getElem?_push, if_neg (Nat.ne_of_lt inside)]
      exact here
    intro number node here
    rw [pushed, Array.getElem?_push] at here
    split at here
    · rename_i last
      cases here
      refine ⟨last.symm, ?_⟩
      intro child member
      obtain ⟨number, here⟩ := found child member
      rw [(ih number child.2 here).1]
      exact kept here
    · obtain ⟨same, childrenFound⟩ := ih number node here
      exact ⟨same, fun child member => kept (childrenFound child member)⟩

/-- A tree is finished under a node just if that was made and has no parent. -/
theorem finish_eq_ok_iff {id : TreeId} {root : NodeId} {tree : Tree} :
    builder.finish id root = .ok tree ↔
      ∃ node, builder.made[root]? = some ⟨node, false⟩ ∧ tree = ⟨id, builder.nodes, node⟩ := by
  unfold finish
  split
  · rename_i missing
    simp [missing]
  · rename_i attached
    simp [attached]
  · rename_i found free
    simp [free, nodes, eq_comm]

/-- A finished tree is coherent. -/
theorem Reachable.finish_coherent {id : TreeId} {root : NodeId} {tree : Tree}
    (reachable : Reachable builder) (finished : builder.finish id root = .ok tree) : tree.Coherent := by
  obtain ⟨node, here, rfl⟩ := finish_eq_ok_iff.mp finished
  have found : builder.nodes[root]? = some node := by
    rw [nodes_getElem?, here, Option.map_some]
  have coherent := reachable.coherent
  refine ⟨coherent, ?_⟩
  simp only [(coherent root node found).1]
  exact found

/-- The node of a number has no parent and is a draft with numbers. -/
def Free (builder : Builder) (number : NodeId) (draft : Draft) : Prop :=
  ∃ node, builder.made[number]? = some ⟨node, false⟩ ∧ node.relabel Numbered.toLabel = draft

/-- Children without parents, one for each draft and in the same slots. -/
abbrev AllFree (builder : Builder) : List (Slot × NodeId) → List (Slot × Draft) → Prop :=
  List.Forall₂ fun child draft => child.1 = draft.1 ∧ builder.Free child.2 draft.2

/-- A builder goes on: it makes more nodes, and those it had made stay as they were. -/
structure Grows (builder after : Builder) : Prop where
  reachable : builder.Reachable → after.Reachable
  size : builder.made.size ≤ after.made.size
  kept : ∀ number < builder.made.size, after.made[number]? = builder.made[number]?

private theorem Grows.refl (builder : Builder) : builder.Grows builder :=
  ⟨id, Nat.le_refl _, fun _ _ => rfl⟩

private theorem Grows.trans {middle : Builder} (first : builder.Grows middle) (second : middle.Grows after) :
    builder.Grows after where
  reachable := second.reachable ∘ first.reachable
  size := Nat.le_trans first.size second.size
  kept number inside :=
    (second.kept number (Nat.lt_of_lt_of_le inside first.size)).trans (first.kept number inside)

private theorem Free.lt_size {number : NodeId} {draft : Draft} (free : builder.Free number draft) :
    number < builder.made.size := by
  obtain ⟨node, found, -⟩ := free
  exact (Array.getElem?_eq_some_iff.mp found).1

private theorem Free.grow {number : NodeId} {draft : Draft} (free : builder.Free number draft)
    (grows : builder.Grows after) : after.Free number draft := by
  obtain ⟨node, found, same⟩ := free
  exact ⟨node, (grows.kept number (lt_size ⟨node, found, same⟩)).trans found, same⟩

private theorem AllFree.lt_size {drafts : List (Slot × Draft)} (free : builder.AllFree children drafts) :
    ∀ child ∈ children, child.2 < builder.made.size := by
  induction free with
  | nil => exact nofun
  | cons first _ ih => exact List.forall_mem_cons.mpr ⟨first.2.lt_size, ih⟩

private theorem AllFree.congr {drafts : List (Slot × Draft)} (free : builder.AllFree children drafts)
    (kept : ∀ child ∈ children, after.made[child.2]? = builder.made[child.2]?) :
    after.AllFree children drafts := by
  induction free with
  | nil => exact .nil
  | cons first _ ih =>
    obtain ⟨sameSlot, node, found, same⟩ := first
    obtain ⟨keptFirst, keptRest⟩ := List.forall_mem_cons.mp kept
    exact .cons ⟨sameSlot, node, keptFirst.trans found, same⟩ (ih keptRest)

private theorem AllFree.grow {drafts : List (Slot × Draft)} (free : builder.AllFree children drafts)
    (grows : builder.Grows after) : after.AllFree children drafts :=
  free.congr fun child member => grows.kept child.2 (free.lt_size child member)

/-- Different nodes without parents can all be given one, which changes no other node. -/
theorem attachAll_of_free {drafts : List (Slot × Draft)} (free : builder.AllFree children drafts)
    (distinct : (children.map (·.2)).Nodup) :
    ∃ nodes after, builder.attachAll children = .ok (nodes, after) ∧
      nodes.map (fun child => (child.1, child.2.relabel Numbered.toLabel)) = drafts ∧
      after.made.size = builder.made.size ∧
      ∀ number ∉ children.map (·.2), after.made[number]? = builder.made[number]? := by
  induction children generalizing builder drafts with
  | nil =>
    cases free
    exact ⟨[], builder, rfl, rfl, rfl, fun _ _ => rfl⟩
  | cons child rest ih =>
    obtain ⟨slot, number⟩ := child
    cases free with
    | @cons _ draft _ drafts first others =>
    obtain ⟨sameSlot, node, found, same⟩ := first
    obtain ⟨apart, distinct⟩ := List.nodup_cons.mp distinct
    let middle : Builder := ⟨builder.made.setIfInBounds number ⟨node, true⟩⟩
    have unchanged {other : NodeId} (differs : other ≠ number) :
        middle.made[other]? = builder.made[other]? :=
      Array.getElem?_setIfInBounds_ne differs.symm
    have stillFree : middle.AllFree rest drafts := by
      refine AllFree.congr others ?_
      intro child member
      refine unchanged ?_
      rintro rfl
      exact apart (List.mem_map.mpr ⟨child, member, rfl⟩)
    obtain ⟨nodes, after, attached, relabelled, size, kept⟩ := ih stillFree distinct
    refine ⟨(slot, node) :: nodes, after, ?_, ?_, ?_, ?_⟩
    · exact attachAll_cons_eq_ok_iff.mpr
        ⟨node, middle, nodes, attach_eq_ok_iff.mpr ⟨found, rfl⟩, attached, rfl⟩
    · rw [List.map_cons, relabelled, same, sameSlot]
    · rw [size, Array.size_setIfInBounds]
    · intro other outside
      rw [List.map_cons, List.mem_cons, not_or] at outside
      rw [kept other outside.2, unchanged outside.1]

/-- Different nodes without parents that were made since some point can be taken over by a new one. -/
theorem add_of_free {start : Builder} {drafts : List (Slot × Draft)} (label : Label)
    (grows : start.Grows builder) (free : builder.AllFree children drafts)
    (distinct : (children.map (·.2)).Nodup)
    (recent : ∀ child ∈ children, start.made.size ≤ child.2) :
    ∃ number after, builder.add label children = .ok (number, after) ∧ start.Grows after ∧
      start.made.size ≤ number ∧ after.Free number (.node label drafts) := by
  obtain ⟨nodes, middle, attached, relabelled, size, kept⟩ := attachAll_of_free free distinct
  let node : Node := .node ⟨label, middle.made.size⟩ nodes
  let after : Builder := ⟨middle.made.push ⟨node, false⟩⟩
  have added : builder.add label children = .ok (middle.made.size, after) := by
    simp [add, attached, bind, Except.bind, pure, Except.pure, after, node]
  have atLeast : start.made.size ≤ middle.made.size := size.symm ▸ grows.size
  refine ⟨middle.made.size, after, added, ⟨?_, ?_, ?_⟩, atLeast, node, ?_, ?_⟩
  · exact fun reachable => (grows.reachable reachable).add added
  · rw [Array.size_push]
    exact Nat.le_succ_of_le atLeast
  · intro number inside
    have outside : number ∉ children.map (·.2) := by
      intro listed
      obtain ⟨child, member, rfl⟩ := List.mem_map.mp listed
      exact Nat.not_lt.mpr (recent child member) inside
    have notLast : number ≠ middle.made.size := Nat.ne_of_lt (Nat.lt_of_lt_of_le inside atLeast)
    rw [Array.getElem?_push, if_neg notLast, kept number outside, grows.kept number inside]
  · exact Array.getElem?_push_size
  · rw [SlotTree.relabel_node, relabelled]

end Builder

namespace Draft

open Builder

variable (backward : MakingOrder)

/-- Planting succeeds, with a node without parent that is the draft with numbers. -/
def Plants (draft : Draft) : Prop :=
  ∀ builder : Builder, ∃ number after, plant backward draft builder = .ok (number, after) ∧
    builder.Grows after ∧ builder.made.size ≤ number ∧ after.Free number draft

/-- Planting drafts succeeds if each can be planted, and gives new and different nodes without a parent. -/
theorem plantAll_of_plants (lastFirst : Bool) (drafts : List (Slot × Draft))
    (plants : ∀ draft ∈ drafts, Plants backward draft.2) (builder : Builder) :
    ∃ numbers after, plantAll backward lastFirst drafts builder = .ok (numbers, after) ∧
      builder.Grows after ∧ (∀ child ∈ numbers, builder.made.size ≤ child.2) ∧
      (numbers.map (·.2)).Nodup ∧ after.AllFree numbers drafts := by
  induction drafts generalizing builder with
  | nil => exact ⟨[], builder, rfl, .refl builder, nofun, .nil, .nil⟩
  | cons draft rest ih =>
    obtain ⟨slot, draft⟩ := draft
    obtain ⟨plantsFirst, plantsRest⟩ := List.forall_mem_cons.mp plants
    cases lastFirst with
    | true =>
      obtain ⟨numbers, middle, restMade, restGrows, recent, distinct, restFree⟩ := ih plantsRest builder
      obtain ⟨number, after, made, grows, newest, free⟩ := plantsFirst middle
      refine ⟨(slot, number) :: numbers, after, ?_, restGrows.trans grows, ?_, ?_, ?_⟩
      · simp [plantAll, restMade, made, bind, Except.bind, pure, Except.pure]
      · exact List.forall_mem_cons.mpr ⟨Nat.le_trans restGrows.size newest, recent⟩
      · refine List.nodup_cons.mpr ⟨?_, distinct⟩
        intro listed
        obtain ⟨child, member, rfl⟩ := List.mem_map.mp listed
        exact Nat.not_lt.mpr newest (restFree.lt_size child member)
      · exact .cons ⟨rfl, free⟩ (restFree.grow grows)
    | false =>
      obtain ⟨number, middle, made, grows, newest, free⟩ := plantsFirst builder
      obtain ⟨numbers, after, restMade, restGrows, recent, distinct, restFree⟩ := ih plantsRest middle
      refine ⟨(slot, number) :: numbers, after, ?_, grows.trans restGrows, ?_, ?_, ?_⟩
      · simp [plantAll, restMade, made, bind, Except.bind, pure, Except.pure]
      · refine List.forall_mem_cons.mpr ⟨newest, ?_⟩
        exact fun child member => Nat.le_trans grows.size (recent child member)
      · refine List.nodup_cons.mpr ⟨?_, distinct⟩
        intro listed
        obtain ⟨child, member, rfl⟩ := List.mem_map.mp listed
        exact Nat.not_lt.mpr (recent child member) free.lt_size
      · exact .cons ⟨rfl, free.grow restGrows⟩ restFree

/-- Every draft can be planted in every builder. -/
theorem plants (draft : Draft) : Plants backward draft := by
  induction draft using SlotTree.induct with
  | step label children ih =>
    intro builder
    obtain ⟨numbers, middle, made, grows, recent, distinct, free⟩ :=
      plantAll_of_plants backward (backward label.kind) children ih builder
    obtain ⟨number, after, added, result⟩ := add_of_free label grows free distinct recent
    refine ⟨number, after, ?_, result⟩
    simp [plant, made, added, bind, Except.bind]

end Draft

/-- A tree that was finished by a builder. -/
def Tree.Built (tree : Tree) : Prop :=
  ∃ builder root, Builder.Reachable builder ∧ builder.finish tree.id root = .ok tree

/-- What a builder finishes is a built tree. -/
theorem Builder.Reachable.built {builder : Builder} {id : TreeId} {root : NodeId} {tree : Tree}
    (reachable : builder.Reachable) (finished : builder.finish id root = .ok tree) : tree.Built := by
  obtain ⟨node, -, rfl⟩ := finish_eq_ok_iff.mp finished
  exact ⟨builder, root, reachable, finished⟩

/-- Built trees are coherent. -/
theorem Tree.Built.coherent {tree : Tree} (built : tree.Built) : tree.Coherent := by
  obtain ⟨builder, root, reachable, finished⟩ := built
  exact reachable.finish_coherent finished

/-- Every draft grows into a tree, and the tree is the draft with numbers. -/
theorem Draft.toTree_built (backward : MakingOrder) (id : TreeId) (draft : Draft) :
    ∃ tree, draft.toTree backward id = .ok tree ∧ tree.Built ∧ tree.id = id ∧
      tree.root.relabel Numbered.toLabel = draft := by
  obtain ⟨number, after, planted, grows, -, node, found, same⟩ := plants backward draft .empty
  have finished : after.finish id number = .ok ⟨id, after.nodes, node⟩ :=
    Builder.finish_eq_ok_iff.mpr ⟨node, found, rfl⟩
  refine ⟨⟨id, after.nodes, node⟩, ?_, ⟨after, number, grows.reachable .empty, finished⟩, rfl, same⟩
  simp [toTree, planted, finished, bind, Except.bind]

end SyntaxNav

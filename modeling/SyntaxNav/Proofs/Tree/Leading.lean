import Mathlib.Data.List.Basic
import SyntaxNav.Proofs.Tree.Building
import SyntaxNav.Tree.Traversal

/-! # Paths that lead through a tree

A path leads to a node of a tree if it starts at the root and takes every step to an entry among the
children of the node before it. In a coherent tree nothing goes wrong on such a path: looking up its
node finds that node. Traversals only hand out such paths.
-/

namespace SyntaxNav

/-- A path leads to a node of a tree: to the root, or to a child of a node that its parent leads to. -/
inductive Tree.Leads (tree : Tree) : Path → Node → Prop
  | root : Leads tree (.ofRoot tree) tree.root
  | child {path : Path} {parent : Node} {child : Slot × Node} :
      Leads tree path parent → child ∈ parent.children →
      Leads tree (path.child child.1 child.2.label.number) child.2

/-- A path is a path of a tree. -/
def Path.Genuine (path : Path) (tree : Tree) : Prop :=
  ∃ node, tree.Leads path node

namespace Tree.Leads

variable {tree : Tree} {path : Path} {node : Node}

theorem genuine (leads : tree.Leads path node) : path.Genuine tree := ⟨node, leads⟩

private theorem tree_eq (leads : tree.Leads path node) : path.tree = tree.id := by
  induction leads with
  | root => rfl
  | child _ _ ih => exact ih

/-- A path that leads to a node was made for the tree. -/
theorem belongsTo (leads : tree.Leads path node) : path.belongsTo tree = true :=
  decide_eq_true leads.tree_eq

/-- A path names the node that it leads to by number. -/
theorem node_eq (leads : tree.Leads path node) : path.node = node.label.number := by
  cases leads <;> rfl

/-- Paths lead to nodes at or below the root. -/
theorem occurs (leads : tree.Leads path node) : tree.root.Occurs node := by
  induction leads with
  | root => exact .root
  | child _ member ih => exact ih.child member

/-- In a coherent tree, the node that a path leads to is found under the number it names. -/
theorem lookup (leads : tree.Leads path node) (coherent : tree.Coherent) :
    tree.lookup path.node = .ok node := by
  rw [leads.node_eq]
  exact coherent.lookup_of_occurs leads.occurs

/-- A path leads to one node. -/
theorem node_unique {other : Node} (leads : tree.Leads path node) (otherLeads : tree.Leads path other)
    (built : tree.Built) : node = other := by
  have found := leads.lookup built.coherent
  rw [otherLeads.lookup built.coherent] at found
  exact (Except.ok.inj found).symm

/-- The children of the node are led to next. -/
theorem children_eq (leads : tree.Leads path node) (coherent : tree.Coherent) :
    path.children tree = .ok ((Visit.children ⟨path, node⟩).map (·.path)) := by
  rw [Path.children, leads.lookup coherent, Visit.children, List.map_map]
  rfl

/-- A path leads to the root, or its last step leads from a parent to one of its children. -/
theorem last_step (leads : tree.Leads path node) :
    path.steps = [] ∨ ∃ slot above parent, path.steps = ⟨slot, node.label.number⟩ :: above ∧
      tree.Leads { path with steps := above } parent ∧ (slot, node) ∈ parent.children := by
  cases leads with
  | root => exact .inl rfl
  | @child path parent child above member =>
    exact .inr ⟨child.1, path.steps, parent, rfl, above, member⟩

/-- The parent of a node other than the root is led to as well. -/
theorem parent (leads : tree.Leads path node) {parentPath : Path}
    (above : path.parent? = some parentPath) :
    ∃ slot parent, path.slot? = some slot ∧ tree.Leads parentPath parent ∧
      (slot, node) ∈ parent.children := by
  rcases leads.last_step with steps | ⟨slot, steps, parent, whole, leadsAbove, member⟩
  · rw [Path.parent?, steps] at above
    cases above
  · rw [Path.parent?, whole] at above
    cases above
    exact ⟨slot, parent, by rw [Path.slot?, whole]; rfl, leadsAbove, member⟩

end Tree.Leads

/-- All visits lead to their nodes. -/
def AllLead (tree : Tree) (visits : List Visit) : Prop :=
  ∀ visit ∈ visits, tree.Leads visit.path visit.node

namespace AllLead

variable {tree : Tree} {visit : Visit} {stack : List Visit}

/-- From a visit that leads to its node, so do the visits to its children. -/
theorem children (leads : tree.Leads visit.path visit.node) : AllLead tree visit.children := by
  intro child member
  obtain ⟨entry, entryMember, rfl⟩ := List.mem_map.mp member
  exact leads.child entryMember

/-- Visiting parents first stays in the tree. -/
theorem preorder (stackLeads : AllLead tree stack) : AllLead tree (Visit.preorder stack) := by
  induction stack using Visit.preorder.induct with
  | case1 =>
    rw [Visit.preorder]
    exact stackLeads
  | case2 visit stack ih =>
    rw [Visit.preorder]
    obtain ⟨leads, stackLeads⟩ := List.forall_mem_cons.mp stackLeads
    refine List.forall_mem_cons.mpr ⟨leads, ih ?_⟩
    exact List.forall_mem_append.mpr ⟨children leads, stackLeads⟩

/-- Visiting children first stays in the tree. -/
theorem postorder {pending : List Visit.Pending} (stackLeads : AllLead tree (pending.map (·.1))) :
    AllLead tree (Visit.postorder pending) := by
  induction pending using Visit.postorder.induct with
  | case1 =>
    rw [Visit.postorder]
    exact stackLeads
  | case2 visit stack ih =>
    rw [Visit.postorder]
    obtain ⟨leads, stackLeads⟩ := List.forall_mem_cons.mp stackLeads
    exact List.forall_mem_cons.mpr ⟨leads, ih stackLeads⟩
  | case3 visit stack ih =>
    rw [Visit.postorder]
    obtain ⟨leads, stackLeads⟩ := List.forall_mem_cons.mp stackLeads
    apply ih
    simp only [List.map_append, List.map_map, Function.comp_def, List.map_id', List.map_cons]
    exact List.forall_mem_append.mpr ⟨children leads, List.forall_mem_cons.mpr ⟨leads, stackLeads⟩⟩

end AllLead

end SyntaxNav

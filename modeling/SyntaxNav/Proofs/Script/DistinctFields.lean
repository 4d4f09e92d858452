import SyntaxNav.Proofs.Script.SpanGeometry
import SyntaxNav.Proofs.Tree.Forest

/-! # No node has a field twice

A tree whose nodes were all made from fields with different names keeps them: attaching nodes changes no
slot. In particular no node of a parsed script has two fields of the same name, since drafts that cover
tokens are made from such fields, and the tree of a script has the slots of its draft.
-/

namespace SyntaxNav

/-- No node of a tree has two fields of the same name. -/
def Tree.DistinctFields (tree : Tree) : Prop :=
  tree.root.Everywhere SlotTree.DistinctFields

namespace Builder

variable {builder after : Builder} {calls : List Call}

/-- Attached nodes take the slots that were given. -/
theorem attachAll_slots {children : List (Slot × NodeId)} {nodes : List (Slot × Node)}
    (attached : builder.attachAll children = .ok (nodes, after)) :
    nodes.map (·.1) = children.map (·.1) := by
  induction children generalizing builder nodes with
  | nil =>
    cases attached
    rfl
  | cons child rest ih =>
    obtain ⟨node, middle, others, -, attachedRest, rfl⟩ := attachAll_cons_eq_ok_iff.mp attached
    rw [List.map_cons, List.map_cons, ih attachedRest]

/-- Calls whose fields have different names make nodes whose fields have. -/
theorem runFrom_distinctFields (ran : builder.runFrom calls = .ok after)
    (distinct : ∀ call ∈ calls, (call.fields.map Field.name).Nodup)
    (before : ∀ node ∈ builder.nodes, node.DistinctFields) :
    ∀ node ∈ after.nodes, node.DistinctFields := by
  induction calls generalizing builder with
  | nil =>
    cases ran
    exact before
  | cons call calls ih =>
    obtain ⟨number, middle, called, ran⟩ := runFrom_cons_eq_ok_iff.mp ran
    obtain ⟨below, _, attached, pushed⟩ := attachAll_of_add called
    obtain ⟨names, distinct⟩ := List.forall_mem_cons.mp distinct
    refine ih ran distinct fun node member => ?_
    rw [pushed, Array.mem_push] at member
    rcases member with earlier | rfl
    · exact before node earlier
    · exact SlotTree.distinctFields_of_slots names (attachAll_slots attached)

/-- Calls whose fields have different names make trees whose nodes have such fields. -/
theorem finish_distinctFields {id : TreeId} {root : NodeId} {tree : Tree} (ran : run calls = .ok builder)
    (distinct : ∀ call ∈ calls, (call.fields.map Field.name).Nodup)
    (finished : builder.finish id root = .ok tree) : tree.Built ∧ tree.DistinctFields := by
  have built := (Reachable.empty.runFrom ran).built finished
  refine ⟨built, fun node occurs => ?_⟩
  have nothing : ∀ node ∈ empty.nodes, node.DistinctFields := by simp [empty, Builder.nodes]
  have found := built.coherent.occurs_found occurs
  obtain ⟨made, -, rfl⟩ := finish_eq_ok_iff.mp finished
  exact runFrom_distinctFields ran distinct nothing node (Array.mem_of_getElem? found)

end Builder

private theorem Draft.everywhere_distinctFields {label : Label} {fields : List (Field Draft)}
    (names : (fields.map Field.name).Nodup)
    (below : ∀ draft ∈ fields.flatMap Field.contents, draft.Everywhere SlotTree.DistinctFields) :
    SlotTree.Everywhere SlotTree.DistinctFields (branch label fields) := by
  refine SlotTree.everywhere_node ⟨fields, names, rfl⟩ ?_
  rw [Field.map_snd_spread]
  exact below

namespace Script

/-- Drafts that cover tokens have no field twice. -/
theorem Covers.distinctFields {tokens : List Token} {drafts : List Draft} (covers : Covers tokens drafts) :
    ∀ draft ∈ drafts, draft.Everywhere SlotTree.DistinctFields := by
  have isLeaf (kind : String) (token : Token) :
      (Script.leaf kind token).Everywhere SlotTree.DistinctFields :=
    SlotTree.everywhere_node ⟨[], .nil, rfl⟩ (List.forall_mem_nil _)
  induction covers with
  | nil => exact List.forall_mem_nil _
  | mark _ _ ih => exact ih
  | brackets _ _ _ _ _ ihInner ihRest => exact List.forall_mem_append.mpr ⟨ihInner, ihRest⟩
  | leaf _ _ ih => exact List.forall_mem_cons.mpr ⟨isLeaf _ _, ih⟩
  | branch orderly _ _ _ _ ihInner ihRest =>
    simp only [isOrderly, Bool.and_eq_true, decide_eq_true_eq] at orderly
    exact List.forall_mem_cons.mpr ⟨Draft.everywhere_distinctFields orderly.2 ihInner, ihRest⟩
  | @loop test body _ _ _ _ _ _ _ _ _ _ _ _ _ ihFront ihBack ihRest =>
    refine List.forall_mem_cons.mpr ⟨Draft.everywhere_distinctFields (by simp [Field.name]) ?_, ihRest⟩
    exact List.forall_mem_cons.mpr ⟨ihBack test List.mem_cons_self, ihFront⟩
  | shorthand _ _ _ ih =>
    refine List.forall_mem_cons.mpr ⟨Draft.everywhere_distinctFields (by simp [Field.name]) ?_, ih⟩
    exact List.forall_mem_cons.mpr ⟨isLeaf _ _, List.forall_mem_singleton.mpr (isLeaf _ _)⟩

/-- No node of a parsed script has two fields of the same name. -/
theorem toTree_distinctFields {id : TreeId} {source : String} {tree : Tree}
    (parsed : toTree id source = .ok tree) : tree.DistinctFields := by
  obtain ⟨tokens, body, -, covers, whole⟩ := parse_covers (toTree_spec parsed).1
  have drafted : (tree.root.relabel Numbered.toLabel).Everywhere SlotTree.DistinctFields := by
    rw [whole]
    exact Draft.everywhere_distinctFields (List.nodup_singleton _) (by simpa using covers.distinctFields)
  intro node occurs
  obtain ⟨fields, names, spread⟩ := drafted _ (occurs.relabel Numbered.toLabel)
  refine SlotTree.distinctFields_of_slots names ?_
  rw [← spread, SlotTree.children_relabel, List.map_map]
  rfl

end Script

end SyntaxNav

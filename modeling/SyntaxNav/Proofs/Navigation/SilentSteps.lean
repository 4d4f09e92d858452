import SyntaxNav.Proofs.Navigation.Closure
import SyntaxNav.Proofs.Tree.PathIdentity

/-! # Steps where no field order is known

Where a child has no neighbour in its list and nothing is known of the fields of its parent, a step looks
through all that lies below the parent for something that is not within the child. Whatever the traversal
hands out around one child of the parent is within the child or none of it is (`isWithin_around_iff`). So
the search passes over the child and stops at the first thing that it meets around the first other child:
at that child itself on the way forward, and on the way back at the leaf that first children lead down to.
Both ways it is the same child, so from any child but the first a step forward leads back to the first.
-/

namespace SyntaxNav

/-- Going to the first child again and again leads from a path down to a leaf. -/
inductive Path.FirstLeaf (tree : Tree) : Path → Path → Prop
  | leaf {path : Path} : path.children tree = .ok [] → FirstLeaf tree path path
  | down {path first leaf : Path} {rest : List Path} : path.children tree = .ok (first :: rest) →
      FirstLeaf tree first leaf → FirstLeaf tree path leaf

/-- Where each group fits as a whole or not at all, the first fit is the first of the first group that
fits. -/
private theorem find?_flatMap_of_groups {α β : Type} {items : List α} {group : α → List β}
    {wanted : α → Bool} {fits : β → Bool} (inhabited : ∀ item, group item ≠ [])
    (whole : ∀ item ∈ items, ∀ found ∈ group item, fits found = wanted item) :
    (items.flatMap group).find? fits = (items.find? wanted).bind fun item => (group item).head? := by
  induction items with
  | nil => rfl
  | cons item items ih =>
    obtain ⟨here, later⟩ := List.forall_mem_cons.mp whole
    rw [List.flatMap_cons, List.find?_append, ih later]
    cases isWanted : wanted item with
    | false =>
      have passed : (group item).find? fits = none :=
        List.find?_eq_none.mpr fun found member => by simp [here found member, isWanted]
      rw [passed, Option.none_or, List.find?_cons_of_neg (by simp [isWanted])]
    | true =>
      obtain ⟨first, rest, split⟩ := List.exists_cons_of_ne_nil (inhabited item)
      have fitting : fits first = true := by
        rw [here first (by rw [split]; exact List.mem_cons_self), isWanted]
      rw [split, List.find?_cons_of_pos fitting, List.find?_cons_of_pos isWanted, Option.some_or,
        Option.bind_some, split, List.head?_cons]

namespace Direction

private theorem around_ne_nil (direction : Direction) (visit : Visit) : direction.around visit ≠ [] := by
  cases direction <;> simp [around]

/-- Children first, the first thing around a node is the leaf that first children lead down to. -/
theorem exists_firstLeaf {tree : Tree} {visit : Visit} (leads : tree.Leads visit.path visit.node)
    (coherent : tree.Coherent) :
    ∃ leaf, (backward.around visit).head? = some leaf ∧ visit.path.FirstLeaf tree leaf.path := by
  obtain ⟨path, node⟩ := visit
  induction node using SlotTree.induct generalizing path with
  | step label children ih =>
    have order : backward.around ⟨path, .node label children⟩ =
        (Visit.children ⟨path, .node label children⟩).flatMap backward.around ++
          [⟨path, .node label children⟩] :=
      congrArg (· ++ [_]) (backward.below_eq_flatMap _)
    cases children with
    | nil => exact ⟨_, by rw [order]; rfl, .leaf (leads.children_eq coherent)⟩
    | cons entry rest =>
      let first : Visit := ⟨path.child entry.1 entry.2.label.number, entry.2⟩
      obtain ⟨leaf, reached, down⟩ := ih entry List.mem_cons_self first.path
        (leads.child List.mem_cons_self)
      refine ⟨leaf, ?_, .down (leads.children_eq coherent) down⟩
      rw [order]
      change ((first :: _).flatMap backward.around ++ _).head? = some leaf
      rw [List.flatMap_cons, List.append_assoc, List.head?_append, reached, Option.some_or]

end Direction

namespace Navigator

variable {tree : Tree} {parentPath : Path} {parent : Node} {entry : Slot × Node} {direction : Direction}

/-- What is handed out around one child is within another one just if the two are the same. -/
theorem isWithin_around_iff (built : tree.Built) (leadsAbove : tree.Leads parentPath parent)
    (member : entry ∈ parent.children) {visit inner : Visit}
    (isChild : visit ∈ Visit.children ⟨parentPath, parent⟩) (around : inner ∈ direction.around visit) :
    inner.path.isWithin entry.2.label.number = true ↔ visit.path.node = entry.2.label.number := by
  have through : visit.path ∈ inner.path.ancestors := by
    rcases direction.mem_around_iff.mp around with rfl | below
    · exact Path.mem_ancestors_self _
    · exact (Visit.path_below below).1
  have listed : inner ∈ direction.below ⟨parentPath, parent⟩ := by
    rw [direction.below_eq_flatMap]
    exact List.mem_flatMap.mpr ⟨visit, isChild, around⟩
  have innerLeads := AllLead.below direction leadsAbove inner listed
  have visitLeads := AllLead.children leadsAbove visit isChild
  have childLeads := leadsAbove.child member
  have within := childLeads.genuine.isWithin_iff built innerLeads.genuine
  rw [Path.node_child] at within
  rw [within]
  constructor
  · intro upward
    -- Both children stand one step below the parent, and the path leads through one such path only.
    obtain ⟨other, -, rfl⟩ := Visit.mem_children.mp isChild
    rw [Path.ancestor_unique through upward rfl, Path.node_child]
  · intro same
    rw [← visitLeads.genuine.eq_of_node built childLeads.genuine same]
    exact through

/-- The search beside a child stops at the first thing that it meets around the first other child. -/
theorem beside_of_silent (navigator : Navigator) (built : navigator.tree.Built)
    (leadsAbove : navigator.tree.Leads parentPath parent) (member : entry ∈ parent.children)
    (silent : navigator.order.fields? parent.label.kind = none) :
    navigator.beside direction ⟨parentPath, parent⟩ entry.1 entry.2.label.number =
      ((Visit.children ⟨parentPath, parent⟩).find? (·.path.node ≠ entry.2.label.number)).bind fun visit =>
        (direction.around visit).head? := by
  simp only [beside, silent]
  rw [direction.below_eq_flatMap]
  refine find?_flatMap_of_groups direction.around_ne_nil fun visit isChild inner around => ?_
  have within := isWithin_around_iff built leadsAbove member isChild around
  rw [Bool.eq_iff_iff, Bool.not_eq_true', ← Bool.not_eq_true, within, decide_eq_true_eq]

private theorem step_of_silent {navigator : Navigator} (built : navigator.tree.Built)
    (leadsAbove : navigator.tree.Leads parentPath parent) (member : entry ∈ parent.children)
    (silent : navigator.order.fields? parent.label.kind = none)
    (alone : (parentPath.child entry.1 entry.2.label.number).sibling? navigator.tree direction.offset =
      .ok none) :
    navigator.step direction (parentPath.child entry.1 entry.2.label.number) =
      .ok ((((Visit.children ⟨parentPath, parent⟩).find? (·.path.node ≠ entry.2.label.number)).bind
        fun visit => (direction.around visit).head?).map (·.path)) := by
  have siblings := sibling?_child built.coherent leadsAbove entry.1 entry.2.label.number direction.offset
  rw [step_child built.coherent leadsAbove, Except.ok.inj (siblings.symm.trans alone), Option.none_or,
    navigator.beside_of_silent built leadsAbove member silent]

/-- Among the children of a parent all others are missing just if there is only one. -/
theorem find?_other_eq_none_iff (built : tree.Built) (leadsAbove : tree.Leads parentPath parent)
    {path : Path} {children : List Path} (listed : parentPath.children tree = .ok children)
    (member : path ∈ children) : children.find? (·.node ≠ path.node) = none ↔ children = [path] := by
  have distinct : (children.map (·.node)).Nodup := by
    obtain rfl := Except.ok.inj (listed.symm.trans (leadsAbove.children_eq built.coherent))
    have numbers := built.distinctChildren _ _ (built.coherent.occurs_found leadsAbove.occurs)
    simpa only [Visit.children, List.map_map, Function.comp_def, Path.node_child] using numbers
  constructor
  · intro nothing
    have all : ∀ child ∈ children, child.node = path.node := by
      simpa using List.find?_eq_none.mp nothing
    have equal : ∀ child ∈ children, child = path := fun child isChild =>
      List.inj_on_of_nodup_map distinct isChild member (all child isChild)
    obtain ⟨first, rest, rfl⟩ := List.exists_cons_of_ne_nil (List.ne_nil_of_mem member)
    obtain rfl := equal first List.mem_cons_self
    cases rest with
    | nil => rfl
    | cons second rest =>
      have again := equal second (List.mem_cons_of_mem _ List.mem_cons_self)
      simp [again] at distinct
  · rintro rfl
    simp

/-- Where the fields of the parent have no order, and there is no neighbour in the list, a step forward leads
to the first child of the parent other than the node, and a step back leads down from the same child to its
first leaf. Both lead nowhere if the node is the only child. -/
theorem silent_steps_take_first_other (tree : Tree) (built : tree.Built) (order : FieldOrder)
    (path parentPath : Path) (genuine : path.Genuine tree) (above : path.parent? = some parentPath) :
    ∃ parent children, tree.lookup parentPath.node = .ok parent ∧
      parentPath.children tree = .ok children ∧ (order.fields? parent.label.kind = none →
        let other? := children.find? (·.node ≠ path.node)
        (other? = none ↔ children = [path]) ∧
          (path.sibling? tree 1 = .ok none → step ⟨tree, order⟩ .forward path = .ok other?) ∧
          (path.sibling? tree (-1) = .ok none →
            (other? = none → step ⟨tree, order⟩ .backward path = .ok none) ∧
            ∀ other, other? = some other →
              ∃ leaf, other.FirstLeaf tree leaf ∧ step ⟨tree, order⟩ .backward path = .ok (some leaf))) := by
  obtain ⟨node, leads⟩ := genuine
  cases leads with
  | root => cases above
  | @child upper node entry leadsAbove member =>
    obtain rfl : upper = parentPath := Option.some.inj above
    have listed := leadsAbove.children_eq built.coherent
    refine ⟨node, _, leadsAbove.lookup built.coherent, listed, ?_⟩
    intro silent other?
    have isListed : upper.child entry.1 entry.2.label.number ∈
        (Visit.children ⟨upper, node⟩).map (·.path) :=
      List.mem_map_of_mem (Visit.mem_children.mpr ⟨entry, member, rfl⟩)
    have others : other? = ((Visit.children ⟨upper, node⟩).find?
        (·.path.node ≠ entry.2.label.number)).map (·.path) := List.find?_map
    refine ⟨find?_other_eq_none_iff built leadsAbove listed isListed, ?_, ?_⟩
    · intro alone
      rw [step_of_silent built leadsAbove member silent alone, others]
      cases (Visit.children ⟨upper, node⟩).find? _ <;> rfl
    · intro alone
      rw [step_of_silent built leadsAbove member silent alone, others]
      constructor
      · intro nothing
        rw [Option.map_eq_none_iff.mp nothing]
        rfl
      · intro other chosen
        obtain ⟨visit, first, rfl⟩ := Option.map_eq_some_iff.mp chosen
        have visitLeads := AllLead.children leadsAbove visit (List.mem_of_find?_eq_some first)
        obtain ⟨leaf, reached, down⟩ := Direction.exists_firstLeaf visitLeads built.coherent
        exact ⟨leaf.path, down, by rw [first, Option.bind_some, reached, Option.map_some]⟩

/-- From the right operand of a sum a step forward leads back to the left one, which is a call, and a step
back leads to what is called. -/
theorem right_operand_steps_to_left :
    ∃ (tree : Tree) (parent : Visit) (entry : Slot × Node) (other leaf : Path),
      (Script.language.parse 0 "f(x) + b").value = .ok tree ∧
      tree.Leads parent.path parent.node ∧ entry ∈ parent.node.children ∧ entry.1 = .single "right" ∧
      step ⟨tree, .bundled⟩ .forward (parent.path.child entry.1 entry.2.label.number) =
        .ok (some other) ∧
      other.render = "Path(body[0].expression.left)" ∧ other.FirstLeaf tree leaf ∧
      step ⟨tree, .bundled⟩ .backward (parent.path.child entry.1 entry.2.label.number) =
        .ok (some leaf) := by
  obtain ⟨tree, parent, parsed, built, leads, facts⟩ := exists_visit_at "f(x) + b" [0, 0]
    (fun _ parent => parent.node.label.kind = "BinaryExpression" ∧
      parent.node.children[1]?.any fun entry => entry.1 = .single "right" ∧
        ((parent.children.map (·.path)).find? (·.node ≠ entry.2.label.number)).map (·.render) =
          some "Path(body[0].expression.left)") (by decide +kernel)
  obtain ⟨kind, facts⟩ := of_decide_eq_true facts
  obtain ⟨entry, second, facts⟩ := (Option.any_eq_true _ _).mp facts
  obtain ⟨place, facts⟩ := of_decide_eq_true facts
  obtain ⟨other, chosen, written⟩ := Option.map_eq_some_iff.mp facts
  have member := List.mem_of_getElem? second
  have alone (offset : Int) :
      (parent.path.child entry.1 entry.2.label.number).sibling? tree offset = .ok none := by
    rw [place]
    rfl
  obtain ⟨above, children, found, listed, silent⟩ := silent_steps_take_first_other tree built .bundled
    (parent.path.child entry.1 entry.2.label.number) parent.path (leads.child member).genuine rfl
  obtain rfl := Except.ok.inj ((leads.lookup built.coherent).symm.trans found)
  obtain rfl := Except.ok.inj ((leads.children_eq built.coherent).symm.trans listed)
  obtain ⟨-, forward, backward⟩ := silent (by rw [kind]; rfl)
  obtain ⟨leaf, down, stepped⟩ := (backward (alone (-1))).2 other chosen
  exact ⟨tree, parent, entry, other, leaf, parsed, leads, member, place,
    (forward (alone 1)).trans (congrArg Except.ok chosen), written, down, stepped⟩

end Navigator

end SyntaxNav

import SyntaxNav.Proofs.Navigation.Closure

/-! # Crossing from one field to another

Where a child has no neighbour in its list and the fields of its parent are ordered, a step goes on to the
field beside its own. The field is looked for by its name among all that lies below the parent, not only
among its children. So a step leads into a child in that field exactly when no child in front of the first
such child holds a field of this name further down (`crossing_lands_iff_unshadowed`).
-/

namespace SyntaxNav

/-- Some node of a tree has a child in a field. -/
def SlotTree.HoldsField {α : Type} (tree : SlotTree α) (field : String) : Prop :=
  ∃ inner, tree.Occurs inner ∧ ∃ child ∈ inner.children, child.1.field = field

private theorem SlotTree.holdsField_iff {α : Type} {tree : SlotTree α} {field : String} :
    tree.HoldsField field ↔
      ∃ child ∈ tree.children, child.1.field = field ∨ child.2.HoldsField field := by
  constructor
  · rintro ⟨inner, occurs, child, member, here⟩
    rcases occurs_iff.mp occurs with rfl | ⟨outer, outerMember, within⟩
    · exact ⟨child, member, .inl here⟩
    · exact ⟨outer, outerMember, .inr ⟨inner, within, child, member, here⟩⟩
  · rintro ⟨child, member, here | ⟨inner, occurs, further⟩⟩
    · exact ⟨tree, .root, child, member, here⟩
    · exact ⟨inner, Occurs.trans (.child .root member) occurs, further⟩

namespace Visit

def inField (field : String) (visit : Visit) : Bool :=
  visit.path.slot?.any (·.field = field)

def toChild (visit : Visit) (entry : Slot × Node) : Visit :=
  ⟨visit.path.child entry.1 entry.2.label.number, entry.2⟩

private theorem children_eq_map (visit : Visit) :
    visit.children = visit.node.children.map visit.toChild := rfl

@[simp] theorem inField_toChild (visit : Visit) (entry : Slot × Node) (field : String) :
    (visit.toChild entry).inField field = true ↔ entry.1.field = field := by
  simp [inField, toChild]

private theorem mem_below_iff {visit inner : Visit} :
    inner ∈ visit.below ↔ ∃ entry ∈ visit.node.children,
      inner = visit.toChild entry ∨ inner ∈ (visit.toChild entry).below := by
  rw [below, preorder_eq_flatMap, children_eq_map, List.flatMap_map]
  simp only [List.mem_flatMap, List.mem_cons]

/-- A field is met below a node where some node there has a child in it. -/
theorem exists_inField_iff (visit : Visit) (field : String) :
    (∃ inner ∈ visit.below, inner.inField field = true) ↔ visit.node.HoldsField field := by
  obtain ⟨path, node⟩ := visit
  induction node using SlotTree.induct generalizing path with
  | step label children ih =>
    rw [SlotTree.holdsField_iff]
    constructor
    · rintro ⟨inner, member, here⟩
      obtain ⟨entry, entryMember, rfl | further⟩ := mem_below_iff.mp member
      · exact ⟨entry, entryMember, .inl ((inField_toChild _ _ _).mp here)⟩
      · exact ⟨entry, entryMember, .inr ((ih entry entryMember _).mp ⟨inner, further, here⟩)⟩
    · rintro ⟨entry, entryMember, here | holds⟩
      · exact ⟨_, mem_below_iff.mpr ⟨entry, entryMember, .inl rfl⟩, (inField_toChild _ _ _).mpr here⟩
      · obtain ⟨inner, further, here⟩ := (ih entry entryMember _).mpr holds
        exact ⟨inner, mem_below_iff.mpr ⟨entry, entryMember, .inr further⟩, here⟩

end Visit

namespace Direction

variable (direction : Direction) {visit found : Visit} {entry : Slot × Node} {field : String}

private theorem find?_around_eq_none_iff :
    (direction.around (visit.toChild entry)).find? (·.inField field) = none ↔
      entry.1.field ≠ field ∧ ¬entry.2.HoldsField field := by
  have here := visit.inField_toChild entry field
  have below := (visit.toChild entry).exists_inField_iff field
  rw [List.find?_eq_none, Ne, ← here]
  change _ ↔ _ ∧ ¬(visit.toChild entry).node.HoldsField field
  rw [← below]
  constructor
  · intro nowhere
    refine ⟨nowhere _ (direction.mem_around_iff.mpr (.inl rfl)), ?_⟩
    rintro ⟨inner, member, here⟩
    exact nowhere inner (direction.mem_around_iff.mpr (.inr member)) here
  · rintro ⟨notHere, notBelow⟩ inner member
    rcases direction.mem_around_iff.mp member with rfl | further
    · exact notHere
    · exact fun here => notBelow ⟨inner, further, here⟩

/-- Nothing below a node is in a field when no child is in it or holds it. -/
theorem find?_below_eq_none_iff :
    (direction.below visit).find? (·.inField field) = none ↔
      ∀ entry ∈ visit.node.children, entry.1.field ≠ field ∧ ¬entry.2.HoldsField field := by
  rw [below_eq_flatMap, List.find?_flatMap, List.findSome?_eq_none_iff, Visit.children_eq_map,
    List.forall_mem_map]
  exact forall₂_congr fun entry _ => find?_around_eq_none_iff direction

/-- The first visit in a field is found around the first child that is in it or holds it. -/
theorem exists_of_find?_below (first : (direction.below visit).find? (·.inField field) = some found) :
    ∃ before entry after, visit.node.children = before ++ entry :: after ∧
      (∀ other ∈ before, other.1.field ≠ field ∧ ¬other.2.HoldsField field) ∧
      (direction.around (visit.toChild entry)).find? (·.inField field) = some found := by
  rw [below_eq_flatMap, List.find?_flatMap, List.findSome?_eq_some_iff, Visit.children_eq_map] at first
  obtain ⟨passed, child, rest, whole, here, skipped⟩ := first
  obtain ⟨before, tail, split, rfl, onward⟩ := List.map_eq_append_iff.mp whole
  obtain ⟨entry, after, rfl, rfl, -⟩ := List.map_eq_cons_iff.mp onward
  refine ⟨before, entry, after, split, ?_, here⟩
  intro other member
  exact (find?_around_eq_none_iff direction).mp (skipped _ (List.mem_map_of_mem member))

private theorem through_of_find?_around
    (first : (direction.around (visit.toChild entry)).find? (·.inField field) = some found) :
    (visit.toChild entry).path ∈ found.path.ancestors := by
  rcases direction.mem_around_iff.mp (List.mem_of_find?_eq_some first) with rfl | member
  · exact Path.mem_ancestors_self _
  · exact (Visit.path_below member).1

end Direction

namespace Navigator

/-- A path leads into a field of a node: to the first child in it on the way forward, and to or below one
of the children in it on the way back. -/
def LandsIn (direction : Direction) (parent : Visit) (field : String) (target : Path) : Prop :=
  match direction with
  | .forward => ∃ entry, parent.node.children.find? (·.1.field = field) = some entry ∧
      target = (parent.toChild entry).path
  | .backward => ∃ entry ∈ parent.node.children, entry.1.field = field ∧
      (parent.toChild entry).path ∈ target.ancestors

/-- A step leads into the field beside a child if the parent has a child there, and nowhere else. -/
structure Crosses (direction : Direction) (parent : Visit) (field? : Option String)
    (result : Option Path) : Prop where
  isSome_iff : result.isSome ↔ ∃ field, field? = some field ∧
    ∃ entry ∈ parent.node.children, entry.1.field = field
  lands : ∀ field target, field? = some field → result = some target →
    LandsIn direction parent field target

/-- No child in front of the first one in a field holds the field further down. -/
def Unshadowed (parent : Node) (field : String) : Prop :=
  ∀ entry ∈ parent.children.takeWhile (·.1.field ≠ field), ¬entry.2.HoldsField field

variable {direction : Direction} {parent : Visit} {field : String} {target : Path}

/-- A place in a field is at or below a child of the parent in that field. -/
theorem LandsIn.through (lands : LandsIn direction parent field target) :
    ∃ entry ∈ parent.node.children, entry.1.field = field ∧
      (parent.toChild entry).path ∈ target.ancestors := by
  cases direction with
  | forward =>
    obtain ⟨entry, first, rfl⟩ := lands
    have here : entry.1.field = field := by simpa using List.find?_some first
    exact ⟨entry, List.mem_of_find?_eq_some first, here, Path.mem_ancestors_self _⟩
  | backward => exact lands

private theorem landsIn_of_first {before after : List (Slot × Node)} {entry : Slot × Node} {found : Visit}
    (split : parent.node.children = before ++ entry :: after)
    (skipped : ∀ other ∈ before, other.1.field ≠ field) (here : entry.1.field = field)
    (first : (direction.around (parent.toChild entry)).find? (·.inField field) = some found) :
    LandsIn direction parent field found.path := by
  have member : entry ∈ parent.node.children := split ▸ List.mem_append_right _ List.mem_cons_self
  have through := direction.through_of_find?_around first
  cases direction with
  | forward =>
    have atOnce : (parent.toChild entry).inField field = true := (parent.inField_toChild _ _).mpr here
    rw [Direction.around, List.find?_cons_of_pos atOnce] at first
    refine ⟨entry, ?_, by rw [Option.some.inj first]⟩
    rw [split, List.find?_append, List.find?_eq_none.mpr (by simpa using skipped), Option.none_or,
      List.find?_cons_of_pos (by simpa using here)]
  | backward => exact ⟨entry, member, here, through⟩

/-- The first visit in a field leads into the field exactly when nothing shadows the field. -/
theorem crosses_iff_unshadowed (direction : Direction) (parent : Visit) (field : String) :
    Crosses direction parent (some field)
        (((direction.below parent).find? (·.inField field)).map (·.path)) ↔
      Unshadowed parent.node field := by
  cases search : (direction.below parent).find? (·.inField field) with
  | none =>
    have nowhere := direction.find?_below_eq_none_iff.mp search
    refine iff_of_true ⟨?_, fun _ _ _ impossible => nomatch impossible⟩ ?_
    · refine iff_of_false Bool.false_ne_true ?_
      rintro ⟨_, ⟨⟩, entry, member, here⟩
      exact (nowhere entry member).1 here
    · exact fun entry member => (nowhere entry ((List.takeWhile_prefix _).mem member)).2
  | some found =>
    obtain ⟨before, entry, after, split, skipped, first⟩ := direction.exists_of_find?_below search
    have member : entry ∈ parent.node.children := split ▸ List.mem_append_right _ List.mem_cons_self
    have passes : ∀ other ∈ before, decide (other.1.field ≠ field) = true := fun other among =>
      decide_eq_true (skipped other among).1
    rw [Unshadowed, split, List.takeWhile_append_of_pos passes]
    -- The child around which the visit was found is itself in the field, or it shadows the field.
    by_cases here : entry.1.field = field
    · rw [List.takeWhile_cons_of_neg (by simpa using here), List.append_nil]
      refine iff_of_true ⟨?_, ?_⟩ fun other among => (skipped other among).2
      · exact iff_of_true rfl ⟨field, rfl, entry, member, here⟩
      · rintro _ _ ⟨⟩ ⟨⟩
        exact landsIn_of_first split (fun other among => (skipped other among).1) here first
    · rw [List.takeWhile_cons_of_pos (by simpa using here)]
      refine iff_of_false ?_ ?_
      · intro crosses
        obtain ⟨other, -, inField, through⟩ := (crosses.lands field found.path rfl rfl).through
        have same := Path.ancestor_unique through (direction.through_of_find?_around first) rfl
        have sameSlot : other.1 = entry.1 := Option.some.inj (congrArg Path.slot? same)
        exact here (sameSlot ▸ inField)
      · intro unshadowed
        have notHeld := unshadowed entry (List.mem_append_right _ List.mem_cons_self)
        rw [direction.find?_around_eq_none_iff.mpr ⟨here, notHeld⟩] at first
        cases first

private theorem beside_of_fields (navigator : Navigator) {fields : List String} {slot : Slot} {child : NodeId}
    (ordered : navigator.order.fields? parent.node.label.kind = some fields) :
    navigator.beside direction parent slot child =
      (direction.beside? navigator.order parent.node.label.kind slot.field).bind fun field =>
        (direction.below parent).find? (·.inField field) := by
  simp only [beside, ordered]
  rfl

private theorem crosses_iff (direction : Direction) (parent : Visit) (field? : Option String) :
    Crosses direction parent field? (field?.bind fun field =>
        ((direction.below parent).find? (·.inField field)).map (·.path)) ↔
      ∀ field, field? = some field → Unshadowed parent.node field := by
  cases field? with
  | none =>
    refine iff_of_true ⟨iff_of_false Bool.false_ne_true ?_, ?_⟩ ?_
    · exact fun ⟨_, impossible, _⟩ => nomatch impossible
    · exact fun _ _ impossible => nomatch impossible
    · exact fun _ impossible => nomatch impossible
  | some field =>
    rw [Option.bind_some, crosses_iff_unshadowed]
    exact ⟨fun unshadowed _ same => Option.some.inj same ▸ unshadowed, fun all => all field rfl⟩

/-- The field beside a child is entered at the first place of that name below the parent, which is in a
child of the parent in that field exactly when nothing shadows the field. -/
theorem crossing_lands_iff_unshadowed (tree : Tree) (built : tree.Built) (order : FieldOrder)
    (direction : Direction) (path parentPath : Path) (slot : Slot) (parent : Node)
    (fields : List String) (genuine : path.Genuine tree) (above : path.parent? = some parentPath)
    (place : path.slot? = some slot) (found : tree.lookup parentPath.node = .ok parent)
    (ordered : order.fields? parent.label.kind = some fields)
    (alone : path.sibling? tree direction.offset = .ok none) :
    let field? := direction.beside? order parent.label.kind slot.field
    ∃ result, step ⟨tree, order⟩ direction path = .ok result ∧
      (result = field?.bind fun field =>
        ((direction.below ⟨parentPath, parent⟩).find? (·.inField field)).map (·.path)) ∧
      (Crosses direction ⟨parentPath, parent⟩ field? result ↔
        ∀ field, field? = some field → Unshadowed parent field) := by
  intro field?
  let navigator : Navigator := ⟨tree, order⟩
  have coherent : navigator.tree.Coherent := built.coherent
  obtain ⟨node, leads⟩ := genuine
  cases leads with
  | root => cases above
  | @child upper node child leadsAbove _ =>
    obtain rfl : upper = parentPath := Option.some.inj above
    obtain rfl : child.1 = slot := Option.some.inj place
    obtain rfl : node = parent := Except.ok.inj ((leadsAbove.lookup coherent).symm.trans found)
    have siblings := sibling?_child coherent leadsAbove child.1 child.2.label.number direction.offset
    have stepped := step_child coherent leadsAbove child.1 child.2.label.number direction
    rw [Except.ok.inj (siblings.symm.trans alone), Option.none_or,
      beside_of_fields navigator ordered, Option.map_bind] at stepped
    exact ⟨_, stepped, rfl, crosses_iff direction ⟨upper, node⟩ field?⟩

/-- Going back from the body of a function leads to its parameter, which has a function of its own. -/
theorem body_crosses_back_to_params :
    ∃ tree parent entry result,
      (Script.language.parse 0 "function f(a = function g() \x7b\x7d) \x7b x; \x7d").value = .ok tree ∧
      tree.Leads parent.path parent.node ∧ entry ∈ parent.node.children ∧ entry.1.field = "body" ∧
      step ⟨tree, .bundled⟩ .backward (parent.toChild entry).path = .ok result ∧
      Crosses .backward parent (some "params") result := by
  obtain ⟨tree, parent, parsed, built, leads, facts⟩ := exists_visit_at
    "function f(a = function g() \x7b\x7d) \x7b x; \x7d" [0]
    (fun _ parent => parent.node.label.kind = "FunctionDeclaration" ∧
      parent.node.children[2]?.map (·.1) = some (.single "body") ∧
      (parent.node.children.takeWhile (·.1.field ≠ "params")).all (·.2.children.isEmpty))
    (by decide +kernel)
  obtain ⟨kind, third, plain⟩ := of_decide_eq_true facts
  obtain ⟨entry, listed, place⟩ := Option.map_eq_some_iff.mp third
  have member := List.mem_of_getElem? listed
  have alone : (parent.toChild entry).path.sibling? tree Direction.backward.offset = .ok none := by
    rw [Visit.toChild, place]
    rfl
  have crossing : Direction.backward.beside? .bundled parent.node.label.kind entry.1.field =
      some "params" := by
    rw [kind, place]
    rfl
  have unshadowed : Unshadowed parent.node "params" := by
    intro other among holds
    obtain ⟨inner, innerMember, -⟩ := SlotTree.holdsField_iff.mp holds
    rw [List.isEmpty_iff.mp (List.all_eq_true.mp plain other among)] at innerMember
    exact absurd innerMember List.not_mem_nil
  obtain ⟨result, stepped, -, crosses⟩ := crossing_lands_iff_unshadowed tree built .bundled .backward
    (parent.toChild entry).path parent.path entry.1 parent.node ["id", "params", "body"]
    (leads.child member).genuine rfl rfl (leads.lookup built.coherent) (by rw [kind]; rfl) alone
  rw [crossing] at crosses
  refine ⟨tree, parent, entry, result, parsed, leads, member, by rw [place]; rfl, stepped, ?_⟩
  exact crosses.mpr fun field same => Option.some.inj same ▸ unshadowed

/-- Going forward from a conditional without an alternative leads to the alternative of one inside it. -/
theorem missing_alternate_crosses_inward :
    ∃ tree parent entry target,
      (Script.language.parse 0 "if (a) if (b) c; else d;").value = .ok tree ∧
      tree.Leads parent.path parent.node ∧ entry ∈ parent.node.children ∧
      FieldOrder.bundled.after? parent.node.label.kind entry.1.field = some "alternate" ∧
      (parent.toChild entry).path.sibling? tree Direction.forward.offset = .ok none ∧
      step ⟨tree, .bundled⟩ .forward (parent.toChild entry).path = .ok (some target) ∧
      target.render = "Path(body[0].consequent.alternate)" ∧
      ¬Crosses .forward parent (some "alternate") (some target) := by
  obtain ⟨tree, parent, parsed, built, leads, facts⟩ := exists_visit_at "if (a) if (b) c; else d;" [0]
    (fun tree parent => parent.node.label.kind = "IfStatement" ∧
      parent.node.children.all (·.1.field ≠ "alternate") ∧
      parent.node.children[1]?.any fun entry => entry.1 = .single "consequent" ∧
        (step ⟨tree, .bundled⟩ .forward (parent.toChild entry).path).toOption.any fun target =>
          target.map (·.render) = some "Path(body[0].consequent.alternate)") (by decide +kernel)
  obtain ⟨kind, without, facts⟩ := of_decide_eq_true facts
  obtain ⟨entry, second, facts⟩ := (Option.any_eq_true _ _).mp facts
  obtain ⟨place, facts⟩ := of_decide_eq_true facts
  cases stepped : step ⟨tree, .bundled⟩ .forward (parent.toChild entry).path with
  | error defect =>
    rw [stepped] at facts
    cases facts
  | ok result =>
    rw [stepped] at facts
    obtain ⟨target, rfl, written⟩ := Option.map_eq_some_iff.mp (of_decide_eq_true facts)
    refine ⟨tree, parent, entry, target, parsed, leads, List.mem_of_getElem? second, ?_, ?_, stepped,
      written, ?_⟩
    · rw [kind, place]
      rfl
    · rw [Visit.toChild, place]
      rfl
    · intro crosses
      obtain ⟨_, ⟨⟩, other, member, here⟩ := crosses.isSome_iff.mp rfl
      exact of_decide_eq_true (List.all_eq_true.mp without other member) here

end Navigator

end SyntaxNav

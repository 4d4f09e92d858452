import SyntaxNav.Proofs.FieldOrder.Entries
import SyntaxNav.Proofs.Navigation.Moves
import SyntaxNav.Proofs.Script.SpanGeometry
import SyntaxNav.Proofs.Tree.Descendants
import SyntaxNav.Proofs.Tree.Forest

/-! # Moves stay in the tree and fit together

From a path of a built tree every move leads to a path of the tree. Going in and out undo one another,
going out as often as the path has steps ends at the root, and going aside stays below the parent. The
last rests on `step_child`, which says of a child where a step from it leads; going forward never leads
back to the same node, since a list, a field order and a look beside the node each name another one.
-/

namespace SyntaxNav

private theorem Slot.shift?_ne {slot other : Slot} {offset : Int} (away : offset ≠ 0)
    (shifted : slot.shift? offset = some other) : other ≠ slot := by
  rintro rfl
  obtain ⟨index, known, moved⟩ := Option.bind_eq_some_iff.mp shifted
  split at moved
  · cases moved
  · rename_i position sum
    obtain ⟨-, moved⟩ := Option.ite_none_right_eq_some.mp moved
    have here := congrArg Slot.index (Option.some.inj moved)
    rw [known, Slot.element, Option.some.injEq] at here
    have total : (index : Int) + offset = position := sum
    omega

namespace Path

/-- The path to the child of a node that sits in a slot. -/
def toSlot? (path : Path) (node : Node) (slot : Slot) : Option Path :=
  (node.childAt? slot).map fun child => path.child slot child.label.number

private theorem exists_of_toSlot? {path target : Path} {node : Node} {slot : Slot}
    (found : path.toSlot? node slot = some target) :
    ∃ child, (slot, child) ∈ node.children ∧ target = path.child slot child.label.number := by
  obtain ⟨child, atSlot, rfl⟩ := Option.map_eq_some_iff.mp found
  obtain ⟨⟨place, entry⟩, listed, rfl⟩ := Option.map_eq_some_iff.mp atSlot
  have here : place = slot := by simpa using List.find?_some listed
  subst here
  exact ⟨entry, List.mem_of_find?_eq_some listed, rfl⟩

@[simp] theorem parent?_child (path : Path) (slot : Slot) (node : NodeId) :
    (path.child slot node).parent? = some path := rfl

@[simp] theorem slot?_child (path : Path) (slot : Slot) (node : NodeId) :
    (path.child slot node).slot? = some slot := rfl

@[simp] theorem node_child (path : Path) (slot : Slot) (node : NodeId) :
    (path.child slot node).node = node := rfl

private theorem isWithin_self (path : Path) : path.isWithin path.node = true := by
  obtain ⟨tree, root, steps⟩ := path
  cases steps <;> simp [isWithin, chain, node, target]

end Path

namespace Visit

private theorem head?_below (visit : Visit) : visit.below.head? = visit.children.head? := by
  rw [below, preorder_eq_flatMap]
  cases visit.children <;> rfl

end Visit

namespace Navigator

variable {navigator : Navigator} {path parentPath : Path} {node parent : Node} {slot : Slot}

section TopLevel

private theorem topLevel_eq (path : Path) : ∃ rest, path.steps = rest ++ (topLevel path).steps ∧
    (topLevel path).steps.length = min path.depth 1 := by
  rw [topLevel_eq_drop]
  refine ⟨path.steps.take (path.steps.length - 1), (List.take_append_drop _ _).symm, ?_⟩
  rw [List.length_drop, Path.depth]
  omega

private theorem topLevel_mem_ancestors (path : Path) : topLevel path ∈ path.ancestors := by
  obtain ⟨rest, whole, -⟩ := topLevel_eq path
  rw [topLevel_eq_drop] at whole ⊢
  rw [Path.mem_ancestors_iff]
  exact ⟨rest, by rw [← whole]⟩

private theorem depth_topLevel (path : Path) : (topLevel path).depth = min path.depth 1 := by
  obtain ⟨-, -, length⟩ := topLevel_eq path
  exact length

/-- Below a path other than the root, all paths have the same top level. -/
theorem topLevel_of_ancestor {inner : Path} (inside : path ∈ inner.ancestors)
    (lower : path.isRoot = false) : topLevel inner = topLevel path := by
  have somewhere : 1 ≤ path.depth := by
    obtain ⟨tree, root, steps⟩ := path
    cases steps with
    | nil => cases lower
    | cons step above => exact Nat.succ_le_succ (Nat.zero_le _)
  have deeper : path.depth ≤ inner.depth := by
    obtain ⟨steps, rfl⟩ := Path.mem_ancestors_iff.mp inside
    simp [Path.depth]
  apply Path.ancestor_unique (topLevel_mem_ancestors inner)
    (Path.mem_ancestors_trans inside (topLevel_mem_ancestors path))
  rw [depth_topLevel, depth_topLevel]
  omega

private theorem topLevel_topLevel (path : Path) : topLevel (topLevel path) = topLevel path := by
  apply Path.ancestor_unique (topLevel_mem_ancestors _) (Path.mem_ancestors_self _)
  rw [depth_topLevel, depth_topLevel]
  omega

end TopLevel

section Climbing

def climb (navigator : Navigator) (span : Span) : Nat → Path → Option Path
  | 0, path => some path
  | times + 1, path => (navigator.expand span (some path)).bind (navigator.climb span times)

private theorem expand_child (leads : navigator.tree.Leads path node) (span : Span) (slot : Slot)
    (child : NodeId) : navigator.expand span (some (path.child slot child)) = some path := by
  have belongs : (path.child slot child).belongsTo navigator.tree = true := leads.belongsTo
  rw [expand, if_pos belongs, Path.parent?_child]

private theorem expand_root (span : Span) : navigator.expand span (some (.ofRoot navigator.tree)) = none := by
  rw [expand, if_pos Tree.Leads.root.belongsTo]
  rfl

private theorem climb_to_root (leads : navigator.tree.Leads path node) (span : Span) (more : Nat) :
    navigator.climb span (path.depth + more) path =
      navigator.climb span more (.ofRoot navigator.tree) := by
  induction leads with
  | root => exact congrArg (navigator.climb span · _) (Nat.zero_add more)
  | @child path parent child leads _ ih =>
    have deeper : (path.child child.1 child.2.label.number).depth + more = path.depth + more + 1 :=
      Nat.add_right_comm _ 1 more
    rw [deeper, climb, expand_child leads, Option.bind_some, ih]

end Climbing

private theorem step_root (direction : Direction) :
    navigator.step direction (.ofRoot navigator.tree) = .ok none := by
  rw [step, if_pos Tree.Leads.root.belongsTo]
  rfl

section Coherent

variable (coherent : navigator.tree.Coherent)

include coherent

private theorem children_eq (leads : navigator.tree.Leads path node) :
    path.children navigator.tree = .ok ((Visit.children ⟨path, node⟩).map (·.path)) :=
  leads.children_eq coherent

/-- Going in leads to the first child. -/
theorem shrink_eq (leads : navigator.tree.Leads path node) :
    navigator.shrink path = .ok ((Visit.children ⟨path, node⟩).map (·.path)).head? := by
  rw [shrink, if_pos leads.belongsTo, ofPath_eq coherent leads, List.head?_map, ← Visit.head?_below]
  rfl

private theorem shrink_eq_none_iff (leads : navigator.tree.Leads path node) :
    navigator.shrink path = .ok none ↔ node.children = [] := by
  rw [shrink_eq coherent leads, Except.ok.injEq, List.head?_eq_none_iff, List.map_eq_nil_iff,
    Visit.children, List.map_eq_nil_iff]

private theorem expand_shrink (leads : navigator.tree.Leads path node) {child : Path}
    (shrunk : navigator.shrink path = .ok (some child)) (span : Span) :
    navigator.expand span (some child) = some path := by
  rw [shrink_eq coherent leads, Except.ok.injEq] at shrunk
  obtain ⟨visit, member, rfl⟩ := List.mem_map.mp (List.mem_of_head? shrunk)
  obtain ⟨entry, -, rfl⟩ := Visit.mem_children.mp member
  exact expand_child leads span _ _

variable (leadsAbove : navigator.tree.Leads parentPath parent)

include leadsAbove

/-- The neighbour of a child is what its parent has in the slot moved by the offset. -/
theorem sibling?_child (slot : Slot) (child : NodeId) (offset : Int) :
    (parentPath.child slot child).sibling? navigator.tree offset =
      .ok ((slot.shift? offset).bind (parentPath.toSlot? parent)) := by
  have found : navigator.tree.lookup (Path.target parentPath.root parentPath.steps) = .ok parent :=
    leadsAbove.lookup coherent
  simp only [Path.sibling?, Path.child, found]
  cases slot.shift? offset <;> rfl

/-- Where a step from a child leads: to its neighbour in the list, or else beside it. -/
theorem step_child (slot : Slot) (child : NodeId) (direction : Direction) :
    navigator.step direction (parentPath.child slot child) =
      .ok (((slot.shift? direction.offset).bind (parentPath.toSlot? parent)).or
        ((navigator.beside direction ⟨parentPath, parent⟩ slot child).map (·.path))) := by
  have belongs : (parentPath.child slot child).belongsTo navigator.tree = true := leadsAbove.belongsTo
  have siblings := sibling?_child coherent leadsAbove slot child direction.offset
  have visited := ofPath_eq coherent leadsAbove
  simp only [step, if_pos belongs, siblings, Path.parent?_child, Path.slot?_child, visited, bind,
    Except.bind]
  cases (slot.shift? direction.offset).bind (parentPath.toSlot? parent) <;> rfl

omit coherent leadsAbove in
/-- What stands beside a child lies below its parent, in another field or not within the child. -/
theorem beside_cases {direction : Direction} {above found : Visit} {child : NodeId}
    (beside : navigator.beside direction above slot child = some found) :
    found ∈ above.below ∧
      ((∃ field, direction.beside? navigator.order above.node.label.kind slot.field = some field ∧
        found.path.slot?.any (·.field = field) = true) ∨ found.path.isWithin child = false) := by
  unfold Navigator.beside at beside
  dsimp only at beside
  split at beside
  · obtain ⟨field, crossing, chosen⟩ := Option.bind_eq_some_iff.mp beside
    have fits := List.find?_some chosen
    exact ⟨direction.mem_below_iff.mp (List.mem_of_find?_eq_some chosen), .inl ⟨field, crossing, fits⟩⟩
  · have fits := List.find?_some beside
    exact ⟨direction.mem_below_iff.mp (List.mem_of_find?_eq_some beside), .inr (by simpa using fits)⟩

/-- A step leads to a place below the parent. -/
theorem step_child_below {direction : Direction} {child : NodeId} {target : Path}
    (stepped : navigator.step direction (parentPath.child slot child) = .ok (some target)) :
    target.Below parentPath := by
  rw [step_child coherent leadsAbove, Except.ok.injEq, Option.or_eq_some_iff] at stepped
  rcases stepped with listed | ⟨-, aside⟩
  · obtain ⟨other, -, found⟩ := Option.bind_eq_some_iff.mp listed
    obtain ⟨sibling, -, rfl⟩ := Path.exists_of_toSlot? found
    exact Path.below_of_child (Path.mem_ancestors_self _)
  · obtain ⟨visit, beside, rfl⟩ := Option.map_eq_some_iff.mp aside
    exact Visit.path_below (beside_cases beside).1

end Coherent

private theorem step_below (coherent : navigator.tree.Coherent) (leads : navigator.tree.Leads path node)
    {direction : Direction} {target : Path}
    (stepped : navigator.step direction path = .ok (some target)) :
    ∃ above, path.parent? = some above ∧ target.Below above := by
  cases leads with
  | root =>
    rw [step_root] at stepped
    cases stepped
  | child leadsAbove _ => exact ⟨_, rfl, step_child_below coherent leadsAbove stepped⟩

/-- A step forward leads to another node. -/
theorem step_forward_ne (built : navigator.tree.Built)
    {entries : List (String × List String)} (made : FieldOrder.ofEntries entries = .ok navigator.order)
    (leads : navigator.tree.Leads path node) {target : Path}
    (stepped : navigator.step .forward path = .ok (some target)) : target.node ≠ path.node := by
  have coherent := built.coherent
  have genuine := leads.genuine
  cases leads with
  | root =>
    rw [step_root] at stepped
    cases stepped
  | @child parentPath parent child leadsAbove member =>
    intro same
    rw [step_child coherent leadsAbove, Except.ok.injEq, Option.or_eq_some_iff] at stepped
    rcases stepped with listed | ⟨-, aside⟩
    · obtain ⟨other, shifted, found⟩ := Option.bind_eq_some_iff.mp listed
      obtain ⟨sibling, siblingMember, rfl⟩ := Path.exists_of_toSlot? found
      -- The children of a node are different nodes, so each sits in one slot only.
      have distinct := built.distinctChildren _ _ (coherent.occurs_found leadsAbove.occurs)
      have equal := List.inj_on_of_nodup_map distinct siblingMember member same
      exact Slot.shift?_ne (by decide) shifted (congrArg Prod.fst equal)
    · obtain ⟨visit, beside, rfl⟩ := Option.map_eq_some_iff.mp aside
      have visitGenuine := (beside_leads leadsAbove beside).genuine
      obtain ⟨-, ⟨field, crossing, here⟩ | outside⟩ := beside_cases beside
      · rw [visitGenuine.eq_of_node built genuine same, Path.slot?_child] at here
        have sameField : child.1.field = field := by simpa using here
        rw [← sameField] at crossing
        exact FieldOrder.after?_ne made crossing
      · rw [Path.node_child] at same
        rw [← same, Path.isWithin_self] at outside
        cases outside

/-- The path that a planned removal makes current is a path of the tree. -/
theorem plan_genuine (coherent : navigator.tree.Coherent) {target : RemovalTarget}
    (genuine : ∀ start, target = .current start → start.Genuine navigator.tree) {removal : Removal}
    {left : Path} (planned : navigator.plan target = .ok (some removal))
    (current : removal.path = some left) : left.Genuine navigator.tree := by
  cases target with
  | current start =>
    obtain ⟨node, leads⟩ := genuine start rfl
    simp only [plan, if_pos leads.belongsTo, leads.lookup coherent, bind, Except.bind, pure,
      Except.pure, Except.ok.injEq] at planned
    obtain ⟨deleted, -, rfl⟩ := Option.map_eq_some_iff.mp planned
    cases current
  | atSpan span =>
    cases located : navigator.locate span with
    | none =>
      simp only [plan, located, Except.ok.injEq] at planned
      cases planned
    | some found =>
      obtain ⟨node, leads⟩ := Tree.locate?_genuine located
      cases above : found.parent? with
      | none =>
        simp only [plan, located, above, Except.ok.injEq] at planned
        cases planned
      | some parentPath =>
        obtain ⟨slot, parent, -, leadsAbove, -⟩ := leads.parent above
        simp only [plan, located, above, leads.lookup coherent, leadsAbove.lookup coherent, bind,
          Except.bind, pure, Except.pure, Except.ok.injEq] at planned
        obtain ⟨deleted, -, planned⟩ := Option.bind_eq_some_iff.mp planned
        obtain ⟨outer, -, planned⟩ := Option.bind_eq_some_iff.mp planned
        cases planned
        cases current
        exact leadsAbove.genuine

/-- Where the moves from a path lead, and how they fit together. -/
structure MovesFit (navigator : Navigator) (path : Path) : Prop where
  /-- Finding a node and going out from the path, or from none, stay in the tree. -/
  located : ∀ span found, navigator.locate span = some found → found.Genuine navigator.tree
  expanded : ∀ span found, navigator.expand span (some path) = some found ∨
    navigator.expand span none = some found → found.Genuine navigator.tree
  /-- Going in, aside, along a list and to the top level succeed and stay in the tree. -/
  shrunk : navigator.Finds (navigator.shrink path)
  stepped : ∀ direction, navigator.Finds (navigator.step direction path)
  listed : ∀ offset, navigator.Finds (path.sibling? navigator.tree offset)
  topped : (topLevel path).Genuine navigator.tree
  /-- A removal is planned, and the path that it leaves is one of the tree. -/
  planned : ∀ target, target = .current path ∨ (∃ span, target = .atSpan span) →
    ∃ plan, navigator.plan target = .ok plan ∧ ∀ removal left, plan = some removal →
      removal.path = some left → left.Genuine navigator.tree
  /-- Going in leads to the first child, if there is one, and going out leads back. -/
  inward : ∃ node children, navigator.tree.lookup path.node = .ok node ∧
    path.children navigator.tree = .ok children ∧ navigator.shrink path = .ok children.head? ∧
    (navigator.shrink path = .ok none ↔ node.children = []) ∧
    ∀ child, navigator.shrink path = .ok (some child) →
      ∀ span, navigator.expand span (some child) = some path
  /-- Going out as often as the path has steps leads to the root, and no further. -/
  outward : ∀ span, navigator.climb span path.depth path = some (.ofRoot navigator.tree) ∧
    navigator.climb span (path.depth + 1) path = none
  /-- Going aside stays below the parent, and going forward leaves the node. -/
  aside : ∀ direction found, navigator.step direction path = .ok (some found) →
    ∃ above, path.parent? = some above ∧ found.Below above
  forward : ∀ found, navigator.step .forward path = .ok (some found) → found.node ≠ path.node
  /-- The top level is the part of the path with at most one step, for all that lies below it. -/
  top : topLevel path ∈ path.ancestors ∧ (topLevel path).depth = min path.depth 1 ∧
    topLevel (topLevel path) = topLevel path
  below_top : path.isRoot = false → ∀ inner : Path, path ∈ inner.ancestors →
    topLevel inner = topLevel path

/-- From a path of a built tree, and with any field order, all moves stay in the tree and fit together. -/
theorem moves_stay_in_the_tree (tree : Tree) (built : tree.Built)
    (entries : List (String × List String)) (order : FieldOrder)
    (made : FieldOrder.ofEntries entries = .ok order) (path : Path) (genuine : path.Genuine tree) :
    MovesFit ⟨tree, order⟩ path := by
  let navigator : Navigator := ⟨tree, order⟩
  have coherent : navigator.tree.Coherent := built.coherent
  obtain ⟨node, leads⟩ := genuine
  constructor
  case located => exact fun span found located => Tree.locate?_genuine located
  case expanded =>
    rintro span found (outer | located)
    · exact expand_genuine (fun start same => Option.some.inj same ▸ leads.genuine) outer
    · exact Tree.locate?_genuine located
  case shrunk => exact shrink_finds coherent leads
  case stepped => exact step_finds coherent leads
  case listed => exact sibling?_finds coherent leads
  case topped => exact topLevel_genuine leads
  case planned =>
    intro target allowed
    have start : ∀ start, target = .current start → start.Genuine navigator.tree := by
      rintro start rfl
      rcases allowed with same | ⟨span, other⟩
      · exact RemovalTarget.current.inj same ▸ leads.genuine
      · cases other
    obtain ⟨plan, answered, -⟩ := plan_removes navigator coherent start
    refine ⟨plan, answered, ?_⟩
    rintro removal left rfl current
    exact plan_genuine coherent start answered current
  case inward =>
    refine ⟨node, _, leads.lookup coherent, children_eq coherent leads, shrink_eq coherent leads,
      shrink_eq_none_iff coherent leads, ?_⟩
    exact fun child shrunk span => expand_shrink coherent leads shrunk span
  case outward =>
    intro span
    refine ⟨climb_to_root leads span 0, ?_⟩
    rw [climb_to_root leads, climb, expand_root, Option.bind_none]
  case aside => exact fun direction found stepped => step_below coherent leads stepped
  case forward => exact fun found stepped => step_forward_ne built made leads stepped
  case top => exact ⟨topLevel_mem_ancestors path, depth_topLevel path, topLevel_topLevel path⟩
  case below_top => exact fun lower inner inside => topLevel_of_ancestor inside lower

/-- A place in the tree of a script that passes a test. -/
theorem exists_visit_at (source : String) (indices : List Nat) (test : Tree → Visit → Bool)
    (passes : (Script.toTree 0 source).toOption.any (fun tree =>
      ((Visit.ofRoot tree).descend? indices).any (test tree)) = true) :
    ∃ tree visit, (Script.language.parse 0 source).value = .ok tree ∧ tree.Built ∧
      tree.Leads visit.path visit.node ∧ test tree visit = true := by
  obtain ⟨tree, accepted, passes⟩ := (Option.any_eq_true _ _).mp passes
  obtain ⟨visit, reached, passes⟩ := (Option.any_eq_true _ _).mp passes
  have parsed : Script.toTree 0 source = .ok tree := by
    cases result : Script.toTree 0 source with
    | error failure =>
      rw [result] at accepted
      cases accepted
    | ok same =>
      rw [result] at accepted
      exact congrArg Except.ok (Option.some.inj accepted)
  exact ⟨tree, visit, parsed, (Script.toTree_spec parsed).2, Tree.leads_of_descend? reached, passes⟩

/-- The moves from the second argument of a call. -/
theorem argument_moves_stay_in_the_tree :
    ∃ tree path, (Script.language.parse 0 "f(a, b)").value = .ok tree ∧ path.Genuine tree ∧
      path.render = "Path(body[0].expression.arguments[1])" ∧ MovesFit ⟨tree, .bundled⟩ path := by
  obtain ⟨tree, visit, parsed, built, leads, written⟩ := exists_visit_at "f(a, b)" [0, 0, 2]
    (fun _ visit => visit.path.render = "Path(body[0].expression.arguments[1])") (by decide +kernel)
  exact ⟨tree, visit.path, parsed, leads.genuine, of_decide_eq_true written,
    moves_stay_in_the_tree tree built _ _ FieldOrder.ofEntries_bundled _ leads.genuine⟩

end Navigator

end SyntaxNav

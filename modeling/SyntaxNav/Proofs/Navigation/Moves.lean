import SyntaxNav.Navigation.Noted
import SyntaxNav.Proofs.Tree.Leading

/-! # Where moves lead

In a coherent tree, a navigator that starts from a path of the tree answers every question, and where
it leads to is a path of the tree again. A planned removal deletes the span of a node of the tree; the
cursor goes to the start of that node or of its parent.
-/

namespace SyntaxNav

/-- All visits below a node, in either direction, lead to their nodes. -/
theorem AllLead.below {tree : Tree} {visit : Visit} (direction : Direction)
    (leads : tree.Leads visit.path visit.node) :
    AllLead tree (direction.below visit) := by
  cases direction with
  | forward => exact preorder (children leads)
  | backward =>
    apply postorder
    simpa only [List.map_map, Function.comp_def, List.map_id'] using children leads

/-- The path to the node at a span is a path of the tree. -/
theorem Tree.locate?_genuine {tree : Tree} {span : Span} {path : Path}
    (found : tree.locate? span = some path) : path.Genuine tree := by
  have allLead : AllLead tree (Visit.including (.ofRoot tree)) :=
    AllLead.preorder (List.forall_mem_singleton.mpr .root)
  rw [locate?_eq] at found
  obtain ⟨visit, chosen, rfl⟩ := Option.map_eq_some_iff.mp found
  rcases Option.or_eq_some_iff.mp chosen with innermost | ⟨-, outermost⟩
  · have member := List.mem_of_mem_filter (List.mem_of_getLast? innermost)
    exact (allLead visit member).genuine
  · exact (allLead visit (List.mem_of_find?_eq_some outermost)).genuine

namespace Navigator

variable {navigator : Navigator} {path : Path} {node : Node}

/-- A move succeeds, and leads to a path of the tree if it leads anywhere. -/
def Finds (navigator : Navigator) (answer : Except Defect (Option Path)) : Prop :=
  ∃ target, answer = .ok target ∧ ∀ path, target = some path → path.Genuine navigator.tree

/-- The top level of a path is the part of it with at most one step. -/
theorem topLevel_eq_drop (path : Path) :
    topLevel path = { path with steps := path.steps.drop (path.steps.length - 1) } := by
  obtain ⟨tree, root, steps⟩ := path
  suffices upward : ∀ steps : List Step,
      (Path.ancestorsOf tree root steps).find? (fun ancestor => ancestor.parent?.all Path.isRoot) =
        some ⟨tree, root, steps.drop (steps.length - 1)⟩ by
    rw [topLevel, Path.ancestors, upward, Option.getD_some]
  intro steps
  induction steps with
  | nil => rfl
  | cons step above ih =>
    cases above with
    | nil => rfl
    | cons next further =>
      have deeper : (⟨tree, root, step :: next :: further⟩ : Path).parent?.all Path.isRoot = false := rfl
      rw [Path.ancestorsOf, List.find?_cons_of_neg (by simp [deeper]), ih]
      rfl

/-- The top level of a path of the tree is a path of the tree. -/
theorem topLevel_genuine {tree : Tree} (leads : tree.Leads path node) :
    (topLevel path).Genuine tree := by
  induction leads with
  | root => exact Tree.Leads.root.genuine
  | @child path parent child leads member ih =>
    obtain ⟨id, root, steps⟩ := path
    cases steps with
    | nil => exact (leads.child member).genuine
    | cons step above =>
      have shorter : topLevel (Path.child ⟨id, root, step :: above⟩ child.1 child.2.label.number)
          = topLevel ⟨id, root, step :: above⟩ := by
        simp [topLevel_eq_drop, Path.child]
      rw [shorter]
      exact ih

/-- Going out leads to a path of the tree. -/
theorem expand_genuine {current : Option Path} {span : Span} {target : Path}
    (start : ∀ path, current = some path → path.Genuine navigator.tree)
    (found : navigator.expand span current = some target) : target.Genuine navigator.tree := by
  cases current with
  | none => exact Tree.locate?_genuine found
  | some path =>
    obtain ⟨node, leads⟩ := start path rfl
    rw [expand, if_pos leads.belongsTo] at found
    obtain ⟨slot, parent, -, leadsAbove, -⟩ := leads.parent found
    exact leadsAbove.genuine

section Coherent

variable (coherent : navigator.tree.Coherent) (leads : navigator.tree.Leads path node)

include coherent leads

/-- A path of the tree can be visited, at the node that it leads to. -/
theorem ofPath_eq : Visit.ofPath navigator.tree path = .ok ⟨path, node⟩ := by
  rw [Visit.ofPath, leads.lookup coherent]
  rfl

/-- Going in succeeds and stays in the tree. -/
theorem shrink_finds : navigator.Finds (navigator.shrink path) := by
  have visited : navigator.shrink path =
      .ok ((Visit.below ⟨path, node⟩).head?.map (·.path)) := by
    rw [shrink, if_pos leads.belongsTo, ofPath_eq coherent leads]
    rfl
  refine ⟨_, visited, ?_⟩
  intro target found
  obtain ⟨visit, first, rfl⟩ := Option.map_eq_some_iff.mp found
  have allLead : AllLead navigator.tree (Visit.below ⟨path, node⟩) :=
    AllLead.preorder (AllLead.children leads)
  exact (allLead visit (List.mem_of_head? first)).genuine

/-- Looking for a neighbour in a list succeeds and stays in the tree. -/
theorem sibling?_finds (offset : Int) : navigator.Finds (path.sibling? navigator.tree offset) := by
  unfold Path.sibling?
  rcases leads.last_step with steps | ⟨slot, above, parent, steps, leadsAbove, -⟩
  · simp only [steps]
    exact ⟨none, rfl, nofun⟩
  · simp only [steps]
    split
    · exact ⟨none, rfl, nofun⟩
    · rename_i moved _
      have found : navigator.tree.lookup (Path.target path.root above) = .ok parent :=
        leadsAbove.lookup coherent
      rw [found]
      refine ⟨_, rfl, ?_⟩
      intro target chosen
      obtain ⟨sibling, atSlot, rfl⟩ := Option.map_eq_some_iff.mp chosen
      obtain ⟨entry, listed, rfl⟩ := Option.map_eq_some_iff.mp atSlot
      have sameSlot : entry.1 = moved := by
        simpa using List.find?_some listed
      rw [← sameSlot]
      exact (leadsAbove.child (List.mem_of_find?_eq_some listed)).genuine

omit coherent leads in
/-- What stands beside a child is a node of the tree. -/
theorem beside_leads {direction : Direction} {parent found : Visit} {slot : Slot} {child : NodeId}
    (leadsParent : navigator.tree.Leads parent.path parent.node)
    (beside : navigator.beside direction parent slot child = some found) :
    navigator.tree.Leads found.path found.node := by
  have allLead := AllLead.below direction leadsParent
  unfold Navigator.beside at beside
  simp only at beside
  split at beside
  · obtain ⟨field, -, chosen⟩ := Option.bind_eq_some_iff.mp beside
    exact allLead found (List.mem_of_find?_eq_some chosen)
  · exact allLead found (List.mem_of_find?_eq_some beside)

/-- Stepping aside succeeds and stays in the tree. -/
theorem step_finds (direction : Direction) : navigator.Finds (navigator.step direction path) := by
  obtain ⟨sibling, answered, genuine⟩ := sibling?_finds coherent leads direction.offset
  simp only [step, if_pos leads.belongsTo, answered, bind, Except.bind]
  cases sibling with
  | some sibling => exact ⟨some sibling, rfl, genuine⟩
  | none =>
    cases above : path.parent? with
    | none => exact ⟨none, rfl, nofun⟩
    | some parentPath =>
      obtain ⟨slot, parent, hasSlot, leadsAbove, -⟩ := leads.parent above
      simp only [hasSlot, ofPath_eq coherent leadsAbove]
      refine ⟨_, rfl, ?_⟩
      intro target found
      obtain ⟨visit, beside, rfl⟩ := Option.map_eq_some_iff.mp found
      exact (beside_leads leadsAbove beside).genuine

end Coherent

/-- A removal deletes a node of a tree. The cursor goes to the start of the node or of its parent. -/
structure Removes (tree : Tree) (removal : Removal) (node outer : Node) : Prop where
  occurs : tree.root.Occurs outer
  around : outer = node ∨ ∃ slot, (slot, node) ∈ outer.children
  deleted : node.label.span = some removal.deleted
  cursor : outer.label.span.map (·.start) = some removal.cursor

/-- Planning succeeds, and what is planned deletes the span of a node of the tree. -/
theorem plan_removes (navigator : Navigator) (coherent : navigator.tree.Coherent)
    {target : RemovalTarget}
    (genuine : ∀ path, target = .current path → path.Genuine navigator.tree) :
    ∃ planned, navigator.plan target = .ok planned ∧
      ∀ removal, planned = some removal → ∃ node outer, Removes navigator.tree removal node outer := by
  cases target with
  | current path =>
    obtain ⟨node, leads⟩ := genuine path rfl
    simp only [plan, if_pos leads.belongsTo, leads.lookup coherent, bind, Except.bind]
    refine ⟨_, rfl, ?_⟩
    intro removal planned
    obtain ⟨deleted, span, rfl⟩ := Option.map_eq_some_iff.mp planned
    exact ⟨node, node, leads.occurs, .inl rfl, span, by rw [span, Option.map_some]⟩
  | atSpan span =>
    cases located : navigator.locate span with
    | none =>
      simp only [plan, located]
      exact ⟨none, rfl, nofun⟩
    | some path =>
      obtain ⟨node, leads⟩ := Tree.locate?_genuine located
      cases above : path.parent? with
      | none =>
        simp only [plan, located, above]
        exact ⟨none, rfl, nofun⟩
      | some parentPath =>
        obtain ⟨slot, parent, -, leadsAbove, member⟩ := leads.parent above
        simp only [plan, located, above, leads.lookup coherent, leadsAbove.lookup coherent, bind,
          Except.bind]
        refine ⟨_, rfl, ?_⟩
        intro removal planned
        obtain ⟨deleted, span, planned⟩ := Option.bind_eq_some_iff.mp planned
        obtain ⟨outer, outerSpan, planned⟩ := Option.bind_eq_some_iff.mp planned
        cases planned
        exact ⟨node, parent, leadsAbove.occurs, .inr ⟨slot, member⟩, span,
          by rw [outerSpan, Option.map_some]⟩

end Navigator

end SyntaxNav

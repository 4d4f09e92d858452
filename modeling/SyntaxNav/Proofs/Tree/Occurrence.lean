import SyntaxNav.Tree.SlotTree

/-! # Trees inside trees

A tree occurs in another if it is that tree or is reached from it by going to children. Changing the
labels of a tree changes nothing else, and takes the trees inside it along.
-/

namespace SyntaxNav.SlotTree

variable {α β : Type}

/-- A tree is another one or lies below it. -/
inductive Occurs (tree : SlotTree α) : SlotTree α → Prop
  | root : Occurs tree tree
  | child {parent : SlotTree α} {child : Slot × SlotTree α} :
      Occurs tree parent → child ∈ parent.children → Occurs tree child.2

/-- What lies in a part of a tree lies in the tree. -/
theorem Occurs.trans {tree middle inner : SlotTree α} (outer : tree.Occurs middle)
    (within : middle.Occurs inner) : tree.Occurs inner := by
  induction within with
  | root => exact outer
  | child _ member ih => exact .child ih member

/-- What occurs in a tree is the tree or occurs in one of its children. -/
theorem occurs_iff {tree inner : SlotTree α} :
    tree.Occurs inner ↔ inner = tree ∨ ∃ child ∈ tree.children, child.2.Occurs inner := by
  constructor
  · intro occurs
    induction occurs with
    | root => exact .inl rfl
    | @child parent child _ member ih =>
      rcases ih with rfl | ⟨top, topMember, below⟩
      · exact .inr ⟨child, member, .root⟩
      · exact .inr ⟨top, topMember, below.child member⟩
  · rintro (rfl | ⟨child, member, below⟩)
    · exact .root
    · exact (Occurs.root.child member).trans below

/-- A property holds of a tree and of every tree below it. -/
def Everywhere (holds : SlotTree α → Prop) (tree : SlotTree α) : Prop :=
  ∀ inner, tree.Occurs inner → holds inner

/-- A property holds everywhere in a tree if it holds at the root and everywhere in the children. -/
theorem everywhere_node {holds : SlotTree α → Prop} {label : α} {children : List (Slot × SlotTree α)}
    (here : holds (node label children))
    (below : ∀ child ∈ children.map (·.2), Everywhere holds child) :
    Everywhere holds (node label children) := by
  intro inner occurs
  rcases occurs_iff.mp occurs with rfl | ⟨child, member, occurs⟩
  · exact here
  · exact below child.2 (List.mem_map_of_mem member) inner occurs

mutual

def relabel (change : α → β) : SlotTree α → SlotTree β
  | node label children => node (change label) (relabelAll change children)

def relabelAll (change : α → β) : List (Slot × SlotTree α) → List (Slot × SlotTree β)
  | [] => []
  | (slot, child) :: rest => (slot, relabel change child) :: relabelAll change rest

end

private theorem relabelAll_eq_map (change : α → β) (children : List (Slot × SlotTree α)) :
    relabelAll change children = children.map fun child => (child.1, child.2.relabel change) := by
  induction children with
  | nil => rfl
  | cons child rest ih => rw [relabelAll, ih, List.map_cons]

theorem relabel_node (change : α → β) (label : α) (children : List (Slot × SlotTree α)) :
    (node label children).relabel change =
      node (change label) (children.map fun child => (child.1, child.2.relabel change)) := by
  rw [relabel, relabelAll_eq_map]

@[simp] theorem label_relabel (change : α → β) (tree : SlotTree α) :
    (tree.relabel change).label = change tree.label := by
  cases tree
  rfl

@[simp] theorem children_relabel (change : α → β) (tree : SlotTree α) :
    (tree.relabel change).children =
      tree.children.map fun child => (child.1, child.2.relabel change) := by
  cases tree
  exact relabelAll_eq_map change _

mutual

/-- Changing labels twice is changing them once. -/
theorem relabel_relabel {γ : Type} (first : α → β) (second : β → γ) :
    (tree : SlotTree α) → (tree.relabel first).relabel second = tree.relabel (second ∘ first)
  | node label children => by
    rw [relabel, relabel, relabel, relabelAll_relabelAll first second children, Function.comp_apply]

private theorem relabelAll_relabelAll {γ : Type} (first : α → β) (second : β → γ) :
    (children : List (Slot × SlotTree α)) →
      relabelAll second (relabelAll first children) = relabelAll (second ∘ first) children
  | [] => rfl
  | (slot, child) :: rest => by
    rw [relabelAll, relabelAll, relabelAll, relabel_relabel first second child,
      relabelAll_relabelAll first second rest]

end

/-- Changing labels keeps what lies in a tree. -/
theorem Occurs.relabel {tree inner : SlotTree α} (change : α → β) (occurs : tree.Occurs inner) :
    (tree.relabel change).Occurs (inner.relabel change) := by
  induction occurs with
  | root => exact .root
  | @child parent child _ member ih =>
    have relabelled : (child.1, child.2.relabel change) ∈ (parent.relabel change).children := by
      rw [children_relabel]
      exact List.mem_map_of_mem member
    exact ih.child relabelled

mutual

/-- The tree and all trees below it, in document order. -/
def subtrees : SlotTree α → List (SlotTree α)
  | node label children => node label children :: subtreesAll children

def subtreesAll : List (Slot × SlotTree α) → List (SlotTree α)
  | [] => []
  | (_, child) :: rest => subtrees child ++ subtreesAll rest

end

private theorem subtreesAll_eq_flatMap (children : List (Slot × SlotTree α)) :
    subtreesAll children = (children.map (·.2)).flatMap subtrees := by
  induction children with
  | nil => rfl
  | cons child rest ih => rw [subtreesAll, ih, List.map_cons, List.flatMap_cons]

theorem subtrees_node (label : α) (children : List (Slot × SlotTree α)) :
    (node label children).subtrees =
      node label children :: (children.map (·.2)).flatMap subtrees := by
  rw [subtrees, subtreesAll_eq_flatMap]

/-- The subtrees of a tree are all that lies in it. -/
theorem mem_subtrees_iff {tree inner : SlotTree α} : inner ∈ tree.subtrees ↔ tree.Occurs inner := by
  induction tree using SlotTree.induct with
  | step label children ih =>
    rw [subtrees_node, List.mem_cons, occurs_iff, children_node, List.flatMap_map, List.mem_flatMap]
    constructor
    · rintro (same | ⟨child, member, below⟩)
      · exact .inl same
      · exact .inr ⟨child, member, (ih child member).mp below⟩
    · rintro (same | ⟨child, member, below⟩)
      · exact .inl same
      · exact .inr ⟨child, member, (ih child member).mpr below⟩

/-- Changing labels keeps the subtrees and their order. -/
theorem subtrees_relabel (change : α → β) (tree : SlotTree α) :
    (tree.relabel change).subtrees = tree.subtrees.map (relabel change) := by
  induction tree using SlotTree.induct with
  | step label children ih =>
    rw [relabel_node, subtrees_node, subtrees_node, List.map_cons, relabel_node, List.map_flatMap,
      List.map_map, List.flatMap_map, List.flatMap_map, List.flatMap_def, List.flatMap_def]
    exact congrArg (fun below => _ :: below.flatten) (List.map_congr_left ih)

end SyntaxNav.SlotTree

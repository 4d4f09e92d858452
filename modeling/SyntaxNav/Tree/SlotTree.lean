import SyntaxNav.Tree.Slot

/-! # Trees with slots

A labelled tree whose children sit in slots. Drafts and finished nodes are such trees with different
labels. `SlotTree.induct` is the induction over a tree and all trees below it.
-/

namespace SyntaxNav

/-- A labelled tree whose children sit in slots. -/
inductive SlotTree (α : Type) where
  | node (label : α) (children : List (Slot × SlotTree α))
deriving Repr

namespace SlotTree

variable {α : Type}

instance [Inhabited α] : Inhabited (SlotTree α) := ⟨node default []⟩

def label : SlotTree α → α
  | node label _ => label

def children : SlotTree α → List (Slot × SlotTree α)
  | node _ children => children

def childAt? (tree : SlotTree α) (slot : Slot) : Option (SlotTree α) :=
  (tree.children.find? (·.1 = slot)).map (·.2)

mutual

def size : SlotTree α → Nat
  | node _ children => 1 + sizes children

def sizes : List (Slot × SlotTree α) → Nat
  | [] => 0
  | (_, child) :: rest => size child + sizes rest

end

@[simp] theorem label_node (label : α) (children : List (Slot × SlotTree α)) :
    (node label children).label = label := rfl

@[simp] theorem children_node (label : α) (children : List (Slot × SlotTree α)) :
    (node label children).children = children := rfl

theorem sizes_eq_foldr (children : List (Slot × SlotTree α)) :
    sizes children = children.foldr (fun child rest => child.2.size + rest) 0 := by
  induction children with
  | nil => rfl
  | cons child rest ih => rw [sizes, ih, List.foldr_cons]

/-- A tree has one node more than its children together. -/
theorem size_eq (tree : SlotTree α) : tree.size = 1 + sizes tree.children := by
  cases tree
  rfl

/-- Induction over a tree: a property that passes from the children to the root holds everywhere. -/
@[elab_as_elim]
theorem induct {motive : SlotTree α → Prop}
    (step : ∀ label children, (∀ child ∈ children, motive child.2) → motive (node label children)) :
    ∀ tree, motive tree
  | node label children => step label children (below children)
where
  below : ∀ children : List (Slot × SlotTree α), ∀ child ∈ children, motive child.2
    | [], _, member => absurd member List.not_mem_nil
    | (_, first) :: rest, child, member =>
      (List.mem_cons.mp member).elim (fun same => same ▸ induct step first)
        (below rest child)

end SlotTree

end SyntaxNav

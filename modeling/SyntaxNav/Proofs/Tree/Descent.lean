import SyntaxNav.Proofs.Tree.Occurrence

/-! # Going down a tree

A descent leads from a tree to a tree inside it, by one link after another from a node to one of its children.
`Within counts room` bounds how many links of a certain sort a descent can have. It is enough to look at the
children: a link that counts takes one from the room that is left for the child.
-/

namespace SyntaxNav

/-- A link from a node to one of its children. -/
structure Link (α : Type) where
  parent : α
  slot : Slot
  child : α
deriving DecidableEq, Repr

variable {α β : Type}

def Link.map (change : α → β) (link : Link α) : Link β :=
  ⟨change link.parent, link.slot, change link.child⟩

namespace SlotTree

/-- The links that lead down from a tree to one inside it. -/
inductive Descends : SlotTree α → List (Link α) → SlotTree α → Prop
  | nil (tree : SlotTree α) : Descends tree [] tree
  | cons {tree inner : SlotTree α} {child : Slot × SlotTree α} {links : List (Link α)} :
      child ∈ tree.children → Descends child.2 links inner →
      Descends tree (⟨tree.label, child.1, child.2.label⟩ :: links) inner

/-- Changing labels changes no descent but the labels along it. -/
theorem Descends.relabel {tree inner : SlotTree α} {links : List (Link α)} (change : α → β)
    (descends : tree.Descends links inner) :
    (tree.relabel change).Descends (links.map (Link.map change)) (inner.relabel change) := by
  induction descends with
  | nil tree => exact .nil _
  | @cons tree inner child links member _ ih =>
    have changed : (child.1, child.2.relabel change) ∈ (tree.relabel change).children := by
      rw [children_relabel]
      exact List.mem_map_of_mem member
    have step := Descends.cons changed ih
    rw [label_relabel, label_relabel] at step
    exact step

/-- A descent in a tree with changed labels is one in the tree. -/
theorem Descends.of_relabel {tree : SlotTree α} {inner : SlotTree β} {links : List (Link β)}
    {change : α → β} (descends : (tree.relabel change).Descends links inner) :
    ∃ original target, tree.Descends original target ∧ original.map (Link.map change) = links := by
  generalize same : tree.relabel change = changed at descends
  induction descends generalizing tree with
  | nil => exact ⟨[], tree, .nil tree, rfl⟩
  | @cons changed inner child links member _ ih =>
    subst same
    rw [children_relabel] at member
    obtain ⟨former, within, rfl⟩ := List.mem_map.mp member
    obtain ⟨original, target, descends, rfl⟩ := ih rfl
    refine ⟨_, target, .cons within descends, ?_⟩
    rw [List.map_cons, Link.map, label_relabel, label_relabel]

variable {counts : Link α → Bool} {room more : Nat} {tree : SlotTree α}

/-- No descent has more than so many links that count. -/
def Within (counts : Link α → Bool) (room : Nat) (tree : SlotTree α) : Prop :=
  ∀ links inner, tree.Descends links inner → links.countP counts ≤ room

/-- A bound on descents may be raised. -/
theorem Within.mono (within : tree.Within counts room) (enough : room ≤ more) :
    tree.Within counts more :=
  fun links inner descends => Nat.le_trans (within links inner descends) enough

/-- The room for a tree is enough if it is for each child, less one if the link to the child counts. -/
theorem within_of_children
    (each : ∀ child ∈ tree.children, child.2.Within counts room ∧
      (counts ⟨tree.label, child.1, child.2.label⟩ = true →
        ∃ less, room = less + 1 ∧ child.2.Within counts less)) :
    tree.Within counts room := by
  intro links inner descends
  cases descends with
  | nil => exact Nat.zero_le room
  | @cons _ _ child links member descends =>
    obtain ⟨within, deeper⟩ := each child member
    by_cases counted : counts ⟨tree.label, child.1, child.2.label⟩ = true
    · obtain ⟨less, rfl, fits⟩ := deeper counted
      rw [List.countP_cons_of_pos counted]
      exact Nat.succ_le_succ (fits links inner descends)
    · rw [List.countP_cons_of_neg counted]
      exact within links inner descends

end SlotTree

end SyntaxNav

import SyntaxNav.Proofs.Navigation.Closure
import SyntaxNav.Proofs.Script.DistinctFields

/-! # Steps along a list

The neighbour of an element is looked up under the slot with its index moved. If no node has two fields of
the same name, a slot names one element of one list, so moving the index by an offset leads to the element
that many places further on, wherever there is one, and the opposite offset leads back. Indices are words of
64 bits, and a sum that is none leads nowhere instead of wrapping around. That changes nothing in a list all
of whose indices are such words, since there is no element at any other number. A neighbour in the list comes
before all else that a step looks for, so steps go along a list from element to element whatever the field
order is.
-/

namespace SyntaxNav

/-- Moving an element leads to the element whose index is the sum, if the sum is an index. -/
theorem Slot.shift?_element_eq_some_iff {name : String} {index : Nat} {offset : Int} {slot : Slot} :
    (Slot.element name index).shift? offset = some slot ↔
      ∃ further : Nat, (further : Int) = index + offset ∧ further < UInt64.size ∧
        slot = .element name further := by
  simp only [shift?, element, Option.bind_some]
  cases sum : (index : Int) + offset with
  | ofNat position =>
    rw [Option.ite_none_right_eq_some, Option.some.injEq]
    constructor
    · rintro ⟨small, rfl⟩
      exact ⟨position, rfl, small, rfl⟩
    · rintro ⟨further, same, small, rfl⟩
      rw [Int.ofNat.inj same] at small ⊢
      exact ⟨small, rfl⟩
  | negSucc position =>
    refine iff_of_false (fun impossible => by cases impossible) ?_
    rintro ⟨further, same, -⟩
    cases same

namespace Path

variable {path parentPath other : Path} {parent : Node} {name : String} {index further : Nat}

/-- The path to the element of a list of a node. -/
def element? (path : Path) (node : Node) (name : String) (index : Nat) : Option Path :=
  (node.elements name)[index]?.map fun child => path.child (.element name index) child.label.number

private theorem isSome_element?_iff :
    (parentPath.element? parent name index).isSome = true ↔ index < (parent.elements name).length := by
  rw [element?, Option.isSome_map, Option.isSome_iff_ne_none, ne_eq, List.getElem?_eq_none_iff,
    Nat.not_le]

/-- A list has the elements that there are paths to. -/
theorem lt_length_of_element? (here : parentPath.element? parent name index = some path) :
    index < (parent.elements name).length :=
  isSome_element?_iff.mp (Option.isSome_of_eq_some here)

/-- There is an element at a number just if the number is an index of the list. -/
theorem exists_element?_iff {place : Int} :
    (∃ other, ∃ further : Nat, (further : Int) = place ∧
      parentPath.element? parent name further = some other) ↔
      0 ≤ place ∧ place < (parent.elements name).length := by
  constructor
  · rintro ⟨other, further, rfl, there⟩
    have inside := lt_length_of_element? there
    omega
  · rintro ⟨above, below⟩
    have inside : place.toNat < (parent.elements name).length := by omega
    obtain ⟨other, there⟩ := Option.isSome_iff_exists.mp (isSome_element?_iff.mpr inside)
    exact ⟨other, place.toNat, Int.toNat_of_nonneg above, there⟩

private theorem toSlot?_element (distinct : parent.DistinctFields) (path : Path) (name : String)
    (index : Nat) :
    path.toSlot? parent (.element name index) = path.element? parent name index := by
  rw [toSlot?, distinct.childAt?_element, element?]

/-- A path at an element of a list is the path to the element of that index. -/
theorem exists_of_element {tree : Tree} (distinct : tree.DistinctFields) (genuine : path.Genuine tree)
    (place : path.slot? = some (.element name index)) :
    ∃ parentPath parent, path.parent? = some parentPath ∧ tree.Leads parentPath parent ∧
      parentPath.element? parent name index = some path := by
  obtain ⟨node, leads⟩ := genuine
  cases leads with
  | root => cases place
  | @child parentPath parent child leadsAbove member =>
    refine ⟨parentPath, parent, rfl, leadsAbove, ?_⟩
    obtain ⟨slot, child⟩ := child
    obtain rfl : slot = .element name index := Option.some.inj place
    have listed := (distinct parent leadsAbove.occurs).mem_children_iff.mp member
    rw [element?, listed, Option.map_some]

variable {tree : Tree} (coherent : tree.Coherent) (leads : tree.Leads parentPath parent)
  (distinct : parent.DistinctFields)

include coherent leads distinct

/-- From an element, an offset leads to the element at the sum of index and offset, if that is a word. -/
theorem sibling?_element (here : parentPath.element? parent name index = some path) (offset : Int) :
    ∃ target, path.sibling? tree offset = .ok target ∧
      ∀ other, target = some other ↔
        ∃ further : Nat, (further : Int) = index + offset ∧ further < UInt64.size ∧
          parentPath.element? parent name further = some other := by
  let navigator : Navigator := ⟨tree, .empty⟩
  have coherent : navigator.tree.Coherent := coherent
  obtain ⟨child, -, rfl⟩ := Option.map_eq_some_iff.mp here
  refine ⟨_, Navigator.sibling?_child coherent leads _ _ offset, fun other => ?_⟩
  rw [Option.bind_eq_some_iff]
  constructor
  · rintro ⟨slot, shifted, found⟩
    obtain ⟨further, sum, small, rfl⟩ := Slot.shift?_element_eq_some_iff.mp shifted
    exact ⟨further, sum, small, toSlot?_element distinct parentPath name further ▸ found⟩
  · rintro ⟨further, sum, small, found⟩
    refine ⟨_, Slot.shift?_element_eq_some_iff.mpr ⟨further, sum, small, rfl⟩, ?_⟩
    rw [toSlot?_element distinct]
    exact found

private theorem sibling?_element_eq (here : parentPath.element? parent name index = some path)
    (there : parentPath.element? parent name further = some other) (small : further < UInt64.size)
    {offset : Int} (sum : (further : Int) = index + offset) :
    path.sibling? tree offset = .ok (some other) := by
  obtain ⟨target, answered, targets⟩ := sibling?_element coherent leads distinct here offset
  rw [answered, (targets other).mpr ⟨further, sum, small, there⟩]

end Path

namespace Navigator

/-- Takes a number of steps in one direction, as long as they lead anywhere. -/
def stepTimes (navigator : Navigator) (direction : Direction) : Nat → Path → Except Defect (Option Path)
  | 0, path => .ok (some path)
  | times + 1, path => do
    match ← navigator.step direction path with
    | some next => navigator.stepTimes direction times next
    | none => return none

variable {navigator : Navigator} {parentPath path other : Path} {parent : Node} {name : String}
  {direction : Direction} {index further : Nat}

/-- A neighbour in the list is where a step leads. -/
theorem step_of_sibling (belongs : path.belongsTo navigator.tree = true)
    (beside : path.sibling? navigator.tree direction.offset = .ok (some other)) :
    navigator.step direction path = .ok (some other) := by
  rw [step, if_pos belongs, beside]
  rfl

/-- Steps in one direction lead from element to element, as far as the list reaches. -/
theorem stepTimes_element (coherent : navigator.tree.Coherent)
    (leads : navigator.tree.Leads parentPath parent) (distinct : parent.DistinctFields)
    (starts : index < UInt64.size) (small : further < UInt64.size) {times : Nat}
    (sum : (further : Int) = index + times * direction.offset)
    (here : parentPath.element? parent name index = some path)
    (there : parentPath.element? parent name further = some other) :
    navigator.stepTimes direction times path = .ok (some other) := by
  induction times generalizing index path with
  | zero =>
    obtain rfl : further = index := by omega
    rw [here] at there
    exact congrArg Except.ok there
  | succ times ih =>
    have inside := Path.lt_length_of_element? here
    have reaches := Path.lt_length_of_element? there
    -- The next element lies between the two ends, so the list has it.
    obtain ⟨position, next, inside, word⟩ : ∃ position : Nat,
        (position : Int) = index + direction.offset ∧
          position < (parent.elements name).length ∧ position < UInt64.size := by
      cases direction with
      | forward =>
        rw [Direction.offset] at sum
        exact ⟨index + 1, rfl, by omega, by omega⟩
      | backward =>
        rw [Direction.offset] at sum
        exact ⟨index - 1, by rw [Direction.offset]; omega, by omega, by omega⟩
    obtain ⟨middle, between⟩ := Option.isSome_iff_exists.mp (Path.isSome_element?_iff.mpr inside)
    have belongs : path.belongsTo navigator.tree = true := by
      obtain ⟨child, -, rfl⟩ := Option.map_eq_some_iff.mp here
      exact leads.belongsTo
    have stepped : navigator.step direction path = .ok (some middle) :=
      step_of_sibling belongs (Path.sibling?_element_eq coherent leads distinct here between word next)
    have onward : (further : Int) = position + times * direction.offset := by
      rw [sum, next, Int.natCast_succ, Int.add_mul, Int.one_mul]
      omega
    simp only [stepTimes, stepped, bind, Except.bind]
    exact ih word onward between

end Navigator

/-- How offsets and steps lead along the lists of a tree. -/
structure ListStepsFit (tree : Tree) : Prop where
  /-- Outside lists no offset leads anywhere. -/
  outside : ∀ path : Path, (∀ name index, path.slot? ≠ some (.element name index)) →
    ∀ offset, path.sibling? tree offset = .ok none
  /-- A path at an index of a list is the path to the element there. -/
  placed : ∀ (path : Path) name index, path.Genuine tree → path.slot? = some (.element name index) →
    ∃ parentPath parent, path.parent? = some parentPath ∧ tree.Leads parentPath parent ∧
      parentPath.element? parent name index = some path
  /-- An offset leads somewhere just if the sum is an index of the list and a word of 64 bits, and then to
  the element of that index. -/
  checked : ∀ parentPath parent name, tree.Leads parentPath parent → ∀ path index (offset : Int),
    parentPath.element? parent name index = some path →
    ∃ target, path.sibling? tree offset = .ok target ∧
      (target.isSome = true ↔ 0 ≤ index + offset ∧ index + offset < (parent.elements name).length ∧
        index + offset < UInt64.size) ∧
      ∀ other, target = some other → parentPath.element? parent name (index + offset).toNat = some other
  /-- In a list all of whose indices are such words, an offset leads somewhere just if the sum is an index of
  the list, and then to the element of that index, from where the opposite offset leads back. -/
  moved : ∀ parentPath parent name, tree.Leads parentPath parent →
    (parent.elements name).length ≤ UInt64.size → ∀ path index (offset : Int),
    parentPath.element? parent name index = some path →
    ∃ target, path.sibling? tree offset = .ok target ∧
      (target.isSome = true ↔ 0 ≤ index + offset ∧ index + offset < (parent.elements name).length) ∧
      ∀ other, target = some other →
        parentPath.element? parent name (index + offset).toNat = some other ∧
          other.sibling? tree (-offset) = .ok (some path)
  /-- With any field order, as many steps as two elements are apart lead from one to the other. -/
  stepped : ∀ (order : FieldOrder) parentPath parent name, tree.Leads parentPath parent →
    ∀ first last path other, first < last → last < UInt64.size →
      parentPath.element? parent name first = some path →
      parentPath.element? parent name last = some other →
      Navigator.stepTimes ⟨tree, order⟩ .forward (last - first) path = .ok (some other) ∧
        Navigator.stepTimes ⟨tree, order⟩ .backward (last - first) other = .ok (some path)

namespace Tree

variable {tree : Tree}

private theorem sibling?_outside {path : Path}
    (outside : ∀ name index, path.slot? ≠ some (.element name index))
    (offset : Int) : path.sibling? tree offset = .ok none := by
  obtain ⟨id, root, steps⟩ := path
  cases steps with
  | nil => rfl
  | cons step above =>
    obtain ⟨⟨field, index⟩, node⟩ := step
    cases index with
    | none => rfl
    | some index => exact absurd rfl (outside field index)

/-- Offsets and steps fit together in a built tree where a slot names one child. -/
theorem listStepsFit (built : tree.Built) (distinct : tree.DistinctFields) : ListStepsFit tree where
  outside _ outside offset := sibling?_outside outside offset
  placed _ _ _ genuine place := Path.exists_of_element distinct genuine place
  checked parentPath parent name leads path index offset here := by
    have fields := distinct parent leads.occurs
    obtain ⟨target, answered, targets⟩ := Path.sibling?_element built.coherent leads fields here offset
    refine ⟨target, answered, ?_, fun other chosen => ?_⟩
    · rw [Option.isSome_iff_exists]
      constructor
      · rintro ⟨other, chosen⟩
        obtain ⟨further, sum, small, there⟩ := (targets other).mp chosen
        have inside := Path.lt_length_of_element? there
        omega
      · rintro ⟨above, below, small⟩
        obtain ⟨other, further, sum, there⟩ := Path.exists_element?_iff.mpr ⟨above, below⟩
        exact ⟨other, (targets other).mpr ⟨further, sum, by omega, there⟩⟩
    · obtain ⟨further, sum, -, there⟩ := (targets other).mp chosen
      have same : (index + offset).toNat = further := by omega
      exact same ▸ there
  moved parentPath parent name leads short path index offset here := by
    have fields := distinct parent leads.occurs
    obtain ⟨target, answered, targets⟩ := Path.sibling?_element built.coherent leads fields here offset
    refine ⟨target, answered, ?_, fun other chosen => ?_⟩
    · rw [Option.isSome_iff_exists, ← Path.exists_element?_iff]
      refine exists_congr fun other => (targets other).trans (exists_congr fun further => ?_)
      -- There is an element at the sum, so the check that the sum is a word passes.
      refine and_congr_right fun _ => and_iff_right_of_imp fun there => ?_
      exact Nat.lt_of_lt_of_le (Path.lt_length_of_element? there) short
    · obtain ⟨further, sum, -, there⟩ := (targets other).mp chosen
      have same : (index + offset).toNat = further := by omega
      have small : index < UInt64.size := Nat.lt_of_lt_of_le (Path.lt_length_of_element? here) short
      exact ⟨same ▸ there,
        Path.sibling?_element_eq built.coherent leads fields there here small (by omega)⟩
  stepped order parentPath parent name leads first last path other apart small here there := by
    let navigator : Navigator := ⟨tree, order⟩
    have coherent : navigator.tree.Coherent := built.coherent
    have fields := distinct parent leads.occurs
    have starts : first < UInt64.size := Nat.lt_trans apart small
    constructor
    · exact Navigator.stepTimes_element coherent leads fields starts small
        (by rw [Direction.offset]; omega) here there
    · exact Navigator.stepTimes_element coherent leads fields small starts
        (by rw [Direction.offset]; omega) there here

/-- In a built tree where no node has two fields of the same name, offsets and steps lead along lists from
element to element and back, exactly as far as the lists and the words of 64 bits reach. The trees that calls
with such fields make are of this sort, and so are all parsed scripts; the elements of a list field are what
the field holds. -/
theorem list_steps_are_exact :
    (∀ tree : Tree, tree.Built → tree.DistinctFields → ListStepsFit tree) ∧
      (∀ (calls : List Builder.Call) (builder : Builder) (id : TreeId) (root : NodeId) (tree : Tree),
        (∀ call ∈ calls, (call.fields.map Field.name).Nodup) → Builder.run calls = .ok builder →
        builder.finish id root = .ok tree → tree.Built ∧ tree.DistinctFields) ∧
      (∀ (id : TreeId) (source : String) (tree : Tree),
        (Script.language.parse id source).value = .ok tree → tree.Built ∧ tree.DistinctFields) ∧
      ∀ (node : Node) (fields : List (Field Node)), (fields.map Field.name).Nodup →
        node.children = Field.spread fields →
        ∀ name children, .list name children ∈ fields → node.elements name = children := by
  refine ⟨fun tree built distinct => listStepsFit built distinct, ?_, ?_, ?_⟩
  · exact fun calls builder id root tree distinct ran finished =>
      Builder.finish_distinctFields ran distinct finished
  · exact fun id source tree parsed =>
      ⟨(Script.toTree_spec parsed).2, Script.toTree_distinctFields parsed⟩
  · exact fun node fields distinct whole name children member =>
      SlotTree.elements_eq distinct whole member

/-- The first and the last of three arguments are two steps apart, and beyond the last there is none, be
the offset ever so large. -/
theorem arguments_step_to_each_other :
    ∃ (tree : Tree) (call : Visit) (first last : Path),
      (Script.language.parse 0 "f(a, b, c)").value = .ok tree ∧ tree.Leads call.path call.node ∧
      (call.node.elements "arguments").length = 3 ∧
      call.path.element? call.node "arguments" 0 = some first ∧
      call.path.element? call.node "arguments" 2 = some last ∧
      Navigator.stepTimes ⟨tree, .bundled⟩ .forward 2 first = .ok (some last) ∧
      Navigator.stepTimes ⟨tree, .bundled⟩ .backward 2 last = .ok (some first) ∧
      last.sibling? tree 9223372036854775807 = .ok none := by
  obtain ⟨tree, call, parsed, built, leads, three⟩ := Navigator.exists_visit_at "f(a, b, c)" [0, 0]
    (fun _ call => (call.node.elements "arguments").length = 3) (by decide +kernel)
  have three := of_decide_eq_true three
  obtain ⟨fits, -, scripts, -⟩ := list_steps_are_exact
  have fits := fits tree built (scripts 0 _ tree parsed).2
  have short : (call.node.elements "arguments").length ≤ UInt64.size := by
    rw [three]
    decide
  have reached (index : Nat) (inside : index < 3) :
      ∃ path, call.path.element? call.node "arguments" index = some path :=
    Option.isSome_iff_exists.mp (Path.isSome_element?_iff.mpr (three ▸ inside))
  obtain ⟨first, here⟩ := reached 0 (by decide)
  obtain ⟨last, there⟩ := reached 2 (by decide)
  obtain ⟨forward, backward⟩ :=
    fits.stepped .bundled _ _ _ leads 0 2 first last (by decide) (by decide) here there
  obtain ⟨target, answered, inside, -⟩ := fits.moved _ _ _ leads short last 2 9223372036854775807 there
  have nowhere : target = none := by
    rw [← Option.not_isSome_iff_eq_none, inside, three]
    decide
  exact ⟨tree, call, first, last, parsed, leads, three, here, there, forward, backward,
    nowhere ▸ answered⟩

end Tree

end SyntaxNav

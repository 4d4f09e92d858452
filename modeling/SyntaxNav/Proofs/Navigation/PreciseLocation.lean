import SyntaxNav.Proofs.Navigation.Closure
import SyntaxNav.Proofs.Navigation.Locating
import SyntaxNav.Proofs.Script.TokenLeaves

/-! # Finding the node under the cursor

In a parsed script, a position on a node that lies on one line leads to that node or to one inside it.
The search takes the last node around the position, and both ends of a span count as around it, so this
rests on how siblings lie: what follows in document order starts no earlier than the node stops. A loop
that lists its test before its body is the one place where a later sibling lies in front; the word
between them keeps the body from touching the test. The key and the value of a shorthand property are
the same name, and there the value is found.
-/

namespace SyntaxNav

/-- Two paths lead to the key and to the value of a shorthand property. -/
def Tree.ShorthandPair (tree : Tree) (key value : Path) : Prop :=
  ∃ path property keyNode valueNode, tree.Leads path property ∧
    property.label.kind = "ObjectProperty" ∧ property.label.text = some "shorthand" ∧
    property.children = [(.single "key", keyNode), (.single "value", valueNode)] ∧
    key = path.child (.single "key") keyNode.label.number ∧
    value = path.child (.single "value") valueNode.label.number

namespace Script

/-- The body of a loop with its test behind it stops before the test starts. -/
def PartsLoop (inner : Draft) : Prop :=
  inner.label.kind = "DoWhileStatement" → ∃ test body left right,
    inner.children = [(.single "test", test), (.single "body", body)] ∧
      body.label.span = some left ∧ test.label.span = some right ∧ left.stop < right.start

variable {tokens : List Token} {drafts : List Draft} {first last : Pos}

private theorem partsLoop_of_kind {kind : String} {span : Option Span} {text : Option String}
    {children : List (Slot × Draft)} (other : kind ≠ "DoWhileStatement") :
    PartsLoop (.node ⟨kind, span, text⟩ children) :=
  fun isLoop => absurd isLoop other

private theorem leaf_partsLoop {kind : String} (isLeaf : kind ∈ leafKinds) (token : Token) :
    (leaf kind token).Everywhere PartsLoop := by
  refine SlotTree.everywhere_node (partsLoop_of_kind ?_) nofun
  rintro rfl
  exact absurd isLeaf (by decide)

private theorem LieBetween.span_of_single {draft : Draft} (lie : LieBetween first [draft] last) :
    ∃ span, draft.label.span = some span ∧ first ≤ span.start ∧ span.stop ≤ last := by
  obtain ⟨spans, spanned, between, -⟩ := lie
  obtain ⟨span, rest, rfl, same, -⟩ := List.map_eq_cons_iff.mp spanned.symm
  obtain ⟨starts, -, stops⟩ := between.enclosed span List.mem_cons_self
  exact ⟨span, same.symm, starts, stops⟩

/-- Where drafts cover tokens, every loop among them parts its body from its test. -/
theorem Covers.partsLoop (covers : Covers tokens drafts)
    (between : SpansBetween first (tokens.map (·.span)) last) :
    ∀ draft ∈ drafts, draft.Everywhere PartsLoop := by
  induction covers generalizing first last with
  | nil => exact List.forall_mem_nil _
  | mark _ _ ih => exact ih between.2.2
  | brackets _ _ _ _ _ ihInner ihRest =>
    rw [List.map_cons, List.map_append, List.map_cons] at between
    obtain ⟨-, -, between⟩ := SpansBetween.cons_iff.mp between
    obtain ⟨middle, inside, between⟩ := SpansBetween.append_iff.mp between
    obtain ⟨-, -, behind⟩ := SpansBetween.cons_iff.mp between
    exact List.forall_mem_append.mpr ⟨ihInner inside, ihRest behind⟩
  | @leaf kind token _ _ makes _ ih =>
    exact List.forall_mem_cons.mpr
      ⟨leaf_partsLoop (TokenKind.makes_leaf makes) token, ih between.2.2⟩
  | @branch kind text fields _ _ _ _ _ orderly _ _ _ _ ihInner ihRest =>
    rw [List.map_append] at between
    obtain ⟨middle, inside, behind⟩ := SpansBetween.append_iff.mp between
    have regular : kind ≠ "DoWhileStatement" := by
      rintro rfl
      simp [isOrderly] at orderly
    refine List.forall_mem_cons.mpr ⟨SlotTree.everywhere_node (partsLoop_of_kind regular) ?_, ihRest behind⟩
    rw [Field.map_snd_spread]
    exact ihInner inside
  | @loop test body _ _ _ _ _ _ _ _ _ overBody _ overTest _ ihFront ihBack ihRest =>
    rw [List.map_append, List.map_append, List.map_cons] at between
    obtain ⟨middle, inside, behind⟩ := SpansBetween.append_iff.mp between
    obtain ⟨turning, front, inside⟩ := SpansBetween.append_iff.mp inside
    obtain ⟨turns, turned, back⟩ := SpansBetween.cons_iff.mp inside
    obtain ⟨left, bodySpan, -, bodyStops⟩ := (overBody.lieBetween front).span_of_single
    obtain ⟨right, testSpan, testStarts, -⟩ := (overTest.lieBetween back).span_of_single
    have parted : left.stop < right.start :=
      lt_of_le_of_lt (le_trans bodyStops turns) (lt_of_lt_of_le turned testStarts)
    refine List.forall_mem_cons.mpr ⟨SlotTree.everywhere_node ?_ ?_, ihRest behind⟩
    · exact fun _ => ⟨test, body, left, right, rfl, bodySpan, testSpan, parted⟩
    · exact List.forall_mem_cons.mpr ⟨ihBack back test List.mem_cons_self, ihFront front⟩
  | shorthand _ _ _ ih =>
    refine List.forall_mem_cons.mpr ⟨SlotTree.everywhere_node (partsLoop_of_kind (by decide)) ?_,
      ih between.2.2⟩
    have isLeaf (token : Token) : (Script.leaf "Identifier" token).Everywhere PartsLoop :=
      leaf_partsLoop (by decide) token
    exact List.forall_mem_cons.mpr ⟨isLeaf _, List.forall_mem_singleton.mpr (isLeaf _)⟩

private theorem parse_partsLoop {source : String} {draft : Draft} (parsed : parse source = .ok draft) :
    draft.Everywhere PartsLoop := by
  obtain ⟨tokens, body, scans, covers, rfl⟩ := parse_covers parsed
  refine SlotTree.everywhere_node (partsLoop_of_kind (by decide)) ?_
  rw [Field.map_snd_spread]
  simpa using covers.partsLoop scans.spansBetween

section Places

variable {α : Type} {items : List α} {index further : Nat} {one two : α}

/-- The two places of a list of two. -/
private theorem eq_of_pair {first second : α} (whole : items = [first, second]) (earlier : index < further)
    (here : items[index]? = some one) (there : items[further]? = some two) :
    one = first ∧ two = second := by
  subst whole
  have inside : further < 2 := (List.getElem?_eq_some_iff.mp there).1
  obtain rfl : further = 1 := by omega
  obtain rfl : index = 0 := by omega
  exact ⟨(Option.some.inj here).symm, (Option.some.inj there).symm⟩

private theorem rel_of_pairwise {related : α → α → Prop} (pairs : items.Pairwise related)
    (earlier : index < further) (here : items[index]? = some one) (there : items[further]? = some two) :
    related one two := by
  obtain ⟨inside, rfl⟩ := List.getElem?_eq_some_iff.mp here
  obtain ⟨insideToo, rfl⟩ := List.getElem?_eq_some_iff.mp there
  exact List.pairwise_iff_getElem.mp pairs index further inside insideToo earlier

end Places

private theorem childless_of_leaf {node : Node} {kind : String} {token : Token}
    (isLeaf : node.relabel Numbered.toLabel = leaf kind token) : node.children = [] := by
  have children := congrArg SlotTree.children isLeaf
  rw [SlotTree.children_relabel] at children
  exact List.map_eq_nil_iff.mp children

section Trees

variable {id : TreeId} {source : String} {tree : Tree} {node inner : Node}
  (parsed : toTree id source = .ok tree)

include parsed

/-- The test and the body of a loop that lists its test first, which its body stops before. -/
theorem toTree_loop (occurs : tree.root.Occurs node) (isLoop : node.label.kind = "DoWhileStatement") :
    ∃ test body left right, node.children = [(.single "test", test), (.single "body", body)] ∧
      body.label.span = some left ∧ test.label.span = some right ∧ left.stop < right.start := by
  have parts := parse_partsLoop (toTree_spec parsed).1 _ (occurs.relabel Numbered.toLabel)
  rw [PartsLoop, SlotTree.label_relabel, SlotTree.children_relabel] at parts
  obtain ⟨test, body, left, right, children, bodySpan, testSpan, parted⟩ := parts isLoop
  obtain ⟨⟨testSlot, testNode⟩, others, whole, testIs, rest⟩ := List.map_eq_cons_iff.mp children
  obtain ⟨⟨bodySlot, bodyNode⟩, none, rfl, bodyIs, empty⟩ := List.map_eq_cons_iff.mp rest
  obtain ⟨rfl, rfl⟩ := Prod.mk.inj testIs
  obtain ⟨rfl, rfl⟩ := Prod.mk.inj bodyIs
  obtain rfl := List.map_eq_nil_iff.mp empty
  rw [SlotTree.label_relabel] at bodySpan testSpan
  exact ⟨testNode, bodyNode, left, right, whole, bodySpan, testSpan, parted⟩

/-- What lies inside a node lies within its span. -/
theorem toTree_within (occurs : tree.root.Occurs node) (inside : node.Occurs inner) {whole part : Span}
    (outer : node.label.span = some whole) (spanned : inner.label.span = some part) :
    whole.start ≤ part.start ∧ part.stop ≤ whole.stop := by
  induction inside generalizing part with
  | root =>
    cases outer.symm.trans spanned
    exact ⟨le_refl _, le_refl _⟩
  | @child parent child inside member ih =>
    have nest := toTree_spansNest parsed (occurs.trans inside)
    obtain ⟨around, own, aroundSpan, ownSpan, starts, -, stops⟩ :=
      nest.encloses (child.1, child.2.label.toLabel) (List.mem_map_of_mem member)
    cases ownSpan.symm.trans spanned
    obtain ⟨startsAbove, stopsAbove⟩ := ih aroundSpan
    exact ⟨le_trans startsAbove starts, le_trans stops stopsAbove⟩

/-- What lies inside a child stops before what lies inside a later child starts, or starts after it
stops, unless the two children are the key and the value of a shorthand property. -/
theorem toTree_siblings {parent : Node} {first second : Slot × Node} {index further : Nat}
    {span other : Span} (occurs : tree.root.Occurs parent) (earlier : index < further)
    (here : parent.children[index]? = some first) (there : parent.children[further]? = some second)
    (inFirst : first.2.Occurs node) (inSecond : second.2.Occurs inner)
    (spanned : node.label.span = some span) (otherSpanned : inner.label.span = some other) :
    span.stop ≤ other.start ∨ other.stop < span.start ∨
      parent.label.kind = "ObjectProperty" ∧ parent.label.text = some "shorthand" := by
  have occursFirst : tree.root.Occurs first.2 := occurs.child (List.mem_of_getElem? here)
  have occursSecond : tree.root.Occurs second.2 := occurs.child (List.mem_of_getElem? there)
  by_cases isLoop : parent.label.kind = "DoWhileStatement"
  · obtain ⟨test, body, left, right, whole, bodySpan, testSpan, parted⟩ := toTree_loop parsed occurs isLoop
    obtain ⟨rfl, rfl⟩ := eq_of_pair whole earlier here there
    have starts := (toTree_within parsed occursFirst inFirst testSpan spanned).1
    have stops := (toTree_within parsed occursSecond inSecond bodySpan otherSpanned).2
    exact .inr (.inl (lt_of_le_of_lt stops (lt_of_lt_of_le parted starts)))
  · by_cases isShort : parent.label.kind = "ObjectProperty" ∧ parent.label.text = some "shorthand"
    · exact .inr (.inr isShort)
    · have arranges := (toTree_spansNest parsed occurs).arranges
      rw [Label.Arranges, if_neg isLoop, if_neg isShort, List.pairwise_map] at arranges
      obtain ⟨left, right, leftSpan, rightSpan, apart⟩ := rel_of_pairwise arranges earlier here there
      have stops := (toTree_within parsed occursFirst inFirst leftSpan spanned).2
      have starts := (toTree_within parsed occursSecond inSecond rightSpan otherSpanned).1
      exact .inl (le_trans stops (le_trans apart starts))

variable {path found : Path} {span : Span} {column : Nat}

/-- What is around a position on a node and follows the node in document order lies inside it, unless the
two are the key and the value of a shorthand property. -/
theorem inside_or_shorthand_of_precedes {foundNode : Node} (leads : tree.Leads path node)
    (foundLeads : tree.Leads found foundNode) (spanned : node.label.span = some span)
    (oneLine : span.start.line = span.stop.line) (starts : span.start.column ≤ column)
    (stops : column < span.stop.column)
    (around : tree.ExactMatch (.point ⟨span.start.line, column⟩) found)
    (order : path.Precedes tree found) :
    (∃ indices, Visit.descend? ⟨path, node⟩ indices = some ⟨found, foundNode⟩) ∨
      tree.ShorthandPair path found := by
  have built := (toTree_spec parsed).2
  obtain ⟨again, own, againLeads, foundSpanned, line, lastLine, startsBefore, stopsBehind⟩ := around
  obtain rfl : again = foundNode := againLeads.node_unique foundLeads built
  simp only [Span.point] at line lastLine startsBefore stopsBehind
  rcases order.parting leads foundLeads built with inside |
    ⟨parent, first, second, index, further, rest, others, parentLeads, earlier, here, there, reached,
      foundReached⟩
  · exact .inl inside
  rw [Visit.children, List.getElem?_map] at here there
  obtain ⟨⟨slot, child⟩, listed, rfl⟩ := Option.map_eq_some_iff.mp here
  obtain ⟨⟨otherSlot, other⟩, listedLater, rfl⟩ := Option.map_eq_some_iff.mp there
  rcases toTree_siblings parsed parentLeads.occurs earlier listed listedLater
    (Visit.within_of_descend? reached).2 (Visit.within_of_descend? foundReached).2 spanned foundSpanned
    with behind | before | ⟨isProperty, isShort⟩
  · rw [Pos.le_def] at behind
    omega
  · rw [Pos.lt_def] at before
    omega
  · obtain ⟨name, -, -, key, value, whole, keyLeaf, valueLeaf⟩ :=
      toTree_shorthand_name parsed parentLeads.occurs isProperty isShort
    obtain ⟨isKey, isValue⟩ := eq_of_pair whole earlier listed listedLater
    obtain ⟨rfl, rfl⟩ := Prod.mk.inj isKey
    obtain ⟨rfl, rfl⟩ := Prod.mk.inj isValue
    have keyReached := Visit.eq_of_descend?_leaf (childless_of_leaf keyLeaf) reached
    have valueReached := Visit.eq_of_descend?_leaf (childless_of_leaf valueLeaf) foundReached
    exact .inr ⟨parent.path, parent.node, child, other, parentLeads, isProperty, isShort, whole,
      congrArg Visit.path keyReached, congrArg Visit.path valueReached⟩

/-- The value of a shorthand property says of itself what the key says, and nothing lies below it. -/
theorem shorthandPair_value {value : Path} (leads : tree.Leads path node)
    (pair : tree.ShorthandPair path value) :
    ∃ valueNode, tree.Leads value valueNode ∧ valueNode.children = [] ∧
      valueNode.label.kind = "Identifier" ∧ valueNode.label.toLabel = node.label.toLabel := by
  obtain ⟨above, property, keyNode, valueNode, aboveLeads, isProperty, isShort, whole, rfl, rfl⟩ := pair
  obtain ⟨name, -, -, key, value, children, keyLeaf, valueLeaf⟩ :=
    toTree_shorthand_name parsed aboveLeads.occurs isProperty isShort
  rw [whole, List.cons.injEq, List.cons.injEq] at children
  obtain ⟨isKey, isValue, -⟩ := children
  obtain ⟨-, rfl⟩ := Prod.mk.inj isKey
  obtain ⟨-, rfl⟩ := Prod.mk.inj isValue
  have keyMember : (Slot.single "key", keyNode) ∈ property.children := by simp [whole]
  have valueMember : (Slot.single "value", valueNode) ∈ property.children := by simp [whole]
  have same : node = keyNode := leads.node_unique (aboveLeads.child keyMember) (toTree_spec parsed).2
  have keyLabel := congrArg SlotTree.label keyLeaf
  have valueLabel := congrArg SlotTree.label valueLeaf
  rw [SlotTree.label_relabel] at keyLabel valueLabel
  refine ⟨valueNode, aboveLeads.child valueMember, childless_of_leaf valueLeaf, ?_, ?_⟩
  · exact congrArg Label.kind valueLabel
  · rw [same, keyLabel, valueLabel]

end Trees

/-- At every position on a node of a parsed script that lies on one line, that node or one inside it is
found. Only at the key of a shorthand property its value is found, which is the same name. -/
theorem position_on_node_finds_it {id : TreeId} {source : String} {tree : Tree} {path : Path}
    {node : Node} {span : Span} {column : Nat} (parsed : (language.parse id source).value = .ok tree)
    (leads : tree.Leads path node) (spanned : node.label.span = some span)
    (oneLine : span.start.line = span.stop.line) (starts : span.start.column ≤ column)
    (stops : column < span.stop.column) :
    ∃ found foundNode, tree.locate? (.point ⟨span.start.line, column⟩) = some found ∧
      tree.Leads found foundNode ∧
      ((¬ ∃ value, tree.ShorthandPair path value) → path ∈ found.ancestors) ∧
      ((∃ value, tree.ShorthandPair path value) → tree.ShorthandPair path found ∧
        foundNode.label.kind = "Identifier" ∧ foundNode.label.span = some span ∧
        foundNode.label.text = node.label.text) := by
  have built := (toTree_spec parsed).2
  have around {path : Path} {node : Node} (leads : tree.Leads path node)
      (spanned : node.label.span = some span) :
      tree.ExactMatch (.point ⟨span.start.line, column⟩) path :=
    ⟨node, span, leads, spanned, rfl, oneLine.symm, starts, Nat.le_of_lt stops⟩
  obtain ⟨found, located, foundAround, last⟩ := Tree.locate?_of_exactMatch built (around leads spanned)
  obtain ⟨foundNode, foundLeads⟩ := foundAround.lineMatch.genuine
  -- What is found is the node itself or comes later, for the node is around the position too.
  have inside {path : Path} {node : Node} (leads : tree.Leads path node)
      (spanned : node.label.span = some span) :
      (∃ indices, Visit.descend? ⟨path, node⟩ indices = some ⟨found, foundNode⟩) ∨
        tree.ShorthandPair path found := by
    by_cases same : path = found
    · subst same
      obtain rfl : node = foundNode := leads.node_unique foundLeads built
      exact .inl ⟨[], rfl⟩
    · exact inside_or_shorthand_of_precedes parsed leads foundLeads spanned oneLine starts stops
        foundAround (last path (around leads spanned) same)
  refine ⟨found, foundNode, located, foundLeads, ?_, ?_⟩
  · intro noKey
    obtain ⟨indices, reached⟩ := (inside leads spanned).resolve_right fun pair => noKey ⟨found, pair⟩
    exact (Visit.within_of_descend? reached).1
  · rintro ⟨value, pair⟩
    obtain ⟨valueNode, valueLeads, childless, isName, sameLabel⟩ := shorthandPair_value parsed leads pair
    have valueSpan : valueNode.label.span = some span := (congrArg Label.span sameLabel).trans spanned
    rcases inside valueLeads valueSpan with ⟨indices, reached⟩ | otherPair
    · cases Visit.eq_of_descend?_leaf childless reached
      exact ⟨pair, isName, valueSpan, congrArg Label.text sameLabel⟩
    · -- A value is not the key of another property.
      obtain ⟨_, _, _, _, _, _, _, _, _, isValue⟩ := pair
      obtain ⟨_, _, _, _, _, _, _, _, isKey, _⟩ := otherPair
      have slots := congrArg Path.slot? (isValue.symm.trans isKey)
      exact absurd slots (by simp [Path.child, Path.slot?, Slot.single])

/-- The test of a loop is found where it starts, though the body is listed behind it. -/
theorem position_on_test_finds_test :
    ∃ tree path found, (language.parse 0 "do \x7b\x7dwhile(\x7ba\x7d)").value = .ok tree ∧
      path.Genuine tree ∧ path.render = "Path(body[0].test)" ∧
      tree.locate? (.point ⟨1, 11⟩) = some found ∧ path ∈ found.ancestors := by
  obtain ⟨tree, visit, parsed, -, leads, seen⟩ := Navigator.exists_visit_at
    "do \x7b\x7dwhile(\x7ba\x7d)" [0, 0] (fun _ visit =>
      visit.path.render = "Path(body[0].test)" && visit.path.slot? = some (.single "test") &&
        visit.node.label.span = some ⟨⟨1, 11⟩, ⟨1, 14⟩⟩) (by decide +kernel)
  simp only [Bool.and_eq_true, decide_eq_true_eq] at seen
  obtain ⟨⟨written, slot⟩, spanned⟩ := seen
  have noKey : ¬ ∃ value, tree.ShorthandPair visit.path value := by
    rintro ⟨value, _, _, _, _, _, _, _, _, isKey, _⟩
    rw [isKey, Path.slot?_child] at slot
    exact absurd slot (by decide)
  obtain ⟨found, foundNode, located, -, inside, -⟩ :=
    position_on_node_finds_it parsed leads spanned rfl (Nat.le_refl 11) (by decide)
  exact ⟨tree, visit.path, found, parsed, leads.genuine, written, located, inside noKey⟩

end Script

end SyntaxNav

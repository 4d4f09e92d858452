import SyntaxNav.Proofs.Script.Scanning
import SyntaxNav.Proofs.Script.StatementCoverage
import SyntaxNav.Proofs.Tree.Building
import SyntaxNav.Proofs.Script.Making

/-! # Where the nodes of a script lie

Every node of a parsed script has a span. The spans of its children are not empty, lie within its own
and follow one another, with two exceptions: a loop with its test behind its body lists the test
first, and the key and the value of a shorthand property are the same name.

The tokens of a source lie one after another, so the drafts that cover them do as well
(`Covers.lieBetween`). The spans of a tree are those of its draft.
-/

namespace SyntaxNav

namespace Label

/-- One node ends before another one starts. -/
def Precedes (first second : Label) : Prop :=
  ∃ left right, first.span = some left ∧ second.span = some right ∧ left.stop ≤ right.start

/-- The span of a node is not empty and lies within that of another. -/
def Encloses (outer inner : Label) : Prop :=
  ∃ whole part, outer.span = some whole ∧ inner.span = some part ∧
    whole.start ≤ part.start ∧ part.start < part.stop ∧ part.stop ≤ whole.stop

/-- How the children of a node follow one another. -/
def Arranges (parent : Label) (children : List (Slot × Label)) : Prop :=
  if parent.kind = "DoWhileStatement" then
    ∃ test body, children = [(.single "test", test), (.single "body", body)] ∧ body.Precedes test
  else if parent.kind = "ObjectProperty" ∧ parent.text = some "shorthand" then
    ∃ key value, children = [(.single "key", key), (.single "value", value)] ∧ key.span = value.span
  else
    children.Pairwise fun first second => first.2.Precedes second.2

end Label

/-- A node lies around its children, which lie where they should among each other. -/
structure SpansNest (parent : Label) (children : List (Slot × Label)) : Prop where
  spanned : parent.span.isSome
  encloses : ∀ child ∈ children, parent.Encloses child.2
  arranges : parent.Arranges children

/-- A draft and all drafts below it lie around their children. -/
def Draft.LaidOut : Draft → Prop :=
  SlotTree.Everywhere fun inner =>
    SpansNest inner.label (inner.children.map fun child => (child.1, child.2.label))

/-- The spans of a draft and of all drafts below it start and stop where a property holds. -/
def Draft.EndsWhere (holds : Pos → Prop) : Draft → Prop :=
  SlotTree.Everywhere fun inner =>
    ∀ span, inner.label.span = some span → holds span.start ∧ holds span.stop

section Layout

variable {parent : Label} {whole : Span} {labels : List Label} {spans : List Span}

private theorem encloses_of_between (outer : parent.span = some whole)
    (spanned : labels.map (·.span) = spans.map some)
    (between : SpansBetween whole.start spans whole.stop) :
    ∀ inner ∈ labels, parent.Encloses inner := by
  intro inner member
  have listed : inner.span ∈ spans.map some := spanned ▸ List.mem_map_of_mem member
  obtain ⟨part, inSpans, same⟩ := List.mem_map.mp listed
  obtain ⟨starts, nonempty, stops⟩ := between.enclosed part inSpans
  exact ⟨whole, part, outer, same.symm, starts, nonempty, stops⟩

private theorem precedes_of_between {first last : Pos} (spanned : labels.map (·.span) = spans.map some)
    (between : SpansBetween first spans last) : labels.Pairwise Label.Precedes := by
  let follows (left right : Option Span) : Prop :=
    ∃ before behind, left = some before ∧ right = some behind ∧ before.stop ≤ behind.start
  have ordered : (spans.map some).Pairwise follows :=
    List.pairwise_map.mpr (between.pairwise.imp fun order => ⟨_, _, rfl, rfl, order⟩)
  rw [← spanned, List.pairwise_map] at ordered
  exact ordered

/-- A node whose children follow one another inside it lies around them, unless it is of the two kinds
whose children do not follow one another. -/
theorem spansNest_of_between {children : List (Slot × Draft)} (outer : parent.span = some whole)
    (regular : parent.kind ≠ "DoWhileStatement")
    (longhand : ¬(parent.kind = "ObjectProperty" ∧ parent.text = some "shorthand"))
    (spanned : (children.map (·.2)).map (·.label.span) = spans.map some)
    (between : SpansBetween whole.start spans whole.stop) :
    SpansNest parent (children.map fun child => (child.1, child.2.label)) := by
  have labelled : (children.map (·.2.label)).map (·.span) = spans.map some := by
    rw [← spanned]
    simp only [List.map_map, Function.comp_def]
  refine ⟨by rw [outer]; rfl, ?_, ?_⟩
  · intro child listed
    obtain ⟨child, member, rfl⟩ := List.mem_map.mp listed
    exact encloses_of_between outer labelled between _ (List.mem_map_of_mem member)
  · rw [Label.Arranges, if_neg regular, if_neg longhand]
    exact List.pairwise_map.mpr (List.pairwise_map.mp (precedes_of_between labelled between))

/-- A loop with its test behind its body lies around both. -/
theorem spansNest_loop {test body : Label} (spanned : [body, test].map (·.span) = spans.map some)
    (between : SpansBetween whole.start spans whole.stop) :
    SpansNest ⟨"DoWhileStatement", some whole, none⟩
      [(.single "test", test), (.single "body", body)] := by
  have encloses : ∀ inner ∈ [body, test], Label.Encloses ⟨"DoWhileStatement", some whole, none⟩ inner :=
    encloses_of_between rfl spanned between
  have ordered := precedes_of_between spanned between
  refine ⟨rfl, ?_, ?_⟩
  · simp only [List.forall_mem_cons, List.not_mem_nil, false_implies, implies_true, and_true]
    exact ⟨encloses test (by simp), encloses body (by simp)⟩
  · exact ⟨test, body, rfl, List.rel_of_pairwise_cons ordered List.mem_cons_self⟩

end Layout

namespace Script

variable {tokens : List Token} {drafts : List Draft} {first last : Pos}

private theorem leaf_laidOut {kind : String} (isLeaf : kind ∈ leafKinds) (token : Token) :
    (leaf kind token).LaidOut := by
  refine SlotTree.everywhere_node ⟨rfl, nofun, ?_⟩ nofun
  rw [Label.Arranges, if_neg, if_neg]
  · exact .nil
  · rintro ⟨rfl, -⟩
    exact absurd isLeaf (by decide)
  · rintro rfl
    exact absurd isLeaf (by decide)

/-- The key and the value of a shorthand property are the name that the property is. -/
theorem shorthand_laidOut {token : Token} (nonempty : token.span.start < token.span.stop) :
    Draft.LaidOut (.branch ⟨"ObjectProperty", some token.span, some "shorthand"⟩
      [.single "key" (leaf "Identifier" token), .single "value" (leaf "Identifier" token)]) := by
  have encloses : Label.Encloses ⟨"ObjectProperty", some token.span, some "shorthand"⟩
      (leaf "Identifier" token).label :=
    ⟨token.span, token.span, rfl, rfl, le_refl _, nonempty, le_refl _⟩
  have isLeaf : (leaf "Identifier" token).LaidOut := leaf_laidOut (by decide) token
  refine SlotTree.everywhere_node ⟨rfl, ?_, ?_⟩ ?_
  · exact List.forall_mem_cons.mpr ⟨encloses, List.forall_mem_cons.mpr ⟨encloses, nofun⟩⟩
  · exact ⟨_, _, rfl, rfl⟩
  · exact List.forall_mem_cons.mpr ⟨isLeaf, List.forall_mem_cons.mpr ⟨isLeaf, nofun⟩⟩

/-- Tokens make leaves of known kinds only. -/
theorem TokenKind.makes_leaf {token : TokenKind} {kind : String} (makes : token.makes kind = true) :
    kind ∈ leafKinds := by
  cases token <;> simp_all [TokenKind.makes, leafKinds]
  tauto

/-- Where a branch over the front of a run of tokens lies. -/
theorem between_branch {inner tokens : List Token} {front back : Token}
    (head : inner.head? = some front) (final : inner.getLast? = some back)
    (between : SpansBetween first ((inner ++ tokens).map (·.span)) last) :
    SpansBetween front.span.start (inner.map (·.span)) back.span.stop ∧
      first ≤ front.span.start ∧ front.span.start < back.span.stop ∧
      SpansBetween back.span.stop (tokens.map (·.span)) last := by
  rw [List.map_append] at between
  obtain ⟨middle, inside, behind⟩ := SpansBetween.append_iff.mp between
  have headSpan : (inner.map (·.span)).head? = some front.span := by
    rw [List.head?_map, head, Option.map_some]
  have finalSpan : (inner.map (·.span)).getLast? = some back.span := by
    rw [List.getLast?_map, final, Option.map_some]
  obtain ⟨tight, starts, nonempty, stops⟩ := inside.tighten headSpan finalSpan
  exact ⟨tight, starts, nonempty, behind.start_le stops⟩

/-- Drafts lie one after another between two positions and are laid out well. -/
def LieBetween (first : Pos) (drafts : List Draft) (last : Pos) : Prop :=
  ∃ spans, drafts.map (·.label.span) = spans.map some ∧ SpansBetween first spans last ∧
    ∀ draft ∈ drafts, draft.LaidOut

namespace LieBetween

private theorem start_le {earlier : Pos} (lie : LieBetween first drafts last) (before : earlier ≤ first) :
    LieBetween earlier drafts last := by
  obtain ⟨spans, spanned, between, laidOut⟩ := lie
  exact ⟨spans, spanned, between.start_le before, laidOut⟩

private theorem cons {draft : Draft} {span : Span} (spanned : draft.label.span = some span)
    (before : first ≤ span.start) (nonempty : span.start < span.stop) (laidOut : draft.LaidOut)
    (behind : LieBetween span.stop drafts last) : LieBetween first (draft :: drafts) last := by
  obtain ⟨spans, othersSpanned, between, othersLaidOut⟩ := behind
  refine ⟨span :: spans, ?_, ⟨before, nonempty, between⟩, ?_⟩
  · rw [List.map_cons, List.map_cons, spanned, othersSpanned]
  · exact List.forall_mem_cons.mpr ⟨laidOut, othersLaidOut⟩

private theorem append {others : List Draft} {middle : Pos} (left : LieBetween first drafts middle)
    (right : LieBetween middle others last) : LieBetween first (drafts ++ others) last := by
  obtain ⟨spans, spanned, between, laidOut⟩ := left
  obtain ⟨otherSpans, othersSpanned, behind, othersLaidOut⟩ := right
  refine ⟨spans ++ otherSpans, ?_, SpansBetween.append_iff.mpr ⟨middle, between, behind⟩, ?_⟩
  · rw [List.map_append, List.map_append, spanned, othersSpanned]
  · exact List.forall_mem_append.mpr ⟨laidOut, othersLaidOut⟩

end LieBetween

private theorem branch_laidOut {kind : String} {text : Option String} {fields : List (Field Draft)}
    (orderly : isOrderly kind text (fields.map Field.name) = true)
    (inside : LieBetween first (fields.flatMap Field.contents) last) :
    Draft.LaidOut (.branch ⟨kind, some ⟨first, last⟩, text⟩ fields) := by
  obtain ⟨spans, spanned, between, laidOut⟩ := inside
  simp only [isOrderly, Bool.and_eq_true, bne_iff_ne, Bool.not_eq_true', Bool.and_eq_false_iff,
    beq_eq_false_iff_ne] at orderly
  obtain ⟨⟨⟨-, regular⟩, longhand⟩, -⟩ := orderly
  rw [← Field.map_snd_spread] at spanned laidOut
  refine SlotTree.everywhere_node ?_ laidOut
  exact spansNest_of_between rfl regular (by tauto) spanned between

private theorem loop_laidOut {test body : Draft} (inside : LieBetween first [body, test] last) :
    Draft.LaidOut (.branch ⟨"DoWhileStatement", some ⟨first, last⟩, none⟩
      [.single "test" test, .single "body" body]) := by
  obtain ⟨spans, spanned, between, laidOut⟩ := inside
  obtain ⟨bodyLaidOut, testLaidOut⟩ := List.forall_mem_cons.mp laidOut
  refine SlotTree.everywhere_node (spansNest_loop spanned between) ?_
  exact List.forall_mem_cons.mpr ⟨testLaidOut test List.mem_cons_self,
    List.forall_mem_cons.mpr ⟨bodyLaidOut, nofun⟩⟩

/-- Drafts that cover tokens lie where the tokens lie. -/
theorem Covers.lieBetween (covers : Covers tokens drafts)
    (between : SpansBetween first (tokens.map (·.span)) last) : LieBetween first drafts last := by
  induction covers generalizing first last with
  | nil => exact ⟨[], rfl, between, nofun⟩
  | mark _ _ ih =>
    obtain ⟨before, nonempty, behind⟩ := SpansBetween.cons_iff.mp between
    exact (ih behind).start_le (le_trans before (le_of_lt nonempty))
  | brackets _ _ _ _ _ ihInner ihRest =>
    rw [List.map_cons, List.map_append, List.map_cons] at between
    obtain ⟨before, opening, between⟩ := SpansBetween.cons_iff.mp between
    obtain ⟨middle, inside, between⟩ := SpansBetween.append_iff.mp between
    obtain ⟨closes, closing, behind⟩ := SpansBetween.cons_iff.mp between
    have inner := (ihInner inside).start_le (le_trans before (le_of_lt opening))
    exact inner.append ((ihRest behind).start_le (le_trans closes (le_of_lt closing)))
  | @leaf kind token _ _ makes _ ih =>
    obtain ⟨before, nonempty, behind⟩ := SpansBetween.cons_iff.mp between
    have laidOut := leaf_laidOut (TokenKind.makes_leaf makes) token
    exact .cons rfl before nonempty laidOut (ih behind)
  | branch orderly head final _ _ ihInner ihRest =>
    obtain ⟨inside, before, nonempty, behind⟩ := between_branch head final between
    exact .cons rfl before nonempty (branch_laidOut orderly (ihInner inside)) (ihRest behind)
  | loop head final _ _ _ _ ihFront ihBack ihRest =>
    obtain ⟨inside, before, nonempty, behind⟩ := between_branch head final between
    rw [List.map_append, List.map_cons] at inside
    obtain ⟨middle, overBody, inside⟩ := SpansBetween.append_iff.mp inside
    obtain ⟨turns, turning, overTest⟩ := SpansBetween.cons_iff.mp inside
    have test := (ihBack overTest).start_le (le_trans turns (le_of_lt turning))
    exact .cons rfl before nonempty (loop_laidOut ((ihFront overBody).append test)) (ihRest behind)
  | shorthand _ _ _ ih =>
    obtain ⟨before, nonempty, behind⟩ := SpansBetween.cons_iff.mp between
    exact .cons rfl before nonempty (shorthand_laidOut nonempty) (ih behind)

private theorem leaf_endsWhere {holds : Pos → Prop} (kind : String) {token : Token}
    (ends : holds token.span.start ∧ holds token.span.stop) : (leaf kind token).EndsWhere holds := by
  refine SlotTree.everywhere_node ?_ nofun
  rintro _ ⟨⟩
  exact ends

/-- Drafts that cover tokens start and stop where tokens do. -/
theorem Covers.endsWhere {holds : Pos → Prop} (covers : Covers tokens drafts)
    (ends : ∀ token ∈ tokens, holds token.span.start ∧ holds token.span.stop) :
    ∀ draft ∈ drafts, draft.EndsWhere holds := by
  induction covers with
  | nil => exact nofun
  | mark _ _ ih => exact ih (List.forall_mem_cons.mp ends).2
  | brackets _ _ _ _ _ ihInner ihRest =>
    obtain ⟨-, ends⟩ := List.forall_mem_cons.mp ends
    obtain ⟨inner, rest⟩ := List.forall_mem_append.mp ends
    exact List.forall_mem_append.mpr ⟨ihInner inner, ihRest (List.forall_mem_cons.mp rest).2⟩
  | leaf _ _ ih =>
    obtain ⟨first, rest⟩ := List.forall_mem_cons.mp ends
    exact List.forall_mem_cons.mpr ⟨leaf_endsWhere _ first, ih rest⟩
  | branch _ head final _ _ ihInner ihRest =>
    obtain ⟨inner, rest⟩ := List.forall_mem_append.mp ends
    refine List.forall_mem_cons.mpr ⟨SlotTree.everywhere_node ?_ ?_, ihRest rest⟩
    · rintro _ ⟨⟩
      exact ⟨(inner _ (List.mem_of_head? head)).1, (inner _ (List.mem_of_getLast? final)).2⟩
    · rw [Field.map_snd_spread]
      exact ihInner inner
  | @loop testDraft bodyDraft _ _ _ _ _ _ _ head final _ _ _ _ ihFront ihBack ihRest =>
    obtain ⟨inner, rest⟩ := List.forall_mem_append.mp ends
    obtain ⟨front, turned⟩ := List.forall_mem_append.mp inner
    have body := ihFront front bodyDraft List.mem_cons_self
    have test := ihBack (List.forall_mem_cons.mp turned).2 testDraft List.mem_cons_self
    refine List.forall_mem_cons.mpr ⟨SlotTree.everywhere_node ?_ ?_, ihRest rest⟩
    · rintro _ ⟨⟩
      exact ⟨(inner _ (List.mem_of_head? head)).1, (inner _ (List.mem_of_getLast? final)).2⟩
    · exact List.forall_mem_cons.mpr ⟨test, List.forall_mem_cons.mpr ⟨body, nofun⟩⟩
  | shorthand _ _ _ ih =>
    obtain ⟨first, rest⟩ := List.forall_mem_cons.mp ends
    have name := leaf_endsWhere "Identifier" first
    refine List.forall_mem_cons.mpr ⟨SlotTree.everywhere_node ?_ ?_, ih rest⟩
    · rintro _ ⟨⟩
      exact first
    · exact List.forall_mem_cons.mpr ⟨name, List.forall_mem_cons.mpr ⟨name, nofun⟩⟩

/-- A parsed source is scanned without a fault, and its tokens are covered by the body of a program. -/
theorem parse_covers {source : String} {draft : Draft} (parsed : parse source = .ok draft) :
    ∃ tokens body, Scans .origin source.toList tokens ∧ Covers tokens body ∧
      draft = .branch ⟨"Program", some ⟨.origin, Pos.origin.after source.toList⟩, none⟩
        [.list "body" body] := by
  unfold parse at parsed
  simp only at parsed
  split at parsed
  · cases parsed
  · rename_i sound
    obtain ⟨body, covers, whole⟩ := parseTokens_covers parsed
    exact ⟨_, body, scanFrom_scans sound, covers, whole⟩

private theorem spread_body (body : List Draft) :
    (Field.spread [.list "body" body]).map (·.2) = body := by
  simp [Field.map_snd_spread]

/-- The draft of a source is laid out well. -/
theorem parse_laidOut {source : String} {draft : Draft} (parsed : parse source = .ok draft) :
    draft.LaidOut := by
  obtain ⟨tokens, body, scans, covers, rfl⟩ := parse_covers parsed
  obtain ⟨spans, spanned, between, laidOut⟩ := covers.lieBetween scans.spansBetween
  have contents := spread_body body
  refine SlotTree.everywhere_node ?_ (contents.symm ▸ laidOut)
  refine spansNest_of_between rfl (by simp) (by simp) ?_ between
  rw [SlotTree.children_node, contents, spanned]

/-- The spans of the draft of a source start and stop at positions of the source. -/
theorem parse_endsWhere {source : String} {draft : Draft} (parsed : parse source = .ok draft) :
    draft.EndsWhere (Pos.Reached source.toList) := by
  obtain ⟨tokens, body, scans, covers, rfl⟩ := parse_covers parsed
  have tokenEnds : ∀ token ∈ tokens,
      token.span.start.Reached source.toList ∧ token.span.stop.Reached source.toList := by
    intro token member
    obtain ⟨before, after, whole, span⟩ := scans.token_parts token member
    rw [whole, span]
    exact ⟨⟨before, by simp, rfl⟩, ⟨before ++ token.kind.text.toList, by simp, rfl⟩⟩
  refine SlotTree.everywhere_node ?_ ?_
  · rintro _ ⟨⟩
    exact ⟨⟨[], List.nil_prefix, rfl⟩, ⟨source.toList, List.prefix_refl _, rfl⟩⟩
  · rw [spread_body]
    exact covers.endsWhere tokenEnds

/-- A source has a tree, which is its draft with numbers, unless it is malformed. -/
theorem toTree_cases (id : TreeId) (source : String) :
    (∃ error, parse source = .error error ∧ toTree id source = .error (.malformed error.toParseError)) ∨
      ∃ tree, parse source = .ok (tree.root.relabel Numbered.toLabel) ∧ toTree id source = .ok tree ∧
        tree.Built ∧ tree.id = id := by
  rw [toTree_eq]
  cases parsed : parse source with
  | error error => exact .inl ⟨error, rfl, rfl⟩
  | ok draft =>
    obtain ⟨tree, planted, built, named, same⟩ := Draft.toTree_built makingOrder id draft
    exact .inr ⟨tree, by rw [same], by simp only [planted], built, named⟩

/-- The tree of a source is built, and without its numbers it is the draft of the source. -/
theorem toTree_spec {id : TreeId} {source : String} {tree : Tree}
    (parsed : toTree id source = .ok tree) :
    parse source = .ok (tree.root.relabel Numbered.toLabel) ∧ tree.Built := by
  rcases toTree_cases id source with ⟨error, -, failed⟩ | ⟨tree', drafted, succeeded, built, -⟩
  · rw [failed] at parsed
    cases parsed
  · rw [succeeded] at parsed
    cases parsed
    exact ⟨drafted, built⟩

/-- The spans of a tree are those of its draft. -/
theorem toTree_spansNest {id : TreeId} {source : String} {tree : Tree} {node : Node}
    (parsed : toTree id source = .ok tree) (occurs : tree.root.Occurs node) :
    SpansNest node.label.toLabel (node.children.map fun child => (child.1, child.2.label.toLabel)) := by
  have laidOut := parse_laidOut (toTree_spec parsed).1
  have nest := laidOut _ (occurs.relabel Numbered.toLabel)
  simpa only [SlotTree.label_relabel, SlotTree.children_relabel, List.map_map, Function.comp_def]
    using nest

/-- Every node of a parsed script has a span. Its children have spans that are not empty and lie within
its own. They follow one another, except that the test of a loop stands behind its body and that the
key and the value of a shorthand property are one name. -/
theorem parsed_spans_nest {id : TreeId} {source : String} {tree : Tree}
    (parsed : (language.parse id source).value = .ok tree) (node : Node)
    (occurs : tree.root.Occurs node) :
    SpansNest node.label.toLabel (node.children.map fun child => (child.1, child.2.label.toLabel)) :=
  toTree_spansNest parsed occurs

theorem loop_over_shorthand_spans_nest :
    ∃ tree loop, (language.parse 0 "do f(\x7ba\x7d); while (b)").value = .ok tree ∧
      tree.root.Occurs loop ∧ loop.label.kind = "DoWhileStatement" ∧
      SpansNest loop.label.toLabel (loop.children.map fun child => (child.1, child.2.label.toLabel)) := by
  have kinds : (language.parse 0 "do f(\x7ba\x7d); while (b)").value.toOption.map
      (fun tree => tree.root.children.map (·.2.label.kind)) = some ["DoWhileStatement"] := by
    decide +kernel
  obtain ⟨tree, accepted, kinds⟩ := Option.map_eq_some_iff.mp kinds
  have parsed : (language.parse 0 "do f(\x7ba\x7d); while (b)").value = .ok tree := by
    cases result : (language.parse 0 "do f(\x7ba\x7d); while (b)").value <;> simp_all [Except.toOption]
  obtain ⟨loop, rest, whole, kind, -⟩ := List.map_eq_cons_iff.mp kinds
  have occurs : tree.root.Occurs loop.2 := SlotTree.Occurs.root.child (by simp [whole])
  exact ⟨tree, loop.2, parsed, occurs, kind, parsed_spans_nest parsed loop.2 occurs⟩

end Script

end SyntaxNav

import Mathlib.Data.List.Nodup
import SyntaxNav.Proofs.Script.SpanGeometry

/-! # Every name and every literal is a leaf

The leaves of a parsed script are tokens of its source, and no name, number or string of the source is
lost, invented or repeated. The names `let` and `static` and the keywords are left out here: they may
mark a construct and then leave no trace.

Drafts that cover tokens account for them by numbers: a content token has as many leaves as it has
occurrences among the tokens, and one more for every shorthand property that it names
(`Covers.tally_leaves`). Tokens of a source do not share their spans, so that every token occurs once.
-/

namespace SyntaxNav

namespace Label

/-- Whether a label is that of a leaf with the span and the text of a token. -/
def isLeafOf (token : Script.Token) (label : Label) : Bool :=
  Script.leafKinds.contains label.kind && label.span = some token.span &&
    label.text = some token.kind.text

/-- Whether a label is that of a shorthand property with a given span. -/
def isShorthandAt (span : Span) (label : Label) : Bool :=
  label.kind = "ObjectProperty" && label.text = some "shorthand" && label.span = some span

end Label

/-- How many nodes of a tree have a label that passes a test. -/
def Tree.countLabels (tree : Tree) (test : Label → Bool) : Nat :=
  tree.root.subtrees.countP fun node => test node.label.toLabel

namespace Draft

variable (test : Label → Bool)

/-- How many nodes at and below some drafts have a label that passes a test. -/
def tally (drafts : List Draft) : Nat :=
  (drafts.flatMap SlotTree.subtrees).countP fun inner => test inner.label

@[simp] theorem tally_nil : tally test [] = 0 := rfl

@[simp] theorem tally_append (drafts others : List Draft) :
    tally test (drafts ++ others) = tally test drafts + tally test others := by
  rw [tally, List.flatMap_append, List.countP_append]
  rfl

@[simp] theorem tally_branch (label : Label) (fields : List (Field Draft)) (drafts : List Draft) :
    tally test (branch label fields :: drafts) =
      (if test label then 1 else 0) + tally test (fields.flatMap Field.contents) +
        tally test drafts := by
  rw [tally, List.flatMap_cons, List.countP_append, branch, SlotTree.subtrees_node, List.countP_cons,
    Field.map_snd_spread, Nat.add_comm (List.countP _ _) (ite _ _ _)]
  rfl

@[simp] theorem tally_leaf (kind : String) (token : Script.Token) (drafts : List Draft) :
    tally test (Script.leaf kind token :: drafts) =
      (if test ⟨kind, some token.span, some token.kind.text⟩ then 1 else 0) + tally test drafts :=
  tally_branch test ⟨kind, some token.span, some token.kind.text⟩ [] drafts

end Draft

namespace Script

open Draft (tally tally_append tally_branch tally_leaf)

/-- Whether a token says more than its place in the grammar: a number, a string, or a name that no
construct is marked with. -/
def TokenKind.isContent : TokenKind → Bool
  | .word text => !isKeyword text && text ≠ "let" && text ≠ "static"
  | .number _ | .string _ => true
  | .punct _ => false

private theorem TokenKind.not_mark {kind : TokenKind} (content : kind.isContent = true) :
    kind.isMark = false := by
  cases kind with
  | word text => simp_all [isContent, isMark]
  | number text | string text => rfl
  | punct text => cases content

variable {tokens : List Token} {drafts : List Draft} {token : Token}

section Counting

private theorem orderly_kind {kind : String} {text : Option String} {names : List String}
    (orderly : isOrderly kind text names = true) :
    kind ∉ leafKinds ∧ ¬(kind = "ObjectProperty" ∧ text = some "shorthand") := by
  simp only [isOrderly, Bool.and_eq_true, Bool.not_eq_true', bne_iff_ne, Bool.and_eq_false_iff,
    beq_eq_false_iff_ne, List.contains_eq_mem, decide_eq_false_iff_not] at orderly
  obtain ⟨⟨⟨noLeaf, -⟩, longhand⟩, -⟩ := orderly
  exact ⟨noLeaf, by tauto⟩

/-- A node that is no leaf and no shorthand property counts as neither. -/
theorem orderly_uncounted {kind : String} {text : Option String} {names : List String} (token : Token)
    (span : Span) (orderly : isOrderly kind text names = true) :
    Label.isLeafOf token ⟨kind, some span, text⟩ = false ∧
      Label.isShorthandAt token.span ⟨kind, some span, text⟩ = false := by
  obtain ⟨noLeaf, longhand⟩ := orderly_kind orderly
  constructor
  · simp [Label.isLeafOf, noLeaf]
  · rw [not_and] at longhand
    simpa [Label.isShorthandAt] using fun kind text => absurd text (longhand kind)

private theorem isLeafOf_leaf {kind : String} {other : Token} (isLeaf : kind ∈ leafKinds)
    (alone : other.span = token.span → other = token) :
    Label.isLeafOf token ⟨kind, some other.span, some other.kind.text⟩ = (other == token) := by
  by_cases same : other = token
  · subst same
    simpa [Label.isLeafOf] using isLeaf
  · have apart : other.span ≠ token.span := fun span => same (alone span)
    simp [Label.isLeafOf, apart, same]

private theorem isShorthandAt_leaf {kind : String} (isLeaf : kind ∈ leafKinds) (span : Option Span)
    (text : Option String) : Label.isShorthandAt token.span ⟨kind, span, text⟩ = false := by
  have other : kind ≠ "ObjectProperty" := by
    rintro rfl
    exact absurd isLeaf (by decide)
  simp [Label.isShorthandAt, other]

private theorem isShorthandAt_shorthand {other : Token} (alone : other.span = token.span → other = token) :
    Label.isShorthandAt token.span ⟨"ObjectProperty", some other.span, some "shorthand"⟩ =
      (other == token) := by
  by_cases same : other = token
  · subst same
    simp [Label.isShorthandAt]
  · have apart : other.span ≠ token.span := fun span => same (alone span)
    simp [Label.isShorthandAt, apart, same]

/-- A content token has one leaf for each of its occurrences and one more for each shorthand property
that it names, of which there are no more than occurrences. -/
theorem Covers.tally_leaves (covers : Covers tokens drafts) (content : token.kind.isContent = true)
    (alone : ∀ other ∈ tokens, other.span = token.span → other = token) :
    tally (Label.isLeafOf token) drafts =
        tokens.count token + tally (Label.isShorthandAt token.span) drafts ∧
      tally (Label.isShorthandAt token.span) drafts ≤ tokens.count token := by
  have notPunct {other : Token} {punct : String} (isPunct : other.kind = .punct punct) :
      other ≠ token := by
    rintro rfl
    rw [isPunct] at content
    cases content
  have notMark {other : Token} (isMark : other.kind.isMark = true) : other ≠ token := by
    rintro rfl
    rw [TokenKind.not_mark content] at isMark
    cases isMark
  induction covers with
  | nil => exact ⟨rfl, Nat.le_refl 0⟩
  | mark isMark _ ih =>
    rw [List.count_cons_of_ne (notMark isMark)]
    exact ih (List.forall_mem_cons.mp alone).2
  | brackets _ opens closes _ _ ihInner ihRest =>
    obtain ⟨-, alone⟩ := List.forall_mem_cons.mp alone
    obtain ⟨aloneInner, alone⟩ := List.forall_mem_append.mp alone
    have inner := ihInner aloneInner
    have rest := ihRest (List.forall_mem_cons.mp alone).2
    simp only [tally_append, List.count_cons_of_ne (notPunct opens), List.count_append,
      List.count_cons_of_ne (notPunct closes)]
    omega
  | @leaf kind other tokens drafts makes _ ih =>
    obtain ⟨aloneFirst, aloneRest⟩ := List.forall_mem_cons.mp alone
    have isLeaf := TokenKind.makes_leaf makes
    have rest := ih aloneRest
    simp only [tally_leaf, isLeafOf_leaf isLeaf aloneFirst, isShorthandAt_leaf isLeaf,
      List.count_cons, Bool.false_eq_true, ↓reduceIte]
    omega
  | @branch kind text fields first last inner tokens drafts orderly _ _ _ _ ihInner ihRest =>
    obtain ⟨aloneInner, aloneRest⟩ := List.forall_mem_append.mp alone
    obtain ⟨noLeaf, longhand⟩ :=
      orderly_uncounted token ⟨first.span.start, last.span.stop⟩ orderly
    have inner := ihInner aloneInner
    have rest := ihRest aloneRest
    simp only [tally_branch, noLeaf, longhand, List.count_append, Bool.false_eq_true, ↓reduceIte]
    omega
  | @loop test body first last turn front back tokens drafts _ _ _ isMark _ _ ihFront ihBack ihRest =>
    obtain ⟨aloneInner, aloneRest⟩ := List.forall_mem_append.mp alone
    obtain ⟨aloneFront, aloneBack⟩ := List.forall_mem_append.mp aloneInner
    have overBody := ihFront aloneFront
    have overTest := ihBack (List.forall_mem_cons.mp aloneBack).2
    have rest := ihRest aloneRest
    obtain ⟨noLeaf, longhand⟩ : Label.isLeafOf token
          ⟨"DoWhileStatement", some ⟨first.span.start, last.span.stop⟩, none⟩ = false ∧
        Label.isShorthandAt token.span
          ⟨"DoWhileStatement", some ⟨first.span.start, last.span.stop⟩, none⟩ = false := ⟨rfl, rfl⟩
    have contents : [Field.single "test" (some test), .single "body" (some body)].flatMap
        Field.contents = [test] ++ [body] := rfl
    simp only [tally_branch, contents, tally_append, noLeaf, longhand, List.count_append,
      List.count_cons_of_ne (notMark isMark), Bool.false_eq_true, ↓reduceIte]
    omega
  | @shorthand name other tokens drafts _ _ _ ih =>
    obtain ⟨aloneFirst, aloneRest⟩ := List.forall_mem_cons.mp alone
    have isLeaf : "Identifier" ∈ leafKinds := by decide
    have rest := ih aloneRest
    have noLeaf : Label.isLeafOf token ⟨"ObjectProperty", some other.span, some "shorthand"⟩ = false :=
      rfl
    have contents : [Field.single "key" (some (Script.leaf "Identifier" other)),
        .single "value" (some (Script.leaf "Identifier" other))].flatMap Field.contents =
          [Script.leaf "Identifier" other, Script.leaf "Identifier" other] := rfl
    simp only [tally_branch, contents, tally_leaf, noLeaf, isLeafOf_leaf isLeaf aloneFirst,
      isShorthandAt_leaf isLeaf, isShorthandAt_shorthand aloneFirst, List.count_cons, Draft.tally_nil,
      Bool.false_eq_true, ↓reduceIte]
    omega

end Counting

section Origins

/-- Where a node comes from: a leaf is a token of some sort, and a shorthand property is one name that
is both its key and its value. -/
structure Traced (allowed : Token → Prop) (inner : Draft) : Prop where
  leaf : inner.label.kind ∈ leafKinds →
    ∃ token, allowed token ∧ token.kind.makes inner.label.kind = true ∧
      inner = Script.leaf inner.label.kind token
  shorthand : inner.label.kind = "ObjectProperty" → inner.label.text = some "shorthand" →
    ∃ token, allowed token ∧
      inner = .branch ⟨"ObjectProperty", some token.span, some "shorthand"⟩
        [.single "key" (Script.leaf "Identifier" token),
          .single "value" (Script.leaf "Identifier" token)]

variable {allowed : Token → Prop}

private theorem traced_other {kind : String} {span : Option Span} {text : Option String}
    {children : List (Slot × Draft)} (noLeaf : kind ∉ leafKinds)
    (longhand : ¬(kind = "ObjectProperty" ∧ text = some "shorthand")) :
    Traced allowed (.node ⟨kind, span, text⟩ children) where
  leaf isLeaf := absurd isLeaf noLeaf
  shorthand isProperty isShort := absurd ⟨isProperty, isShort⟩ longhand

private theorem traced_leaf {kind : String} (isAllowed : allowed token)
    (makes : token.kind.makes kind = true) :
    SlotTree.Everywhere (Traced allowed) (leaf kind token) := by
  have isLeaf := TokenKind.makes_leaf makes
  apply SlotTree.everywhere_node
  · constructor
    · exact fun _ => ⟨token, isAllowed, makes, rfl⟩
    · rintro rfl -
      exact absurd isLeaf (by decide)
  · exact nofun

private theorem traced_orderly {kind : String} {text : Option String} {fields : List (Field Draft)}
    (span : Span)
    (orderly : isOrderly kind text (fields.map Field.name) = true)
    (below : ∀ draft ∈ fields.flatMap Field.contents, draft.Everywhere (Traced allowed)) :
    SlotTree.Everywhere (Traced allowed) (Draft.branch ⟨kind, some span, text⟩ fields) := by
  obtain ⟨noLeaf, longhand⟩ := orderly_kind orderly
  apply SlotTree.everywhere_node
  · exact traced_other noLeaf longhand
  · rwa [Field.map_snd_spread]

/-- The nodes of drafts that cover tokens come from these tokens. -/
theorem Covers.traced (covers : Covers tokens drafts) (all : ∀ token ∈ tokens, allowed token) :
    ∀ draft ∈ drafts, draft.Everywhere (Traced allowed) := by
  induction covers with
  | nil => exact nofun
  | mark _ _ ih => exact ih (List.forall_mem_cons.mp all).2
  | brackets _ _ _ _ _ ihInner ihRest =>
    obtain ⟨-, all⟩ := List.forall_mem_cons.mp all
    obtain ⟨inner, rest⟩ := List.forall_mem_append.mp all
    exact List.forall_mem_append.mpr ⟨ihInner inner, ihRest (List.forall_mem_cons.mp rest).2⟩
  | leaf makes _ ih =>
    obtain ⟨first, rest⟩ := List.forall_mem_cons.mp all
    exact List.forall_mem_cons.mpr ⟨traced_leaf first makes, ih rest⟩
  | branch orderly _ _ _ _ ihInner ihRest =>
    obtain ⟨inner, rest⟩ := List.forall_mem_append.mp all
    exact List.forall_mem_cons.mpr ⟨traced_orderly _ orderly (ihInner inner), ihRest rest⟩
  | loop _ _ _ _ _ _ ihFront ihBack ihRest =>
    obtain ⟨inner, rest⟩ := List.forall_mem_append.mp all
    obtain ⟨front, turned⟩ := List.forall_mem_append.mp inner
    have body := ihFront front
    have test := ihBack (List.forall_mem_cons.mp turned).2
    have below := List.forall_mem_cons.mpr ⟨List.forall_mem_singleton.mp test, body⟩
    exact List.forall_mem_cons.mpr
      ⟨SlotTree.everywhere_node (traced_other (by decide) (by decide)) below, ihRest rest⟩
  | @shorthand name token _ _ word _ _ ih =>
    obtain ⟨first, rest⟩ := List.forall_mem_cons.mp all
    have makes : token.kind.makes "Identifier" = true := by simp [word, TokenKind.makes]
    have isLeaf := traced_leaf first makes
    have below := List.forall_mem_cons.mpr ⟨isLeaf, List.forall_mem_singleton.mpr isLeaf⟩
    have isTraced : Traced allowed (.branch ⟨"ObjectProperty", some token.span, some "shorthand"⟩
        [.single "key" (Script.leaf "Identifier" token),
          .single "value" (Script.leaf "Identifier" token)]) := by
      constructor
      · intro isLeaf
        exact absurd isLeaf (by decide : "ObjectProperty" ∉ leafKinds)
      · exact fun _ _ => ⟨token, first, rfl⟩
    exact List.forall_mem_cons.mpr ⟨SlotTree.everywhere_node isTraced below, ih rest⟩

end Origins

section Sources

variable {source : String} {draft : Draft} {id : TreeId} {tree : Tree}

/-- A parsed source is scanned without a fault, and the body of its draft covers the tokens. -/
theorem parse_covers_scan (parsed : parse source = .ok draft) :
    ∃ body, Scans .origin source.toList (scan source.toList).tokens ∧
      Covers (scan source.toList).tokens body ∧
      draft = .branch ⟨"Program", some ⟨.origin, Pos.origin.after source.toList⟩, none⟩
        [.list "body" body] := by
  obtain ⟨tokens, body, scans, covers, whole⟩ := parse_covers parsed
  have scanned : (scan source.toList).tokens = tokens := by
    rw [scan, scans.scanFrom_eq]
  rw [scanned]
  exact ⟨body, scans, covers, whole⟩

/-- No two tokens of a source have the same span. -/
theorem Scans.span_nodup {pos : Pos} {text : List Char} (scans : Scans pos text tokens) :
    (tokens.map (·.span)).Nodup := by
  have between := scans.spansBetween
  have ordered := between.pairwise
  rw [List.Nodup, List.pairwise_iff_getElem] at *
  intro i j iBound jBound less same
  have apart := ordered i j iBound jBound less
  have nonempty := (between.enclosed _ (List.getElem_mem iBound)).2.1
  rw [← same] at apart
  exact absurd nonempty (not_lt_of_ge apart)

/-- Every leaf of a draft is made from a token of the source. -/
theorem parse_traced (parsed : parse source = .ok draft) :
    SlotTree.Everywhere (Traced (· ∈ (scan source.toList).tokens)) draft := by
  obtain ⟨body, -, covers, rfl⟩ := parse_covers_scan parsed
  apply traced_orderly _ rfl
  simpa using covers.traced fun token member => member

/-- How many leaves the draft of a source has for a content token. -/
theorem parse_tally (parsed : parse source = .ok draft) (member : token ∈ (scan source.toList).tokens)
    (content : token.kind.isContent = true) :
    tally (Label.isLeafOf token) [draft] = 1 + tally (Label.isShorthandAt token.span) [draft] ∧
      tally (Label.isShorthandAt token.span) [draft] ≤ 1 := by
  obtain ⟨body, scans, covers, rfl⟩ := parse_covers_scan parsed
  have nodup := scans.span_nodup
  have alone : ∀ other ∈ (scan source.toList).tokens, other.span = token.span → other = token :=
    fun other listed same => List.inj_on_of_nodup_map nodup listed member same
  have once : (scan source.toList).tokens.count token = 1 :=
    List.count_eq_one_of_mem (List.Nodup.of_map _ nodup) member
  have counted := covers.tally_leaves content alone
  rw [once] at counted
  have orderly : isOrderly "Program" none ["body"] = true := rfl
  obtain ⟨noLeaf, longhand⟩ :=
    orderly_uncounted token ⟨.origin, Pos.origin.after source.toList⟩ orderly
  have contents : [Field.list "body" body].flatMap Field.contents = body := by simp
  simp only [tally_branch, contents, noLeaf, longhand, Draft.tally_nil, Bool.false_eq_true, ↓reduceIte]
  omega

private theorem countLabels_eq_tally (tree : Tree) (test : Label → Bool) :
    tree.countLabels test = tally test [tree.root.relabel Numbered.toLabel] := by
  rw [tally, List.flatMap_singleton, SlotTree.subtrees_relabel, List.countP_map, Tree.countLabels]
  refine List.countP_congr fun node _ => ?_
  rw [Function.comp_apply, SlotTree.label_relabel]

/-- A node that is a name or a literal is a leaf with the span and the text of a token. -/
theorem toTree_leaf {node : Node} (parsed : toTree id source = .ok tree)
    (occurs : tree.root.Occurs node) (isLeaf : node.label.kind ∈ leafKinds) :
    node.children = [] ∧ ∃ token ∈ (scan source.toList).tokens,
      node.label.span = some token.span ∧ node.label.text = some token.kind.text := by
  have origin := (parse_traced (toTree_spec parsed).1 _ (occurs.relabel Numbered.toLabel)).leaf
  rw [SlotTree.label_relabel] at origin
  obtain ⟨token, member, -, same⟩ := origin isLeaf
  have label := congrArg SlotTree.label same
  have children := congrArg SlotTree.children same
  rw [SlotTree.label_relabel] at label
  rw [SlotTree.children_relabel] at children
  have span : node.label.span = some token.span := congrArg Label.span label
  have text : node.label.text = some token.kind.text := congrArg Label.text label
  exact ⟨List.map_eq_nil_iff.mp children, token, member, span, text⟩

/-- The key and the value of a shorthand property are leaves of one name, which spans the property. -/
theorem toTree_shorthand_name {property : Node} (parsed : toTree id source = .ok tree)
    (occurs : tree.root.Occurs property) (isProperty : property.label.kind = "ObjectProperty")
    (isShort : property.label.text = some "shorthand") :
    ∃ name ∈ (scan source.toList).tokens, property.label.span = some name.span ∧
      ∃ key value, property.children = [(.single "key", key), (.single "value", value)] ∧
        key.relabel Numbered.toLabel = leaf "Identifier" name ∧
        value.relabel Numbered.toLabel = leaf "Identifier" name := by
  have origin := (parse_traced (toTree_spec parsed).1 _ (occurs.relabel Numbered.toLabel)).shorthand
  rw [SlotTree.label_relabel] at origin
  obtain ⟨name, named, same⟩ := origin isProperty isShort
  have label := congrArg SlotTree.label same
  rw [SlotTree.label_relabel] at label
  have children := congrArg SlotTree.children same
  rw [SlotTree.children_relabel] at children
  obtain ⟨⟨keySlot, key⟩, others, whole, keyIs, rest⟩ := List.map_eq_cons_iff.mp children
  obtain ⟨⟨valueSlot, value⟩, none, rfl, valueIs, empty⟩ := List.map_eq_cons_iff.mp rest
  obtain ⟨rfl, keyLeaf⟩ := Prod.mk.inj keyIs
  obtain ⟨rfl, valueLeaf⟩ := Prod.mk.inj valueIs
  obtain rfl := List.map_eq_nil_iff.mp empty
  exact ⟨name, named, congrArg Label.span label, key, value, whole, keyLeaf, valueLeaf⟩

/-- The children of a shorthand property with the span of a token are two leaves of that token. -/
theorem toTree_shorthand {property : Node} (parsed : toTree id source = .ok tree)
    (occurs : tree.root.Occurs property) (member : token ∈ (scan source.toList).tokens)
    (isShort : property.label.isShorthandAt token.span = true) :
    ∃ key value, property.children = [(.single "key", key), (.single "value", value)] ∧
      key.label.isLeafOf token = true ∧ value.label.isLeafOf token = true := by
  simp only [Label.isShorthandAt, Bool.and_eq_true, decide_eq_true_eq] at isShort
  obtain ⟨⟨isProperty, shorthand⟩, spanned⟩ := isShort
  obtain ⟨name, named, nameSpan, key, value, whole, keyLeaf, valueLeaf⟩ :=
    toTree_shorthand_name parsed occurs isProperty shorthand
  obtain ⟨body, scans, -, -⟩ := parse_covers_scan (toTree_spec parsed).1
  have sameSpan : name.span = token.span := Option.some.inj (nameSpan.symm.trans spanned)
  obtain rfl : name = token := List.inj_on_of_nodup_map scans.span_nodup named member sameSpan
  have ofName {node : Node} (isLeaf : node.relabel Numbered.toLabel = leaf "Identifier" name) :
      node.label.isLeafOf name = true := by
    have label := congrArg SlotTree.label isLeaf
    rw [SlotTree.label_relabel] at label
    rw [label]
    simp [Label.isLeafOf, leafKinds, leaf]
  exact ⟨key, value, whole, ofName keyLeaf, ofName valueLeaf⟩

/-- Every node that is a name or a literal is a leaf with the span and the text of a token, which is the
part of the source at that span. Every content token has exactly one such leaf, or two if it is the name
of a shorthand property: its key and its value. -/
theorem content_tokens_are_leaves (parsed : (language.parse id source).value = .ok tree) :
    ∃ tokens, Tokenizer.tokens.of source.toList = .ok tokens ∧
    (∀ node, tree.root.Occurs node → node.label.kind ∈ leafKinds → node.children = [] ∧
      ∃ token ∈ tokens, node.label.span = some token.span ∧
        node.label.text = some token.kind.text ∧
        ∃ before after, source.toList = before ++ token.kind.text.toList ++ after ∧
          token.span = ⟨Pos.origin.after before, Pos.origin.after (before ++ token.kind.text.toList)⟩) ∧
    ∀ token ∈ tokens, token.kind.isContent = true →
      ((∀ node, tree.root.Occurs node → node.label.isShorthandAt token.span = false) →
        tree.countLabels (Label.isLeafOf token) = 1) ∧
      ∀ property, tree.root.Occurs property → property.label.isShorthandAt token.span = true →
        tree.countLabels (Label.isLeafOf token) = 2 ∧
          ∃ key value, property.children = [(.single "key", key), (.single "value", value)] ∧
            key.label.isLeafOf token = true ∧ value.label.isLeafOf token = true := by
  have drafted := (toTree_spec parsed).1
  refine ⟨_, tokens_of_parse drafted, ?_, ?_⟩
  · intro node occurs isLeaf
    obtain ⟨body, scans, -, -⟩ := parse_covers_scan drafted
    obtain ⟨childless, token, member, span, text⟩ := toTree_leaf parsed occurs isLeaf
    exact ⟨childless, token, member, span, text, scans.token_parts token member⟩
  · intro token member content
    obtain ⟨leaves, atMostOne⟩ := parse_tally drafted member content
    simp only [← countLabels_eq_tally] at leaves atMostOne
    constructor
    · intro longhand
      have none : tree.countLabels (Label.isShorthandAt token.span) = 0 := by
        apply List.countP_eq_zero.mpr
        intro node listed
        rw [longhand node (SlotTree.mem_subtrees_iff.mp listed)]
        exact Bool.false_ne_true
      omega
    · intro property occurs isShort
      have some : 0 < tree.countLabels (Label.isShorthandAt token.span) :=
        List.countP_pos_iff.mpr ⟨property, SlotTree.mem_subtrees_iff.mpr occurs, isShort⟩
      exact ⟨by omega, toTree_shorthand parsed occurs member isShort⟩

theorem shorthand_name_has_two_leaves :
    ∃ tree token, (language.parse 0 "f(\x7bif: 1, b\x7d)").value = .ok tree ∧
      (∃ tokens, Tokenizer.tokens.of "f(\x7bif: 1, b\x7d)".toList = .ok tokens ∧ token ∈ tokens) ∧
      token.kind = .word "b" ∧ tree.countLabels (Label.isLeafOf token) = 2 := by
  let token : Token := ⟨.word "b", ⟨⟨1, 10⟩, ⟨1, 11⟩⟩, false⟩
  have member : token ∈ (scan "f(\x7bif: 1, b\x7d)".toList).tokens := by
    decide +kernel
  have shorthand : (language.parse 0 "f(\x7bif: 1, b\x7d)").value.toOption.map
      (fun tree => tree.root.subtrees.any (·.label.isShorthandAt token.span)) = some true := by
    decide +kernel
  obtain ⟨tree, accepted, listed⟩ := Option.map_eq_some_iff.mp shorthand
  have parsed : (language.parse 0 "f(\x7bif: 1, b\x7d)").value = .ok tree := by
    cases result : (language.parse 0 "f(\x7bif: 1, b\x7d)").value <;> simp_all [Except.toOption]
  obtain ⟨property, below, isShort⟩ := List.any_eq_true.mp listed
  have occurs := SlotTree.mem_subtrees_iff.mp below
  obtain ⟨tokens, tokenized, -, counted⟩ := content_tokens_are_leaves parsed
  rw [Tokenizer.tokens_of_eq_ok_iff.mp tokenized] at member
  have leaves := (counted token member rfl).2 property occurs isShort
  exact ⟨tree, token, parsed, ⟨tokens, tokenized, member⟩, rfl, leaves.1⟩

end Sources

end Script

end SyntaxNav

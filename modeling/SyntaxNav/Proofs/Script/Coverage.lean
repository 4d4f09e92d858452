import SyntaxNav.Proofs.Script.Reading
import SyntaxNav.Proofs.Tree.Fields

/-! # How drafts cover tokens

A run of tokens is covered by a list of drafts if the drafts lie over the run in reading order. Every
token is then accounted for once: it is a mark that leaves no trace, one of a pair of brackets around
a covered run, or it belongs to a leaf. A branch lies over a run of at least one token, from the start
of the first to the end of the last, and its children cover that run. Only a loop with its test behind
its body lists its children in another order; a mark stands between the two. Only a shorthand property
lays two leaves over one token.

`Cursor.Yields` carries this to cursors: between two cursors lie tokens that drafts cover.
-/

namespace SyntaxNav.Script

/-- The kinds of the nodes that are made from one token. -/
def leafKinds : List String :=
  ["Identifier", "NumericLiteral", "StringLiteral", "BooleanLiteral"]

def TokenKind.makes : TokenKind → String → Bool
  | .word text, kind =>
    kind = "Identifier" || (kind = "BooleanLiteral" && (text = "true" || text = "false"))
  | .number _, kind => kind = "NumericLiteral"
  | .string _, kind => kind = "StringLiteral"
  | .punct _, _ => false

/-- Whether a token only marks a construct: a keyword, a word that is one in places, or a punctuator
that is no bracket. -/
def TokenKind.isMark : TokenKind → Bool
  | .word text => isKeyword text || text = "let" || text = "static"
  | .punct text => !isOpening text && !isClosing text
  | _ => false

def bracketPairs : List (String × String) :=
  [("(", ")"), ("[", "]"), ("\x7b", "\x7d")]

/-- Whether a node lists its children in reading order, each in a field of its own name. Leaves, loops
with their test behind their body and shorthand properties are told apart by kind and text. -/
def isOrderly (kind : String) (text : Option String) (names : List String) : Bool :=
  !leafKinds.contains kind && kind != "DoWhileStatement" &&
    !(kind == "ObjectProperty" && text == some "shorthand") && decide names.Nodup

/-- Drafts lie over a run of tokens, in reading order. -/
inductive Covers : List Token → List Draft → Prop
  | nil : Covers [] []
  | mark {token : Token} {tokens : List Token} {drafts : List Draft} :
      token.kind.isMark = true → Covers tokens drafts → Covers (token :: tokens) drafts
  | brackets {opening closing : Token} {left right : String} {inner tokens : List Token}
      {enclosed drafts : List Draft} :
      (left, right) ∈ bracketPairs → opening.kind = .punct left → closing.kind = .punct right →
      Covers inner enclosed → Covers tokens drafts →
      Covers (opening :: (inner ++ closing :: tokens)) (enclosed ++ drafts)
  | leaf {kind : String} {token : Token} {tokens : List Token} {drafts : List Draft} :
      token.kind.makes kind = true → Covers tokens drafts →
      Covers (token :: tokens) (Script.leaf kind token :: drafts)
  | branch {kind : String} {text : Option String} {fields : List (Field Draft)} {first last : Token}
      {inner tokens : List Token} {drafts : List Draft} :
      isOrderly kind text (fields.map Field.name) = true →
      inner.head? = some first → inner.getLast? = some last →
      Covers inner (fields.flatMap Field.contents) → Covers tokens drafts →
      Covers (inner ++ tokens)
        (.branch ⟨kind, some ⟨first.span.start, last.span.stop⟩, text⟩ fields :: drafts)
  | loop {test body : Draft} {first last turn : Token} {front back tokens : List Token}
      {drafts : List Draft} :
      (front ++ turn :: back).head? = some first → (front ++ turn :: back).getLast? = some last →
      Covers front [body] → turn.kind.isMark = true → Covers back [test] → Covers tokens drafts →
      Covers (front ++ turn :: back ++ tokens)
        (.branch ⟨"DoWhileStatement", some ⟨first.span.start, last.span.stop⟩, none⟩
          [.single "test" test, .single "body" body] :: drafts)
  | shorthand {name : String} {token : Token} {tokens : List Token} {drafts : List Draft} :
      token.kind = .word name → isKeyword name = false → Covers tokens drafts →
      Covers (token :: tokens)
        (.branch ⟨"ObjectProperty", some token.span, some "shorthand"⟩
          [.single "key" (Script.leaf "Identifier" token),
            .single "value" (Script.leaf "Identifier" token)] :: drafts)

namespace Covers

variable {first second : List Token} {drafts others : List Draft}

private theorem append (left : Covers first drafts) (right : Covers second others) :
    Covers (first ++ second) (drafts ++ others) := by
  induction left with
  | nil => exact right
  | mark isMark _ ih => exact .mark isMark ih
  | brackets pair opens closes inner _ _ ih =>
    rw [List.append_assoc, List.cons_append, List.append_assoc]
    exact .brackets pair opens closes inner ih
  | leaf makes _ ih => exact .leaf makes ih
  | branch orderly head last inner _ _ ih =>
    rw [List.append_assoc]
    exact .branch orderly head last inner ih
  | loop head last front turns back _ _ _ ih =>
    rw [List.append_assoc]
    exact .loop head last front turns back ih
  | shorthand word name _ ih => exact .shorthand word name ih

/-- Every draft lies over a token. -/
theorem tokens_ne_nil (covers : Covers first drafts) (someDraft : drafts ≠ []) : first ≠ [] := by
  cases covers with
  | nil => exact absurd rfl someDraft
  | mark | brackets | leaf | shorthand => exact List.cons_ne_nil _ _
  | branch _ head | loop head =>
    intro empty
    rw [(List.append_eq_nil_iff.mp empty).1] at head
    cases head

end Covers

namespace Cursor

variable {before middle after cursor last : Cursor} {drafts others : List Draft} {token : Token}

theorem atPunct_iff {punct : String} :
    cursor.atPunct punct = true ↔ cursor.next? = some (.punct punct) := by
  simp [atPunct]

theorem atWord_iff {word : String} :
    cursor.atWord word = true ↔ cursor.next? = some (.word word) := by
  simp [atWord]

/-- The kind that is next belongs to the first token that is left. -/
theorem exists_of_next? {kind : TokenKind} (next : cursor.next? = some kind) :
    ∃ token rest, cursor.rest = token :: rest ∧ token.kind = kind := by
  obtain ⟨token, head, same⟩ := Option.map_eq_some_iff.mp next
  obtain ⟨rest, split⟩ := List.head?_eq_some_iff.mp head
  exact ⟨token, rest, split, same⟩

/-- A cursor is moved past tokens to another one. -/
structure Passes (before : Cursor) (tokens : List Token) (after : Cursor) : Prop where
  rest : before.rest = tokens ++ after.rest
  prevEnd : after.prevEnd = (tokens.getLast?.map (·.span.stop)).getD before.prevEnd
  sourceEnd : after.sourceEnd = before.sourceEnd
  depth : after.depth = before.depth

namespace Passes

variable {tokens first second : List Token}

theorem refl (cursor : Cursor) : cursor.Passes [] cursor := ⟨rfl, rfl, rfl, rfl⟩

/-- Tokens are passed in two parts. -/
theorem append (left : before.Passes first middle) (right : middle.Passes second after) :
    before.Passes (first ++ second) after := by
  refine ⟨?_, ?_, right.sourceEnd.trans left.sourceEnd, right.depth.trans left.depth⟩
  · rw [left.rest, right.rest, List.append_assoc]
  · rw [right.prevEnd, left.prevEnd, List.getLast?_append]
    cases second.getLast? <;> rfl

/-- Going past a token passes it. -/
theorem advance {rest : List Token} (ahead : cursor.rest = token :: rest) :
    cursor.Passes [token] cursor.advance := by
  obtain ⟨tokens, prevEnd, sourceEnd, depth⟩ := cursor
  obtain rfl : tokens = token :: rest := ahead
  exact ⟨rfl, rfl, rfl, rfl⟩

/-- The span from where a run of tokens is entered to where it is left. -/
theorem span {head final : Token} (passes : before.Passes tokens after)
    (first : tokens.head? = some head) (last : tokens.getLast? = some final) :
    (⟨before.start, after.prevEnd⟩ : Span) = ⟨head.span.start, final.span.stop⟩ := by
  obtain ⟨rest, rfl⟩ := List.head?_eq_some_iff.mp first
  have ahead := passes.rest
  have reached := passes.prevEnd
  rw [last] at reached
  simp only [Cursor.start, ahead, List.cons_append, reached, Option.map_some, Option.getD_some]

end Passes

/-- Between two cursors lie tokens that drafts cover. -/
def Yields (before after : Cursor) (drafts : List Draft) : Prop :=
  ∃ tokens, before.Passes tokens after ∧ Covers tokens drafts

namespace Yields

variable {kind : String} {text : Option String} {fields : List (Field Draft)}

theorem refl (cursor : Cursor) : cursor.Yields cursor [] := ⟨[], .refl cursor, .nil⟩

theorem append (left : before.Yields middle drafts) (right : middle.Yields after others) :
    before.Yields after (drafts ++ others) := by
  obtain ⟨first, passesFirst, coversFirst⟩ := left
  obtain ⟨second, passesSecond, coversSecond⟩ := right
  exact ⟨first ++ second, passesFirst.append passesSecond, coversFirst.append coversSecond⟩

/-- A mark leaves no trace in drafts. -/
theorem mark {mark : TokenKind} (next : cursor.next? = some mark) (isMark : mark.isMark = true) :
    cursor.Yields cursor.advance [] := by
  obtain ⟨token, rest, ahead, rfl⟩ := exists_of_next? next
  exact ⟨[token], .advance ahead, .mark isMark .nil⟩

/-- A token that makes a leaf is covered by it. -/
theorem leaf {rest : List Token} (ahead : cursor.rest = token :: rest)
    (makes : token.kind.makes kind = true) :
    cursor.Yields cursor.advance [Script.leaf kind token] :=
  ⟨[token], .advance ahead, .leaf makes .nil⟩

/-- A name that stands for a property and its value is covered by two leaves. -/
theorem shorthand {rest : List Token} {name : String} (ahead : cursor.rest = token :: rest)
    (word : token.kind = .word name) (isName : isKeyword name = false) :
    cursor.Yields cursor.advance
      [.branch ⟨"ObjectProperty", some ⟨cursor.start, cursor.advance.prevEnd⟩, some "shorthand"⟩
        [.single "key" (Script.leaf "Identifier" token),
          .single "value" (Script.leaf "Identifier" token)]] := by
  have passes := Passes.advance ahead
  rw [passes.span rfl rfl]
  exact ⟨[token], passes, .shorthand word isName .nil⟩

private theorem brackets_covered {left right : String} (pair : (left, right) ∈ bracketPairs)
    (opens : cursor.atPunct left = true) (inner : cursor.advance.Yields last drafts)
    (closes : last.atPunct right = true) :
    ∃ tokens, tokens ≠ [] ∧ cursor.Passes tokens last.advance ∧ Covers tokens drafts := by
  obtain ⟨opening, _, aheadOpening, isOpening⟩ := exists_of_next? (atPunct_iff.mp opens)
  obtain ⟨closing, _, aheadClosing, isClosing⟩ := exists_of_next? (atPunct_iff.mp closes)
  obtain ⟨tokens, passes, covers⟩ := inner
  refine ⟨opening :: (tokens ++ [closing]), List.cons_ne_nil _ _, ?_, ?_⟩
  · exact (Passes.advance aheadOpening).append (passes.append (.advance aheadClosing))
  · simpa only [List.append_nil] using Covers.brackets pair isOpening isClosing covers .nil

/-- Brackets around covered tokens leave no trace. -/
theorem brackets {left right : String} (pair : (left, right) ∈ bracketPairs)
    (opens : cursor.atPunct left = true) (inner : cursor.advance.Yields last drafts)
    (closes : last.atPunct right = true) : cursor.Yields last.advance drafts := by
  obtain ⟨tokens, _, passes, covers⟩ := brackets_covered pair opens inner closes
  exact ⟨tokens, passes, covers⟩

private theorem branch_of_tokens {tokens : List Token} (someToken : tokens ≠ [])
    (passes : before.Passes tokens after) (covers : Covers tokens (fields.flatMap Field.contents))
    (orderly : isOrderly kind text (fields.map Field.name) = true) :
    before.Yields after [.branch ⟨kind, some ⟨before.start, after.prevEnd⟩, text⟩ fields] := by
  have first := List.head?_eq_some_head someToken
  have last := List.getLast?_eq_some_getLast someToken
  rw [passes.span first last]
  refine ⟨tokens, passes, ?_⟩
  simpa only [List.append_nil] using Covers.branch orderly first last covers .nil

/-- A branch over what was read, which holds at least one draft. -/
theorem branch {draft : Draft} (read : before.Yields after (draft :: drafts))
    (held : fields.flatMap Field.contents = draft :: drafts)
    (orderly : isOrderly kind text (fields.map Field.name) = true) :
    before.Yields after [.branch ⟨kind, some ⟨before.start, after.prevEnd⟩, text⟩ fields] := by
  obtain ⟨tokens, passes, covers⟩ := read
  have someToken := covers.tokens_ne_nil (List.cons_ne_nil _ _)
  exact branch_of_tokens someToken passes (held ▸ covers) orderly

/-- A branch from a mark on. -/
theorem branch_of_mark {mark : TokenKind} (next : cursor.next? = some mark)
    (isMark : mark.isMark = true) (read : cursor.advance.Yields after drafts)
    (held : fields.flatMap Field.contents = drafts)
    (orderly : isOrderly kind text (fields.map Field.name) = true) :
    cursor.Yields after [.branch ⟨kind, some ⟨cursor.start, after.prevEnd⟩, text⟩ fields] := by
  obtain ⟨token, _, ahead, rfl⟩ := exists_of_next? next
  obtain ⟨tokens, passes, covers⟩ := read
  exact branch_of_tokens (List.cons_ne_nil token tokens) ((Passes.advance ahead).append passes)
    (.mark isMark (held ▸ covers)) orderly

/-- A branch from an opening bracket to its closing one. -/
theorem branch_of_brackets {left right : String} (pair : (left, right) ∈ bracketPairs)
    (opens : cursor.atPunct left = true) (inner : cursor.advance.Yields last drafts)
    (closes : last.atPunct right = true) (held : fields.flatMap Field.contents = drafts)
    (orderly : isOrderly kind text (fields.map Field.name) = true) :
    cursor.Yields last.advance
      [.branch ⟨kind, some ⟨cursor.start, last.advance.prevEnd⟩, text⟩ fields] := by
  obtain ⟨tokens, someToken, passes, covers⟩ := brackets_covered pair opens inner closes
  exact branch_of_tokens someToken passes (held ▸ covers) orderly

/-- A loop over its body and the test behind it, with a mark between them. -/
theorem loop {test body : Draft} {mark : TokenKind} (readBody : before.Yields middle [body])
    (next : middle.next? = some mark) (isMark : mark.isMark = true)
    (readTest : middle.advance.Yields after [test]) :
    before.Yields after [.branch ⟨"DoWhileStatement", some ⟨before.start, after.prevEnd⟩, none⟩
      [.single "test" test, .single "body" body]] := by
  obtain ⟨turn, _, ahead, rfl⟩ := exists_of_next? next
  obtain ⟨front, passesFront, coversFront⟩ := readBody
  obtain ⟨back, passesBack, coversBack⟩ := readTest
  have passes : before.Passes (front ++ turn :: back) after :=
    passesFront.append ((Passes.advance ahead).append passesBack)
  have someToken : front ++ turn :: back ≠ [] := List.append_ne_nil_of_right_ne_nil _ (List.cons_ne_nil _ _)
  have first := List.head?_eq_some_head someToken
  have last := List.getLast?_eq_some_getLast someToken
  rw [passes.span first last]
  refine ⟨front ++ turn :: back, passes, ?_⟩
  simpa only [List.append_nil] using Covers.loop first last coversFront isMark coversBack .nil

end Yields

/-- Drafts cover the tokens up to a closing punctuator, and the cursor behind it is reached. -/
def YieldsUpTo (close : String) (before : Cursor) (drafts : List Draft) (after : Cursor) : Prop :=
  ∃ last, before.Yields last drafts ∧ last.atPunct close = true ∧ after = last.advance

/-- A draft in front of drafts in a list is covered with them. -/
theorem YieldsUpTo.cons {close : String} {draft : Draft} (first : before.Yields middle [draft])
    (rest : middle.YieldsUpTo close drafts after) :
    before.YieldsUpTo close (draft :: drafts) after := by
  obtain ⟨last, yields, closes, same⟩ := rest
  exact ⟨last, first.append yields, closes, same⟩

end Cursor

end SyntaxNav.Script

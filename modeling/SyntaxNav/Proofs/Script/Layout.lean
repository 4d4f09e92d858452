import SyntaxNav.Proofs.Script.RelocatedGrammar
import SyntaxNav.Proofs.Script.Respacing
import SyntaxNav.Proofs.Script.SpanGeometry

/-! # Layout does not change the tree

Blanks and comments matter to a script only where they put a newline before a token. So its tokens,
written again with one newline or one space in front of each, parse as the script does: to a tree with
the same kinds, texts and slots, or to an error with the same message. Readers do not look at
positions, so it is enough that the two scans agree once all positions are moved to one place.
-/

namespace SyntaxNav

/-- What a label says apart from its position. -/
def Label.content (label : Label) : String × Option String :=
  (label.kind, label.text)

/-- What a tree says apart from its positions and the numbers of its nodes. -/
def Tree.content (tree : Tree) : SlotTree (String × Option String) :=
  tree.root.relabel fun node => node.toLabel.content

/-- Two parses give trees with the same content or errors with the same message. -/
def ParsesAlike : Except ParseFailure Tree → Except ParseFailure Tree → Prop
  | .ok one, .ok other => one.content = other.content
  | .error (.malformed one), .error (.malformed other) => one.message = other.message
  | _, _ => False

namespace Script

def nowhere : Pos → Pos := fun _ => .origin

/-- What a parse gives, with all positions moved to one place. -/
def unplaced (result : Except Error Draft) : Except Error Draft :=
  (result.map (Draft.relocate nowhere)).mapError (Error.relocate nowhere)

private theorem relocate_nowhere_of_content {tokens others : List Token}
    (same : tokens.map Token.content = others.map Token.content) :
    tokens.map (Token.relocate nowhere) = others.map (Token.relocate nowhere) := by
  -- All that is left of a token is its content.
  let place (content : TokenKind × Bool) : Token := ⟨content.1, ⟨.origin, .origin⟩, content.2⟩
  have again := congrArg (List.map place) same
  rwa [List.map_map, List.map_map] at again

private theorem content_of_relocate {one other : Draft} {move : Pos → Pos}
    (same : one.relocate move = other.relocate move) :
    one.relabel Label.content = other.relabel Label.content := by
  have again := congrArg (SlotTree.relabel Label.content) same
  rwa [Draft.relocate, Draft.relocate, SlotTree.relabel_relabel, SlotTree.relabel_relabel] at again

/-- Tokens with the same content are parsed alike. -/
theorem parseTokens_of_content {tokens others : List Token}
    (same : tokens.map Token.content = others.map Token.content) (tokensEnd othersEnd : Pos) :
    unplaced (parseTokens tokens tokensEnd) = unplaced (parseTokens others othersEnd) := by
  rw [unplaced, unplaced, ← parseTokens_relocate rfl, ← parseTokens_relocate rfl,
    relocate_nowhere_of_content same]
  rfl

/-- A source without an error of the tokenizer is parsed from its tokens. -/
theorem parse_of_scan {source : String} (clean : (scan source.toList).error = none) :
    parse source = parseTokens (scan source.toList).tokens (Pos.origin.after source.toList) := by
  simp only [parse, clean]

/-- A source that is parsed has no error of the tokenizer. -/
theorem scan_of_parse {source : String} {draft : Draft} (parsed : parse source = .ok draft) :
    (scan source.toList).error = none := by
  simp only [parse] at parsed
  split at parsed
  · cases parsed
  · assumption

/-- Drafts and errors that agree but for their positions become trees and errors that do. -/
theorem toTree_parsesAlike {source other : String}
    (same : unplaced (parse source) = unplaced (parse other))
    (id otherId : TreeId) : ParsesAlike (toTree id source) (toTree otherId other) := by
  rcases toTree_cases id source with ⟨error, failed, result⟩ | ⟨tree, drafted, result, -, -⟩ <;>
    rcases toTree_cases otherId other with
      ⟨otherError, otherFailed, otherResult⟩ | ⟨otherTree, otherDrafted, otherResult, -, -⟩
  · rw [failed, otherFailed] at same
    rw [result, otherResult]
    have sameError : error.relocate nowhere = otherError.relocate nowhere := Except.error.inj same
    have sameMessage := congrArg (·.fault.message) sameError
    exact sameMessage
  · rw [failed, otherDrafted] at same
    cases same
  · rw [drafted, otherFailed] at same
    cases same
  · rw [drafted, otherDrafted] at same
    rw [result, otherResult]
    have sameContent := content_of_relocate (Except.ok.inj same)
    rwa [SlotTree.relabel_relabel, SlotTree.relabel_relabel] at sameContent

/-- The tokens of a script with one newline or one space in front of each are scanned as they were, and
they parse to a tree with the same kinds, texts and slots or to an error with the same message. -/
theorem layout_keeps_parse (id otherId : TreeId) (source : String) (tokens : List Token)
    (clean : Tokenizer.tokens.of source.toList = .ok tokens) :
    let respaced := String.ofList (respace tokens)
    ∃ again, Tokenizer.tokens.of respaced.toList = .ok again ∧
      again.map Token.content = tokens.map Token.content ∧
      ParsesAlike (language.parse id source).value (language.parse otherId respaced).value := by
  intro respaced
  have scanned := Tokenizer.tokens_of_eq_ok_iff.mp clean
  have faultless : (scan source.toList).error = none := by rw [scanned]
  have scans : Scans .origin source.toList tokens := by
    have scans := scanFrom_scans faultless
    rwa [← scan, scanned] at scans
  obtain ⟨again, scansAgain, same⟩ := scans.respaced .origin
  have scannedAgain : scan respaced.toList = ⟨again, none⟩ := by
    rw [String.toList_ofList]
    exact scansAgain.scanFrom_eq
  have faultlessAgain : (scan respaced.toList).error = none := by rw [scannedAgain]
  refine ⟨again, Tokenizer.tokens_of_eq_ok_iff.mpr scannedAgain, same, toTree_parsesAlike ?_ id otherId⟩
  rw [parse_of_scan faultless, parse_of_scan faultlessAgain, scanned, scannedAgain]
  exact parseTokens_of_content same.symm _ _

theorem update_behind_comment_parses_alike :
    (∃ tokens, Tokenizer.tokens.of "let a=1.//x\n/*\n*/++b/*?*/.c- -.5".toList = .ok tokens) ∧
      ParsesAlike (language.parse 0 "let a=1.//x\n/*\n*/++b/*?*/.c- -.5").value
        (language.parse 1 " let a = 1.\n++ b . c - - .5").value := by
  have clean : (scan "let a=1.//x\n/*\n*/++b/*?*/.c- -.5".toList).error = none := by
    decide +kernel
  have respaced : String.ofList (respace (scan "let a=1.//x\n/*\n*/++b/*?*/.c- -.5".toList).tokens) =
      " let a = 1.\n++ b . c - - .5" := by
    decide +kernel
  have tokenized := Tokenizer.tokens_of_clean clean
  obtain ⟨-, -, -, alike⟩ := layout_keeps_parse 0 1 _ _ tokenized
  rw [respaced] at alike
  exact ⟨⟨_, tokenized⟩, alike⟩

end Script

end SyntaxNav

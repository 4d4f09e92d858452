import SyntaxNav.Proofs.Script.MadeStatements
import SyntaxNav.Proofs.Script.Tokenizing

/-! # Making trees

The tree of a source is made while its tokens are read, and it is the tree that the draft of the source grows
into: the maker calls the builder for the same nodes in the same order. So neither a slice of the source nor
a call of the builder stops a parse, and what is known of the draft of a source is known of its tree.
-/

namespace SyntaxNav.Script

/-- Making a tree from tokens gives the tree of their draft, or the first error in them. -/
theorem makeTree_eq (id : TreeId) (tokens : List Token) (sourceEnd : Pos) :
    makeTree id tokens sourceEnd =
      match parseTokens tokens sourceEnd with
      | .error error => .error (.error error)
      | .ok draft => (draft.toTree makingOrder id).mapError Stop.defect := by
  have mirrors := program_mirrors (readWithin_mirrors (unrollings tokens.length)) .empty
    (.first tokens sourceEnd)
  unfold makeTree parseTokens
  generalize program (m := Reader) (Phrase.readWithin (unrollings tokens.length))
    (.first tokens sourceEnd) = read at mirrors ⊢
  cases read with
  | error error after =>
    obtain ⟨later, made⟩ := mirrors
    simp only [made]
  | ok draft after =>
    obtain ⟨root, later, made, planted⟩ := mirrors
    rw [Makes] at planted
    simp only [made, Draft.toTree, planted, bind, Except.bind]
    cases later.finish id root <;> rfl

/-- The tree of a source is the tree of its draft. -/
theorem toTree_eq (id : TreeId) (source : String) :
    toTree id source =
      match parse source with
      | .error error => .error (.malformed error.toParseError)
      | .ok draft =>
        match draft.toTree makingOrder id with
        | .ok tree => .ok tree
        | .error defect => .error (.defect defect) := by
  unfold toTree parse
  rw [Tokenizer.tokens_of, Tokenizer.endPos_of]
  simp only
  generalize scan source.toList = scanned
  obtain ⟨tokens, _ | error⟩ := scanned
  · simp only [bind, Except.bind, makeTree_eq]
    cases parseTokens tokens (Pos.origin.after source.toList) with
    | error error => rfl
    | ok draft =>
      simp only
      cases draft.toTree makingOrder id <;> rfl
  · rfl

/-- A source with a draft has tokens without a fault. -/
theorem tokens_of_parse {source : String} {draft : Draft} (parsed : parse source = .ok draft) :
    Tokenizer.tokens.of source.toList = .ok (scan source.toList).tokens := by
  apply Tokenizer.tokens_of_clean
  unfold parse at parsed
  simp only at parsed
  split at parsed
  · cases parsed
  · assumption

end SyntaxNav.Script

import SyntaxNav.Proofs.Script.Scanner
import SyntaxNav.Script.Grammar
import SyntaxNav.Tree.Builder

/-! # Reading drafts

The grammar is also read without a builder: then the handle of a node is the draft of the tree below it,
and a reader is a function of its cursor alone. A failed reader leaves its cursor where it failed.
-/

namespace SyntaxNav.Script

/-- A reader moves a cursor and gives a result, or an error. -/
abbrev Reader := EStateM Error Cursor

instance : Making Reader Draft where
  make label fields := return .branch label fields

abbrev PhraseReader := Phrase → Reader Draft

def leaf (kind : String) (token : Token) : Draft :=
  .node ⟨kind, some token.span, some token.kind.text⟩ []

/-- The draft of a list of tokens, or the first error in it. -/
def parseTokens (tokens : List Token) (sourceEnd : Pos) : Except Error Draft :=
  match program (m := Reader) (Phrase.readWithin (unrollings tokens.length)) (.first tokens sourceEnd) with
  | .ok draft _ => .ok draft
  | .error error _ => .error error

/-- The draft of a source. A fault in a token comes before all others. -/
def parse (source : String) : Except Error Draft :=
  let text := source.toList
  let scanned := scan text
  match scanned.error with
  | some error => .error error
  | none => parseTokens scanned.tokens (Pos.origin.after text)

/-- The order in which the nodes of a script are made: a loop with its test behind its body makes the
body first. -/
def makingOrder : MakingOrder :=
  fun kind => kind = "DoWhileStatement"

section Sequence

variable {ε σ α β : Type} {first : EStateM ε σ α} {before after : σ}

/-- What follows a reader that succeeds starts from its result and its state. -/
theorem bind_ok {value : α} (success : first before = .ok value after) (next : α → EStateM ε σ β) :
    (first >>= next) before = next value after := by
  change EStateM.bind first next before = _
  simp only [EStateM.bind, success]

/-- What follows a reader that fails is left out. -/
theorem bind_error {error : ε} (failure : first before = .error error after)
    (next : α → EStateM ε σ β) : (first >>= next) before = .error error after := by
  change EStateM.bind first next before = _
  simp only [EStateM.bind, failure]

end Sequence

section Equations

variable {α : Type}

@[simp] theorem make_draft (label : Label) (fields : List (Field Draft)) :
    (Making.make label fields : Reader Draft) = pure (.branch label fields) := rfl

@[simp] theorem makeLeaf_draft (kind : String) (token : Token) :
    (makeLeaf kind token : Reader Draft) = pure (leaf kind token) := rfl

/-- The depth of a reader one level deeper is restored behind it, also after a failure. -/
theorem nested_apply (reader : Reader α) (cursor : Cursor) :
    nested reader cursor =
      if cursor.depth ≥ maxDepth then fail (m := Reader) .tooDeep cursor
      else
        match reader { cursor with depth := cursor.depth + 1 } with
        | .ok value after => .ok value { after with depth := after.depth - 1 }
        | .error error after => .error error { after with depth := after.depth - 1 } := by
  change (ite _ _ _ : Reader α) cursor = _
  split
  · rfl
  · change (tryFinally reader _ : Reader α) _ = _
    simp only [tryFinally, tryFinally', Functor.map, EStateM.map]
    cases ran : reader { cursor with depth := cursor.depth + 1 } <;> rfl

def Cursor.atLabel (cursor : Cursor) : Bool :=
  match cursor.rest with
  | ⟨.word _, _, newlineBefore⟩ :: _ => !newlineBefore
  | _ => false

/-- The error about a label is at the cursor. -/
theorem noLabel_eq :
    (noLabel : Reader Unit) = (do if (← get).atLabel then fail .jumpLabel) := by
  funext cursor
  rcases cursor with ⟨_ | ⟨⟨_ | _ | _ | _, span, _ | _⟩, rest⟩, prevEnd, sourceEnd, depth⟩ <;> rfl

end Equations

end SyntaxNav.Script

import SyntaxNav.Script.Statement

/-! # The grammar

`Phrase.production` is the equation of the grammar. Unrolling it a number of times gives a reader for
phrases; a run of `n` tokens never needs more than `5 * n + 5` unrollings, since a phrase is read behind
a further token or is one of at most five that start at the same token.
-/

namespace SyntaxNav.Script

variable {m : Type → Type} {Handle : Type} [Monad m] [MonadStateOf Cursor m]
  [MonadExceptOf Error m] [MonadFinally m] [Making m Handle]

/-- How a phrase is read, given the reader for the phrases inside it. -/
def Phrase.production (read : Phrase → m Handle) : Phrase → m Handle
  | .statement => nested (Script.statement read)
  | .assignment => Script.assignment read
  | .binary least allowIn => Script.binary read least allowIn
  | .unary => nested (Script.unary read)
  | .construction => Script.construction read

/-- Reads a phrase with the grammar unrolled a number of times. -/
def Phrase.readWithin : Nat → Phrase → m Handle
  | 0, _ => fail .stalled
  | limit + 1, phrase => phrase.production (readWithin limit)

/-- How often the grammar is unrolled for a number of tokens. -/
def unrollings (tokens : Nat) : Nat := 5 * tokens + 5

def program (read : Phrase → m Handle) : m Handle := do
  let body ← many atEnd (read .statement)
  Making.make ⟨"Program", some ⟨.origin, (← get).sourceEnd⟩, none⟩ [.list "body" body]

def Cursor.first (tokens : List Token) (sourceEnd : Pos) : Cursor :=
  ⟨tokens, .origin, sourceEnd, 0⟩

end SyntaxNav.Script

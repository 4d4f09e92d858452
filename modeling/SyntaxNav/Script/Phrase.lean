import SyntaxNav.Script.Cursor

/-! # Phrases

Phrases are the parts of the grammar that contain one another. The reader of each production takes the
reader of phrases as an argument, so that no production refers to itself, and the grammar is the one
equation that says how a phrase is read in terms of the phrases inside it.
-/

namespace SyntaxNav.Script

/-- The parts of the grammar that contain one another. -/
inductive Phrase where
  /-- A statement or declaration. -/
  | statement
  /-- An expression without a comma at its top. -/
  | assignment
  /-- Operands joined by operators of at least a precedence, among them `in` if it is allowed. -/
  | binary (least : Nat) (allowIn : Bool)
  /-- An operand with the operators that apply to it alone. -/
  | unary
  /-- A construction of an object, from the word `new`. -/
  | construction
deriving DecidableEq, Repr

variable {m : Type → Type} {Handle : Type} [Monad m] [MonadStateOf Cursor m]
  [MonadExceptOf Error m] [MonadFinally m] [Making m Handle] (read : Phrase → m Handle)

/-- Reads one or more items with commas between them; several make a sequence. -/
def sequence (item : m Handle) : m Handle := do
  let start ← here
  match ← commaSeparated item with
  | [only] => return only
  | items => node "SequenceExpression" start none [.list "expressions" items]

def expression : m Handle :=
  sequence (read .assignment)

/-- An expression in parentheses, which leave no trace. -/
def parenthesized : m Handle := do
  expectPunct "("
  let inner ← expression read
  expectPunct ")"
  return inner

end SyntaxNav.Script

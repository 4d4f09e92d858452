import SyntaxNav.Script.Phrase

/-! # Names

Names that are bound, names of properties, and keys of properties, which may also be computed.
-/

namespace SyntaxNav.Script

variable {m : Type → Type} {Handle : Type} [Monad m] [MonadStateOf Cursor m]
  [MonadExceptOf Error m] [MonadFinally m] [Making m Handle] (read : Phrase → m Handle)

def bindingName : m Handle := do
  match (← get).rest with
  | [] => failExpected "an identifier"
  | token :: _ =>
    match token.kind with
    | .word name =>
      if isKeyword name then
        failExpected "an identifier"
      else
        advance
        makeLeaf "Identifier" token
    | .punct "\x7b" | .punct "[" => failAt token.span.start .destructuring
    | _ => failExpected "an identifier"

/-- The name of a property after a point, which may be a keyword. -/
def propertyName : m Handle := do
  match (← get).rest with
  | [] => failExpected "a property name"
  | token :: _ =>
    match token.kind with
    | .word _ =>
      advance
      makeLeaf "Identifier" token
    | _ => failExpected "a property name"

/-- The key of a property: a word, a string, a number, or an expression in brackets. -/
def propertyKey : m Handle := do
  match (← get).rest with
  | [] => failExpected "a property name"
  | token :: _ =>
    match token.kind with
    | .word _ =>
      advance
      makeLeaf "Identifier" token
    | .string _ =>
      advance
      makeLeaf "StringLiteral" token
    | .number _ =>
      advance
      makeLeaf "NumericLiteral" token
    | .punct "[" =>
      advance
      let key ← read .assignment
      expectPunct "]"
      return key
    | .punct _ => failExpected "a property name"

end SyntaxNav.Script

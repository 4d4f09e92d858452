import SyntaxNav.Script.Token

/-! # Operators

The operators between two operands, with their precedences, and the operators that assign.
-/

namespace SyntaxNav.Script

/-- An operator between two operands. -/
structure Operator where
  text : String
  precedence : Nat
deriving DecidableEq, Repr

namespace Operator

def precedence? : String → Option Nat
  | "??" => some 1
  | "||" => some 2
  | "&&" => some 3
  | "|" => some 4
  | "^" => some 5
  | "&" => some 6
  | "==" | "!=" | "===" | "!==" => some 7
  | "<" | ">" | "<=" | ">=" | "instanceof" | "in" => some 8
  | "<<" | ">>" | ">>>" => some 9
  | "+" | "-" => some 10
  | "*" | "/" | "%" => some 11
  | "**" => some 12
  | _ => none

/-- The spelling of a token that may be an operator: a punctuator, or one of two words. -/
def spelling? : TokenKind → Option String
  | .punct text => some text
  | .word "instanceof" => some "instanceof"
  | .word "in" => some "in"
  | _ => none

def ofToken? (kind : TokenKind) : Option Operator := do
  let text ← spelling? kind
  let precedence ← precedence? text
  return ⟨text, precedence⟩

/-- Whether an operator takes a further one like itself into its right operand. -/
def isRightAssociative (operator : Operator) : Bool :=
  operator.text = "**"

/-- The least precedence of an operator in the right operand. -/
def rightLeast (operator : Operator) : Nat :=
  if operator.isRightAssociative then operator.precedence else operator.precedence + 1

def nodeKind (operator : Operator) : String :=
  match operator.text with
  | "&&" | "||" | "??" => "LogicalExpression"
  | _ => "BinaryExpression"

end Operator

def assignmentOperators : List String :=
  ["=", "+=", "-=", "*=", "/=", "%=", "**=", "<<=", ">>=", ">>>=", "&=", "|=", "^="]

def assignmentOperator? : TokenKind → Option String
  | .punct text => if assignmentOperators.contains text then some text else none
  | _ => none

/-- The operator in front of an operand that a token is, with the kind of node it makes. -/
def leadingOperator? : TokenKind → Option (String × String)
  | .punct "!" => some ("UnaryExpression", "!")
  | .punct "-" => some ("UnaryExpression", "-")
  | .punct "+" => some ("UnaryExpression", "+")
  | .punct "~" => some ("UnaryExpression", "~")
  | .word "typeof" => some ("UnaryExpression", "typeof")
  | .word "void" => some ("UnaryExpression", "void")
  | .word "delete" => some ("UnaryExpression", "delete")
  | .punct "++" => some ("UpdateExpression", "++")
  | .punct "--" => some ("UpdateExpression", "--")
  | _ => none

end SyntaxNav.Script

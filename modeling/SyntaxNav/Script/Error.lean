import SyntaxNav.Defect
import SyntaxNav.Script.Token

/-! # What can be wrong with a script

A fault says what is wrong; an error says where. What stops the reading of a script is an error in it, or
a broken promise of the reader.
-/

namespace SyntaxNav.Script

/-- What is wrong with a script. -/
inductive Fault where
  /-- A block comment has no end. -/
  | openComment
  /-- A string has no end on its line. -/
  | openString
  /-- A template literal starts. -/
  | template
  /-- A character starts no token. -/
  | strayCharacter (c : Char)
  /-- Something else was expected in place of a token, or of the end of the input. -/
  | expected (wanted : String) (found : Option TokenKind)
  /-- Statements and expressions are nested beyond the limit. -/
  | tooDeep
  /-- A declaration that belongs to modules starts. -/
  | moduleDeclaration (word : String)
  /-- A loop runs over the elements or keys of a value. -/
  | loopOver
  /-- A jump names a label. -/
  | jumpLabel
  /-- A function is a generator. -/
  | generator
  /-- A pattern stands in place of a name. -/
  | destructuring
  /-- An optional access is not by name. -/
  | optionalAccess
  /-- A phrase was read to the limit of its length without an end. No script leads here. -/
  | stalled
deriving DecidableEq, Repr

def Fault.message : Fault → String
  | openComment => "Unterminated comment."
  | openString => "Invalid string."
  | template => "Template literals are not supported."
  | strayCharacter c => "Unexpected character '" ++ String.singleton c ++ "'."
  | expected wanted found =>
    "Expected " ++ wanted ++ ", found " ++ found.elim "end of input" TokenKind.describe ++ "."
  | tooDeep => "Nesting is too deep."
  | moduleDeclaration word => "'" ++ word ++ "' declarations are not supported."
  | loopOver => "'for-in' and 'for-of' loops are not supported."
  | jumpLabel => "Labels are not supported."
  | generator => "Generators are not supported."
  | destructuring => "Destructuring patterns are not supported."
  | optionalAccess => "Optional calls and computed members are not supported."
  | stalled => "The phrase has no end."

structure Error where
  pos : Pos
  fault : Fault
deriving DecidableEq, Repr

/-- Why the reading of a script stops. -/
inductive Stop where
  /-- The script is wrong. -/
  | error (error : Error)
  /-- The reader broke a promise. -/
  | defect (defect : Defect)
deriving DecidableEq, Repr

end SyntaxNav.Script

import SyntaxNav.Journal.Entry
import SyntaxNav.Tree.Basic

/-! # Languages

A language has a name and turns a text into a tree, to which it gives the identity it is told to.
-/

namespace SyntaxNav

/-- Why a text is no text of a language, and where, if that can be said. -/
structure ParseError where
  pos : Option Pos
  message : String
deriving DecidableEq, Repr

/-- A parse error is written with its position in front. -/
def ParseError.render (error : ParseError) : String :=
  error.pos.elim "" (fun pos => "at " ++ pos.render ++ ": ") ++ error.message

/-- Why there is no tree of a text. -/
inductive ParseFailure where
  /-- The text is malformed. -/
  | malformed (error : ParseError)
  /-- The language broke a promise. -/
  | defect (defect : Defect)
deriving DecidableEq, Repr

/-- A way to turn texts into trees. -/
structure Language where
  name : String
  parse : TreeId → String → Noted (Except ParseFailure Tree)

end SyntaxNav

import SyntaxNav.Language
import SyntaxNav.Script.Grammar
import SyntaxNav.Script.Lexer
import SyntaxNav.Tree.Builder

/-! # Scripts as a language

A maker reads the grammar and calls a builder for every node that it meets, while it reads; nodes are
passed on by their numbers. The language of scripts finishes the tree under the last node made, and
notes how each parse ended.
-/

namespace SyntaxNav.Script

/-- The cursor of a maker and the nodes made so far. -/
structure Workbench where
  cursor : Cursor
  builder : Builder

/-- A reader that makes the nodes of a tree. -/
abbrev Maker := EStateM Stop Workbench

instance : MonadStateOf Cursor Maker where
  get bench := .ok bench.cursor bench
  set cursor bench := .ok () { bench with cursor }
  modifyGet change bench :=
    let (value, cursor) := change bench.cursor
    .ok value { bench with cursor }

instance : MonadExceptOf Error Maker where
  throw error bench := .error (.error error) bench
  tryCatch maker handle bench :=
    match maker bench with
    | .error (.error error) bench => handle error bench
    | result => result

instance : Making Maker NodeId where
  make label fields
    | ⟨cursor, builder⟩ =>
      match builder.branch label fields with
      | .ok (number, builder) => .ok number ⟨cursor, builder⟩
      | .error defect => .error (.defect defect) ⟨cursor, .empty⟩

def makeTree (id : TreeId) (tokens : List Token) (sourceEnd : Pos) : Except Stop Tree :=
  let maker : Maker NodeId := program (Phrase.readWithin (unrollings tokens.length))
  match maker ⟨.first tokens sourceEnd, .empty⟩ with
  | .error stop _ => .error stop
  | .ok root bench =>
    match bench.builder.finish id root with
    | .ok tree => .ok tree
    | .error defect => .error (.defect defect)

def Error.toParseError (error : Error) : ParseError :=
  ⟨some error.pos, error.fault.message⟩

/-- Why there is no tree, as every language reports it. -/
def Stop.toFailure : Stop → ParseFailure
  | error found => .malformed found.toParseError
  | defect found => .defect found

/-- The tree of a source. A fault in a token comes before all others. -/
@[irreducible] def toTree (id : TreeId) (source : String) : Except ParseFailure Tree :=
  Except.mapError Stop.toFailure do
    let tokens ← Tokenizer.tokens.of source.toList
    let sourceEnd ← Tokenizer.endPos.of source.toList
    makeTree id tokens sourceEnd

def parseNote : Except ParseFailure Tree → Noted Unit
  | .ok tree => .note .debug ("Parsed " ++ toString tree.numNodes ++ " nodes")
  | .error (.malformed error) => .note .debug ("Parse failed: " ++ error.render)
  | .error (.defect _) => pure ()

def language : Language where
  name := "JavaScript"
  parse id source := do
    let result := toTree id source
    parseNote result
    return result

end SyntaxNav.Script

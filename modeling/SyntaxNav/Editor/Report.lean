import SyntaxNav.Editor.Session
import SyntaxNav.Text.Quoted

/-! # Reports of commands

What a command did, in words and as JSON. Members of JSON objects are in alphabetical order.
-/

namespace SyntaxNav

open Text

def Pos.toJson (pos : Pos) : String :=
  Json.object [("column", toString pos.column), ("line", toString pos.line)]

def Span.toJson (span : Span) : String :=
  Json.object [("end", span.stop.toJson), ("start", span.start.toJson)]

namespace Outcome

def toJson : Outcome → String
  | target kind span =>
    Json.object [("kind", Json.string kind), ("outcome", Json.string "target"),
      ("span", span.elim "null" Span.toJson)]
  | cut deleted cursor =>
    Json.object [("cursor", cursor.toJson), ("deleted", deleted.toJson),
      ("outcome", Json.string "cut")]
  | noTarget => Json.object [("outcome", Json.string "no_target")]

def describe : Outcome → String
  | target kind (some span) => kind ++ " " ++ span.render
  | target kind none => kind ++ " (no span)"
  | cut deleted cursor => "deleted " ++ deleted.render ++ ", cursor at " ++ cursor.render
  | noTarget => "no target"

end Outcome

end SyntaxNav

import SyntaxNav.Editor.View
import SyntaxNav.Language
import SyntaxNav.Navigation.Noted

/-! # Editing sessions

A session runs commands on a view. It keeps the tree of the text it parsed last, and the path to the
current node of that tree. A text is parsed only when it differs from the one parsed last; its tree then
takes the place of the old one, and no node is current. A text that cannot be parsed changes nothing.
-/

namespace SyntaxNav

/-- What a command did. -/
inductive Outcome where
  /-- A node became current. The view shows it, unless it has no span. -/
  | target (kind : String) (span : Option Span)
  /-- Text was deleted, and the cursor moved. -/
  | cut (deleted : Span) (cursor : Pos)
  /-- There was nowhere to go. -/
  | noTarget
deriving DecidableEq, Repr

def Outcome.isCut : Outcome → Bool
  | cut _ _ => true
  | _ => false

/-- Why a command failed. -/
inductive SessionError where
  /-- The text of the view cannot be parsed. -/
  | parse (error : ParseError)
  /-- The span to delete does not lie in the text. -/
  | outOfRange (span : Span)
  /-- A promise was broken. -/
  | defect (defect : Defect)
deriving DecidableEq, Repr

namespace SessionError

def ofParseFailure : ParseFailure → SessionError
  | .malformed error => .parse error
  | .defect broken => .defect broken

def message : SessionError → String
  | parse error => "Cannot parse text " ++ error.render
  | outOfRange span => "Span " ++ span.render ++ " is not within the text"
  | defect broken => broken.message

end SessionError

/-- A text and the tree it was parsed to. -/
structure ParsedText where
  text : String
  tree : Tree

/-- A language, a field order, the text parsed last, the path to the current node, and how many texts
were parsed. The last is the identity of the next tree, so that no two trees share one. -/
structure Session where
  language : Language
  order : FieldOrder
  parsed : Option ParsedText
  current : Option Path
  parses : Nat

/-- What a command leaves behind. -/
structure Turn where
  result : Except SessionError Outcome
  session : Session
  view : View

namespace Session

def start (language : Language) (order : FieldOrder) : Session :=
  ⟨language, order, none, none, 0⟩

/-- Moves anchor and head from outside. No node is current any more. -/
def reposition (session : Session) (view : View) (anchor head : Pos) : Session × View :=
  ({ session with current := none }, { view with anchor, head })

/-- The session after a text was parsed to a tree. -/
def adopt (session : Session) (text : String) (tree : Tree) : Session :=
  { session with parsed := some ⟨text, tree⟩, current := none, parses := session.parses + 1 }

/-- Whether a text is the one parsed last. -/
def keeps (session : Session) (text : String) : Bool :=
  session.parsed.any (·.text = text)

def parse (session : Session) (text : String) : Noted (Except ParseFailure Session) := do
  match ← session.language.parse session.parses text with
  | .error failure => return .error failure
  | .ok tree =>
    .note .debug ("Re-parsed " ++ session.language.name ++ " text; navigation reset")
    return .ok (session.adopt text tree)

/-- The session that keeps the tree of a text: it is parsed unless it was the last. -/
def refresh (session : Session) (text : String) : Noted (Except ParseFailure Session) :=
  if session.keeps text then return .ok session else session.parse text

/-- Where a command starts from: the current node, or else the node at the cursor. -/
def origin (session : Session) (navigator : Navigator) (cursor : Span) : Noted (Option Path) :=
  match session.current with
  | some path => return some path
  | none => navigator.notedLocate cursor

def seekBeside (session : Session) (navigator : Navigator) (direction : Direction) (cursor : Span) :
    Noted (Except Defect (Option Path)) := do
  match ← session.origin navigator cursor with
  | some path => navigator.notedStep direction path
  | none => return .ok none

/-- The path that a command leads to. A cut leads nowhere, and has to be told apart before. -/
def seek (session : Session) (navigator : Navigator) (command : Command) (cursor : Span) :
    Noted (Except Defect (Option Path)) :=
  match command with
  | .select => return .ok (← navigator.notedLocate cursor)
  | .expand => return .ok (← navigator.notedExpand cursor session.current)
  | .shrink =>
    match session.current with
    | some path => navigator.notedShrink path
    | none => return .ok none
  | .next => session.seekBeside navigator .forward cursor
  | .prev => session.seekBeside navigator .backward cursor
  | .top => return .ok ((← session.origin navigator cursor).map Navigator.topLevel)
  | .cut => return .error (.stated "Session: cut handled above")

/-- Makes the node of a path current and shows it. -/
def settle (session : Session) (tree : Tree) (command : Command) (view : View) (path : Path) : Turn :=
  match tree.lookup path.node with
  | .error defect => ⟨.error (.defect defect), session, view⟩
  | .ok node =>
    ⟨.ok (.target node.label.kind node.label.span), { session with current := some path },
      node.label.span.elim view (view.reveal command)⟩

def move (session : Session) (tree : Tree) (command : Command) (view : View) : Noted Turn := do
  match ← session.seek ⟨tree, session.order⟩ command (.point view.cursor) with
  | .error defect => return ⟨.error (.defect defect), session, view⟩
  | .ok (some path) => return session.settle tree command view path
  | .ok none =>
    .note .debug (command.name ++ ": no target")
    return ⟨.ok .noTarget, session, view⟩

/-- What is to be removed: the current node, or the node at the cursor. -/
def removalTarget (session : Session) (view : View) : RemovalTarget :=
  match session.current with
  | some path => .current path
  | none => .atSpan (.point view.cursor)

/-- Carries out a removal. No node is current afterwards. -/
def remove (session : Session) (view : View) (removal : Removal) : Noted Turn :=
  match removal.apply view.text with
  | none => return ⟨.error (.outOfRange removal.deleted), session, view⟩
  | some text => do
    .note .debug ("Cut " ++ removal.deleted.render)
    return ⟨.ok (.cut removal.deleted removal.cursor), { session with current := none },
      { view with text }.moveTo removal.cursor⟩

/-- Removes the current node, or the node at the cursor, from the text. -/
def cut (session : Session) (tree : Tree) (view : View) : Noted Turn := do
  match ← (⟨tree, session.order⟩ : Navigator).notedPlan (session.removalTarget view) with
  | .error defect => return ⟨.error (.defect defect), session, view⟩
  | .ok none => return ⟨.ok .noTarget, session, view⟩
  | .ok (some removal) => session.remove view removal

/-- Carries out a command in a tree of the text of the view. -/
def perform (session : Session) (tree : Tree) (command : Command) (view : View) : Noted Turn :=
  if command = .cut then session.cut tree view else session.move tree command view

/-- Runs a command on a view. -/
def execute (session : Session) (command : Command) (view : View) : Noted Turn := do
  match ← session.refresh view.text with
  | .error failure => return ⟨.error (.ofParseFailure failure), session, view⟩
  | .ok session =>
    match session.parsed with
    | some parsed => session.perform parsed.tree command view
    | none =>
      return ⟨.error (.defect (.stated "Session: no tree after a successful parse")), session, view⟩

end Session

end SyntaxNav

import SyntaxNav.Editor.Command
import SyntaxNav.Text.Span

/-! # Editor views

A view is a text with a selection. The selection runs from an anchor to a head, in either order; the
head is the cursor.
-/

namespace SyntaxNav

/-- A text with a selection from an anchor to a head. -/
structure View where
  text : String
  anchor : Pos
  head : Pos
deriving DecidableEq, Repr

namespace View

variable (view : View)

def cursor : Pos := view.head

def isSelecting : Bool :=
  view.anchor ≠ view.head

def isBackward : Bool :=
  view.head < view.anchor

/-- The selection, with its start in front. -/
def selection : Span :=
  if view.head < view.anchor then ⟨view.head, view.anchor⟩ else ⟨view.anchor, view.head⟩

/-- Selects a span, with the cursor at its stop. -/
def select (span : Span) : View :=
  { view with anchor := span.start, head := span.stop }

/-- Puts the cursor at a position, and selects nothing. -/
def moveTo (pos : Pos) : View :=
  { view with anchor := pos, head := pos }

/-- Shows the span that a command led to. Selecting always selects it and going to the top level never
does; the other commands keep selecting, or keep moving the cursor. -/
def reveal (command : Command) (span : Span) : View :=
  match command with
  | .select => view.select span
  | .top => view.moveTo span.start
  | _ => if view.isSelecting then view.select span else view.moveTo span.start

end View

end SyntaxNav

import SyntaxNav.Text.Position

/-! # Spans of a text

A span runs from its start up to, but not including, its stop. Nothing forces the two to be in order:
spans also come from outside, so the operations on a text check.
-/

namespace SyntaxNav

/-- A stretch of text from `start` up to `stop`. -/
structure Span where
  start : Pos
  stop : Pos
deriving DecidableEq, Repr, Inhabited

namespace Span

def point (pos : Pos) : Span := ⟨pos, pos⟩

def isEmpty (span : Span) : Bool :=
  span.start = span.stop

/-- The byte range of a span whose ends lie in the text, in order. -/
def range? (span : Span) (text : List Char) : Option (Nat × Nat) := do
  let start ← span.start.offset? text
  let stop ← span.stop.offset? text
  if start ≤ stop then some (start, stop) else none

/-- The text without a span, if the ends of the span lie in the text, in order. -/
def deleteFrom? (span : Span) (text : List Char) : Option (List Char) := do
  let kept ← span.start.before? text
  let passed ← span.stop.before? text
  if Text.byteLength kept ≤ Text.byteLength passed then
    some (kept ++ text.drop passed.length)
  else
    none

/-- A span is written as its two ends with a dash between them. -/
def render (span : Span) : String :=
  span.start.render ++ "-" ++ span.stop.render

instance : ToString Span := ⟨render⟩

end Span

end SyntaxNav

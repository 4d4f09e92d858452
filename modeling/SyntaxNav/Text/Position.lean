import SyntaxNav.Text.Basic

/-! # Positions in a text

A position is a line, counted from one, and a column, counted from zero in characters. Only a newline
character ends a line. `Pos.after` is the position reached by reading characters; `Pos.before?` goes
back from a position to the characters that stand before it.
-/

namespace SyntaxNav

/-- A line, counted from one, and a column in it, counted in characters from zero. -/
structure Pos where
  line : Nat
  column : Nat
deriving DecidableEq, Repr, Inhabited

namespace Pos

def origin : Pos := ⟨1, 0⟩

def next (pos : Pos) (c : Char) : Pos :=
  if c = '\n' then ⟨pos.line + 1, 0⟩ else ⟨pos.line, pos.column + 1⟩

/-- The position reached from another by reading a text. -/
def after (pos : Pos) (text : List Char) : Pos :=
  text.foldl next pos

@[simp] theorem after_nil (pos : Pos) : pos.after [] = pos := rfl

@[simp] theorem after_cons (pos : Pos) (c : Char) (text : List Char) :
    pos.after (c :: text) = (pos.next c).after text := rfl

/-- Reading a text is reading its two parts. -/
theorem after_append (pos : Pos) (first second : List Char) :
    pos.after (first ++ second) = (pos.after first).after second := by
  simp [after, List.foldl_append]

instance : LT Pos where
  lt p q := p.line < q.line ∨ p.line = q.line ∧ p.column < q.column

instance : LE Pos where
  le p q := p.line < q.line ∨ p.line = q.line ∧ p.column ≤ q.column

instance (p q : Pos) : Decidable (p < q) :=
  inferInstanceAs (Decidable (p.line < q.line ∨ p.line = q.line ∧ p.column < q.column))

instance (p q : Pos) : Decidable (p ≤ q) :=
  inferInstanceAs (Decidable (p.line < q.line ∨ p.line = q.line ∧ p.column ≤ q.column))

/-- The part of a text that stands before a position, if the position lies in the text. The end of a
line, just before its newline, lies in the text. -/
def before? (pos : Pos) (text : List Char) : Option (List Char) :=
  match pos.line with
  | 0 => none
  | earlier + 1 => do
    let (lines, rest) ← Text.splitLines earlier text
    let line := rest.takeWhile (· ≠ '\n')
    if pos.column ≤ line.length then some (lines ++ line.take pos.column) else none

/-- The byte offset of a position that lies in the text. -/
def offset? (pos : Pos) (text : List Char) : Option Nat :=
  (pos.before? text).map Text.byteLength

/-- A position is written as its line and its column with a colon between them. -/
def render (pos : Pos) : String :=
  toString pos.line ++ ":" ++ toString pos.column

instance : ToString Pos := ⟨render⟩

/-- A text that is not a written position. -/
structure Unreadable where
  text : String
deriving DecidableEq, Repr

def Unreadable.message (error : Unreadable) : String :=
  "Failed to parse position from '" ++ error.text ++ "', expected LINE:COLUMN"

/-- Reads a written position. Blanks may stand around both numbers; lines count from one. -/
def read? (text : List Char) : Option Pos := do
  match text.dropWhile (· ≠ ':') with
  | [] => none
  | _ :: column =>
    let line ← Text.readUnsigned? (Text.trim (text.takeWhile (· ≠ ':')))
    let column ← Text.readUnsigned? (Text.trim column)
    if line = 0 then none else some ⟨line, column⟩

/-- Reads a written position, or reports the text that is none. -/
def read (text : String) : Except Unreadable Pos :=
  match read? text.toList with
  | some pos => .ok pos
  | none => .error ⟨text⟩

end Pos

end SyntaxNav

/-! # Editor commands

The seven commands, with their names, descriptions and default key chords.
-/

namespace SyntaxNav

/-- What an editor can be asked to do. -/
inductive Command where
  | select
  | expand
  | shrink
  | next
  | prev
  | top
  | cut
deriving DecidableEq, Repr

namespace Command

/-- All commands, in the order in which they are listed. -/
def all : List Command :=
  [select, expand, shrink, next, prev, top, cut]

def name : Command → String
  | select => "select"
  | expand => "expand"
  | shrink => "shrink"
  | next => "next"
  | prev => "prev"
  | top => "top"
  | cut => "cut"

def description : Command → String
  | select => "Select the node at the cursor"
  | expand => "Select the parent of the current node"
  | shrink => "Select the first child of the current node"
  | next => "Move to the next node"
  | prev => "Move to the previous node"
  | top => "Move to the start of the enclosing top-level node"
  | cut => "Delete the current node"

def chord : Command → String
  | select => "ctrl-alt-a"
  | expand => "ctrl-alt-s"
  | shrink => "ctrl-alt-d"
  | next => "ctrl-alt-x"
  | prev => "ctrl-alt-z"
  | top => "ctrl-alt-p"
  | cut => "ctrl-alt-k"

/-- A name that no command has. -/
structure Unknown where
  name : String
deriving DecidableEq, Repr

def Unknown.message (error : Unknown) : String :=
  "Unknown command '" ++ error.name ++ "'"

def ofName (name : String) : Except Unknown Command :=
  match all.find? (·.name == name) with
  | some command => .ok command
  | none => .error ⟨name⟩

/-- Every command is found under its name. -/
theorem ofName_name (command : Command) : ofName command.name = .ok command := by
  cases command <;> rfl

end Command

end SyntaxNav

/-! # Journal entries

What happens is recorded in entries, each with a level that says how much it matters. Pure operations
hand their entries back beside their result, as a `Noted` value.
-/

namespace SyntaxNav

/-- How much an entry matters. -/
inductive Level where
  | trace
  | debug
  | info
  | warn
  | error
deriving DecidableEq, Repr, Inhabited

namespace Level

/-- All levels, from the least to the most important. -/
def all : List Level :=
  [trace, debug, info, warn, error]

/-- The place of a level among all levels. -/
def rank : Level → Nat
  | trace => 0
  | debug => 1
  | info => 2
  | warn => 3
  | error => 4

def name : Level → String
  | trace => "Trace"
  | debug => "Debug"
  | info => "Info"
  | warn => "Warn"
  | error => "Error"

def ofName? (name : String) : Option Level :=
  all.find? (·.name == name)

end Level

/-- A recorded message with its level. -/
structure Entry where
  level : Level
  message : String
deriving DecidableEq, Repr

/-- An entry is written as its level in brackets, filled up to seven columns, and its message. -/
def Entry.render (entry : Entry) : String :=
  let level := "[" ++ entry.level.name ++ "]"
  level ++ String.ofList (List.replicate (7 - level.length) ' ') ++ " " ++ entry.message

/-- The line of an entry, with its end. -/
def Entry.line (entry : Entry) : String :=
  entry.render ++ "\n"

/-- A result with the entries made on the way to it. -/
structure Noted (α : Type) where
  value : α
  notes : List Entry

namespace Noted

variable {α β : Type}

instance : Monad Noted where
  pure value := ⟨value, []⟩
  bind noted next := ⟨(next noted.value).value, noted.notes ++ (next noted.value).notes⟩

@[simp] theorem value_pure (value : α) : (pure value : Noted α).value = value := rfl

@[simp] theorem notes_pure (value : α) : (pure value : Noted α).notes = [] := rfl

@[simp] theorem value_bind (noted : Noted α) (next : α → Noted β) :
    (noted >>= next).value = (next noted.value).value := rfl

@[simp] theorem notes_bind (noted : Noted α) (next : α → Noted β) :
    (noted >>= next).notes = noted.notes ++ (next noted.value).notes := rfl

def note (level : Level) (message : String) : Noted Unit :=
  ⟨(), [⟨level, message⟩]⟩

@[simp] theorem value_note (level : Level) (message : String) : (note level message).value = () := rfl

end Noted

end SyntaxNav

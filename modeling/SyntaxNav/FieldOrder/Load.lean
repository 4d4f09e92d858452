import SyntaxNav.FieldOrder
import SyntaxNav.Record.Document

/-! # Field orders in files

A field order is written in record notation, as a list of kinds with their fields.
-/

namespace SyntaxNav.FieldOrder

/-- Why a text is no field order. -/
inductive LoadError where
  /-- The text of a file is not in record notation. -/
  | unreadable (file : String) (error : Record.Error)
  /-- The entries make no field order. -/
  | entries (error : Error)
deriving DecidableEq, Repr

def LoadError.message : LoadError → String
  | unreadable file error => "In " ++ file ++ " at " ++ error.place ++ ": " ++ error.fault.message
  | entries error => error.message

def recordShape : Record.Shape (List (String × List String)) where
  name := "SlotSchemaSpec"
  fields := [("kinds", fun _ => Record.list (Record.pair Record.string (Record.list Record.string)))]

def ofText (file text : String) : Except LoadError FieldOrder :=
  match Record.readText (Record.record recordShape ["kinds"] []) text with
  | .error error => .error (.unreadable file error)
  | .ok entries =>
    match ofEntries entries with
    | .error error => .error (.entries error)
    | .ok order => .ok order

/-- Reads a field order from the text of a file, and notes it. -/
def load (file text : String) : Noted (Except LoadError FieldOrder) :=
  match ofText file text with
  | .error error => return .error error
  | .ok order => return .ok (← order.loaded file)

end SyntaxNav.FieldOrder

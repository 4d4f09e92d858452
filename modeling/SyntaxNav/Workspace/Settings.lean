import SyntaxNav.FieldOrder.Load
import SyntaxNav.Journal.Journal

/-! # Settings

Settings name a file with a field order, a file for the journal, and the least level that the journal
accepts. They are written in record notation; what is left out has a default.
-/

namespace SyntaxNav

/-- A file with a field order, a file for the journal, and the least level of the journal. -/
structure Settings where
  orderFile : Option String
  journalFile : Option String
  journalLevel : Level
deriving DecidableEq, Repr

namespace Settings

/-- The settings where nothing is set. -/
def default : Settings := ⟨none, none, .warn⟩

/-- Where settings are looked for if no file is named. -/
def defaultFile : String := "structnav.ron"

/-- Why settings cannot be had or followed. -/
inductive Error where
  /-- A file cannot be read or opened. -/
  | file (path : String) (error : FileError)
  /-- The text of a file is no record of settings. -/
  | unreadable (path : String) (error : Record.Error)
  /-- The text of a file is no field order. -/
  | order (error : FieldOrder.LoadError)
deriving DecidableEq, Repr

def Error.message : Error → String
  | file path error => "Failed to read " ++ path ++ ": " ++ error.message
  | unreadable path error =>
    "Invalid settings in " ++ path ++ ": " ++ error.place ++ ": " ++ error.fault.message
  | order error => error.message

def recordShape : Record.Shape Settings where
  name := "Settings"
  fields := [
    ("schema", fun settings => do
      return { settings with orderFile := ← Record.option Record.string }),
    ("log_file", fun settings => do
      return { settings with journalFile := ← Record.option Record.string }),
    ("log_level", fun settings => do
      let levels := Level.all.map fun level => (level.name, level)
      return { settings with journalLevel := ← Record.variant "LogLevel" levels })]

def ofText (path text : String) : Except Error Settings :=
  match Record.readText (Record.record recordShape [] default) text with
  | .ok settings => .ok settings
  | .error error => .error (.unreadable path error)

section Effects

variable {m : Type → Type} [Monad m] (files : Files m)

def read (path : String) : m (Except Error String) := do
  match ← files.readText path with
  | .ok text => return .ok text
  | .error error => return .error (.file path error)

def load (path : String) : m (Except Error Settings) := do
  match ← read files path with
  | .ok text => return ofText path text
  | .error error => return .error error

/-- Loads settings from a named file, or from the default file if it exists. -/
def discover : Option String → m (Except Error Settings)
  | some path => load files path
  | none => do
    if ← files.isFile defaultFile then
      load files defaultFile
    else
      return .ok default

/-- The field order that settings ask for: that of their file, or the bundled one. -/
def fieldOrder (settings : Settings) : m (Noted (Except Error FieldOrder)) :=
  match settings.orderFile with
  | none => return do return .ok (← FieldOrder.loadBundled)
  | some path => do
    match ← read files path with
    | .error error => return return .error error
    | .ok text =>
      return do
        match ← FieldOrder.load path text with
        | .error error => return .error (.order error)
        | .ok order => return .ok order

def configure (settings : Settings) (journal : Journal) : m (Except Error Journal) := do
  match ← journal.configure files settings.journalLevel settings.journalFile with
  | .ok configured => return .ok configured
  | .error error => return .error (.file (settings.journalFile.getD "") error)

end Effects

end Settings

end SyntaxNav

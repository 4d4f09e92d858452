import SyntaxNav.Journal.Entry
import SyntaxNav.Workspace.Files

/-! # The journal

The journal accepts entries from a least level on. It remembers the latest thousand it accepted, and
appends each to a file, if it was given one.
-/

namespace SyntaxNav

/-- The remembered entries, the least level accepted, and the file that entries go to. -/
structure Journal where
  entries : List Entry
  least : Level
  file : Option String
deriving DecidableEq, Repr

namespace Journal

def capacity : Nat := 1000

/-- A journal without entries, which accepts warnings and errors. -/
def new : Journal := ⟨[], .warn, none⟩

def accepts (journal : Journal) (entry : Entry) : Bool :=
  journal.least.rank ≤ entry.level.rank

/-- Remembers an entry. At the capacity the oldest one is forgotten for it. -/
def remember (journal : Journal) (entry : Entry) : Journal :=
  let kept := if journal.entries.length = capacity then journal.entries.drop 1 else journal.entries
  { journal with entries := kept ++ [entry] }

/-- The remembered entries, each on its line. -/
def render (journal : Journal) : String :=
  String.join (journal.entries.map Entry.line)

section Effects

variable {m : Type → Type} [Monad m] (files : Files m)

/-- Appends an accepted entry to the file of the journal. -/
def writeOut (journal : Journal) (entry : Entry) : m Unit :=
  match journal.file with
  | some path => files.append path entry.line
  | none => pure ()

def push (journal : Journal) (entry : Entry) : m Journal := do
  if journal.accepts entry then
    journal.writeOut files entry
    return journal.remember entry
  else
    return journal

def pushAll (journal : Journal) (entries : List Entry) : m Journal :=
  entries.foldlM (push files) journal

/-- Sets the least level and the file. A file that cannot be opened leaves the journal as it was. -/
def configure (journal : Journal) (least : Level) (file : Option String) :
    m (Except FileError Journal) := do
  match file with
  | none => return .ok { journal with least, file := none }
  | some path =>
    match ← files.openToAppend path with
    | .ok () => return .ok { journal with least, file := some path }
    | .error error => return .error error

end Effects

end Journal

end SyntaxNav

import SyntaxNav.CommandLine.Run

/-! # The program

The command line on the files of the machine.
-/

namespace SyntaxNav

/-- The number of an error of the machine, which some operations give with its sign turned. -/
def errorNumber (code : UInt32) : UInt32 :=
  if code > 0x7FFFFFFF then 0 - code else code

def FileError.ofMachine : IO.Error → FileError
  | .noFileOrDirectory _ _ _ => .notFound
  | .inappropriateType _ code _ => if errorNumber code = 21 then .isDirectory else .notDirectory
  | .invalidArgument _ code _ => if errorNumber code = 36 then .nameTooLong else .nullInName
  | .permissionDenied _ _ _ => .other "Permission denied (os error 13)"
  | error => .other (toString error)

def attemptFile {α : Type} (action : IO α) : IO (Except FileError α) := do
  try
    return .ok (← action)
  catch error =>
    return .error (.ofMachine error)

def readMachineText (path : String) : IO (Except FileError String) := do
  match ← attemptFile (IO.FS.readBinFile path) with
  | .error error => return .error error
  | .ok bytes =>
    match String.fromUTF8? bytes with
    | some text => return .ok text
    | none => return .error .notText

def appendMachineText (path text : String) : IO Unit :=
  IO.FS.withFile path .append fun handle => do
    handle.putStr text
    handle.flush

def machineFiles : Files IO where
  readText := readMachineText
  isFile path := do return (← attemptFile (IO.FS.readBinFile path)).toOption.isSome
  openToAppend path := attemptFile (appendMachineText path "")
  append path text := discard (attemptFile (appendMachineText path text))
  write path text := attemptFile (IO.FS.writeFile path text)

end SyntaxNav

def main (words : List String) : IO UInt32 := do
  let report ← SyntaxNav.CommandLine.run SyntaxNav.machineFiles words
  IO.print report.output
  IO.eprint report.complaint
  return report.status.toUInt32

import SyntaxNav.CommandLine.Arguments
import SyntaxNav.Editor.Report
import SyntaxNav.Script.Language
import SyntaxNav.Workspace.Settings

/-! # Running the command line

A job reads settings, sets up the journal, reads the field order and the source, and runs its commands
in a session until one fails. Text that was edited is written to the file or printed, and only if no
command failed.

A run is given the reader of its arguments. What the reader does not take for a job, it answers itself.
-/

namespace SyntaxNav.CommandLine

/-- Why a job fails. -/
inductive Failure where
  | settings (error : Settings.Error)
  | session (error : SessionError)
  | file (path : String) (error : FileError)
  | noFile
deriving DecidableEq, Repr

def Failure.message : Failure → String
  | settings error => error.message
  | session error => error.message
  | file path error => "Failed to access " ++ path ++ ": " ++ error.message
  | noFile => "No source file given"

/-- What a run leaves behind: its exit status, what it prints, and what it complains about. -/
structure Report where
  status : Nat
  output : String
  complaint : String
deriving DecidableEq, Repr

namespace Report

def success (output : String) : Report := ⟨0, output, ""⟩

def failure (output : String) (failure : Failure) : Report :=
  ⟨1, output, "structnav: " ++ failure.message ++ "\n"⟩

/-- A run that does not follow its arguments. It succeeds if help is all they ask for; what the help says is
left out. -/
def refusal : Refusal → Report
  | .help => success ""
  | refusal => ⟨2, "", "error: " ++ refusal.message ++ "\n"⟩

end Report

/-- A text filled up with blanks to a width. -/
def padded (width : Nat) (text : String) : String :=
  text ++ String.ofList (List.replicate (width - text.length) ' ')

def listLine (command : Command) : String :=
  padded 8 command.name ++ " " ++ padded 12 command.chord ++ " " ++ command.description ++ "\n"

/-! ### Batches of commands -/

/-- The outcome of a command and the view after it. -/
structure Done where
  command : Command
  outcome : Outcome
  view : View
deriving DecidableEq, Repr

/-- What a batch of commands left behind: what was done, the error that ended it, and the view. -/
structure Batch where
  done : List Done
  error : Option SessionError
  view : View
deriving DecidableEq, Repr

/-- Runs commands in order, until one fails. -/
def runBatch (session : Session) (view : View) : List Command → Noted Batch
  | [] => return ⟨[], none, view⟩
  | command :: rest => do
    let turn ← session.execute command view
    match turn.result with
    | .error error => return ⟨[], some error, turn.view⟩
    | .ok outcome =>
      let batch ← runBatch turn.session turn.view rest
      return { batch with done := ⟨command, outcome, turn.view⟩ :: batch.done }

def Batch.isEdited (batch : Batch) : Bool :=
  batch.done.any (·.outcome.isCut)

def Done.line (done : Done) (json : Bool) : String :=
  if json then
    Text.Json.object [("anchor", done.view.anchor.toJson),
      ("command", Text.Json.string done.command.name), ("head", done.view.head.toJson),
      ("result", done.outcome.toJson)] ++ "\n"
  else
    done.command.name ++ ": " ++ done.outcome.describe ++ "\n"

def Batch.output (batch : Batch) (json : Bool) : String :=
  String.join (batch.done.map (·.line json))

/-- Edited text as it is printed. -/
def editedOutput (text : String) (json : Bool) : String :=
  if json then Text.Json.object [("text", Text.Json.string text)] ++ "\n" else text

/-! ### Jobs -/

section Effects

variable {m : Type → Type} [Monad m] (files : Files m)

/-- The journal, the field order, the file and the source of a job. -/
structure Prepared where
  journal : Journal
  order : FieldOrder
  file : String
  source : String

/-- Fails where something failed. -/
def orFail {α ε : Type} (failure : ε → Failure) (result : m (Except ε α)) : ExceptT Failure m α :=
  ExceptT.mk do
    match ← result with
    | .ok value => return .ok value
    | .error error => return .error (failure error)

def prepare (job : Job) : ExceptT Failure m Prepared := do
  let found ← orFail .settings (Settings.discover files job.settingsFile)
  let settings := { found with orderFile := job.orderFile <|> found.orderFile }
  let journal ← orFail .settings (settings.configure files .new)
  let order ← ExceptT.lift (settings.fieldOrder files)
  let journal ← ExceptT.lift (journal.pushAll files order.notes)
  let order ← orFail .settings (pure order.value)
  let file ← orFail id (pure (job.file.elim (.error .noFile) .ok))
  let source ← orFail (.file file) (files.readText file)
  let journal ← ExceptT.lift (journal.push files
    ⟨.info, "Navigating " ++ file ++ " as " ++ Script.language.name⟩)
  return ⟨journal, order, file, source⟩

/-- Prints what a batch left behind, or writes it to the file. -/
def conclude (job : Job) (file : String) (batch : Batch) : m Report := do
  let output := batch.output job.json
  match batch.error with
  | some error => return .failure output (.session error)
  | none =>
    if !batch.isEdited then
      return .success output
    else if job.write then
      match ← files.write file batch.view.text with
      | .ok () => return .success output
      | .error error => return .failure output (.file file error)
    else
      return .success (output ++ editedOutput batch.view.text job.json)

def Job.navigate (job : Job) : m Report := do
  match ← (prepare files job).run with
  | .error failure => return .failure "" failure
  | .ok prepared =>
    let view : View := ⟨prepared.source, job.anchor.getD job.cursor, job.cursor⟩
    let batch := runBatch (.start Script.language prepared.order) view job.commands
    discard (prepared.journal.pushAll files batch.notes)
    conclude files job prepared.file batch.value

def Job.run (job : Job) : m Report :=
  if job.listCommands then
    return .success (String.join (Command.all.map listLine))
  else
    job.navigate files

/-- Does what arguments ask for, as a reader of arguments understands them. -/
def runWith (reader : List String → Except Report Job) (words : List String) : m Report :=
  match reader words with
  | .error report => return report
  | .ok job => job.run files

def run (words : List String) : m Report :=
  runWith files (fun words => (readArguments words).mapError .refusal) words

end Effects

end SyntaxNav.CommandLine

import SyntaxNav.Editor.Command
import SyntaxNav.Text.Position

/-! # Arguments of the command line

The command line is a file and commands to run on it, with options anywhere among them. Two dashes end
the options. An option stands at most once; its value is the next argument, or follows an equals sign. An
option that asks for help ends the reading, and help is given if nothing is wrong before it.

How arguments are written is a matter of its own: a run takes any reader of arguments, and `readArguments`
is the one that is used.
-/

namespace SyntaxNav.CommandLine

/-- An option that has a value. -/
inductive Setting where
  | cursor
  | anchor
  | schema
  | config
deriving DecidableEq, Repr

def Setting.names : List (String × Setting) :=
  [("cursor", cursor), ("anchor", anchor), ("schema", schema), ("config", config)]

/-- An option without a value. -/
inductive Flag where
  | json
  | write
  | listCommands
deriving DecidableEq, Repr

def Flag.names : List (String × Flag) :=
  [("json", json), ("write", write), ("list-commands", listCommands)]

/-- Why arguments are not followed: they ask for help, or something is wrong with them. -/
inductive Refusal where
  | help
  | unknownOption (word : String)
  | missingValue (word : String)
  | unwantedValue (word : String)
  | repeatedOption
  | emptyPath
  | position (error : Pos.Unreadable)
  | command (error : Command.Unknown)
  | noFile
deriving DecidableEq, Repr

def Refusal.message : Refusal → String
  | help => ""
  | unknownOption word => "unexpected argument '" ++ word ++ "'"
  | missingValue word => "a value is required for '" ++ word ++ "'"
  | unwantedValue word => "unexpected value in '" ++ word ++ "'"
  | repeatedOption => "an option cannot be used multiple times"
  | emptyPath => "a path cannot be empty"
  | position error => error.message
  | command error => error.message
  | noFile => "no source file given"

/-! ### Words -/

/-- What an argument is by itself. -/
inductive Word where
  | plain
  | help
  | flag (flag : Flag)
  | setting (setting : Setting) (value : Option String)
deriving DecidableEq, Repr

/-- Whether an argument is an option, or would be one if it were known. A lone dash is none. -/
def isOption (word : String) : Bool :=
  match word.toList with
  | '-' :: _ :: _ => true
  | _ => false

/-- The name of an option and its value behind an equals sign. -/
def splitOption (option : List Char) : String × Option String :=
  let name := option.takeWhile (· ≠ '=')
  match option.drop name.length with
  | _ :: value => (String.ofList name, some (String.ofList value))
  | [] => (String.ofList name, none)

def readOption (word : String) (option : List Char) : Except Refusal Word :=
  let (name, value) := splitOption option
  match Flag.names.lookup name, Setting.names.lookup name, value with
  | some flag, _, none => .ok (.flag flag)
  | some _, _, some _ => .error (.unwantedValue word)
  | none, some setting, value => .ok (.setting setting value)
  | none, none, none => if name = "help" then .ok .help else .error (.unknownOption word)
  | none, none, some _ =>
    .error (if name = "help" then .unwantedValue word else .unknownOption word)

/-- What an argument is. The one short option asks for help. -/
def readWord (word : String) : Except Refusal Word :=
  match word.toList with
  | '-' :: '-' :: option => readOption word option
  | '-' :: 'h' :: _ => .ok .help
  | '-' :: _ :: _ => .error (.unknownOption word)
  | _ => .ok .plain

/-- Arguments sorted by what they are. -/
structure Sorted where
  plain : List String
  flags : List Flag
  settings : List (Setting × String)
  help : Bool
deriving DecidableEq, Repr

namespace Sorted

def empty : Sorted := ⟨[], [], [], false⟩

def value? (sorted : Sorted) (setting : Setting) : Option String :=
  sorted.settings.lookup setting

/-- Puts an option in front, which must not stand behind. -/
def addSetting (sorted : Sorted) (setting : Setting) (value : String) : Except Refusal Sorted :=
  if (sorted.value? setting).isSome then .error .repeatedOption
  else .ok { sorted with settings := (setting, value) :: sorted.settings }

/-- Puts an option without a value in front, which must not stand behind. -/
def addFlag (sorted : Sorted) (flag : Flag) : Except Refusal Sorted :=
  if flag ∈ sorted.flags then .error .repeatedOption
  else .ok { sorted with flags := flag :: sorted.flags }

def ofWords : List String → Except Refusal Sorted
  | [] => .ok empty
  | word :: rest =>
    if word = "--" then
      .ok { empty with plain := rest }
    else
      match readWord word with
      | .error error => .error error
      | .ok .help => .ok { empty with help := true }
      | .ok .plain => do
        let sorted ← ofWords rest
        return { sorted with plain := word :: sorted.plain }
      | .ok (.flag flag) => do (← ofWords rest).addFlag flag
      | .ok (.setting setting (some value)) => do (← ofWords rest).addSetting setting value
      | .ok (.setting setting none) =>
        match rest with
        | [] => .error (.missingValue word)
        | value :: rest =>
          if isOption value then .error (.missingValue word)
          else do (← ofWords rest).addSetting setting value

end Sorted

/-! ### Jobs -/

/-- What the command line asks for: commands to run on a file, and how, or just a list of the commands. -/
structure Job where
  file : Option String
  commands : List Command
  cursor : Pos
  anchor : Option Pos
  orderFile : Option String
  settingsFile : Option String
  json : Bool
  write : Bool
  listCommands : Bool
deriving DecidableEq, Repr

def readPosition (value : String) : Except Refusal Pos :=
  match Pos.read value with
  | .ok pos => .ok pos
  | .error error => .error (.position error)

def readCommand (word : String) : Except Refusal Command :=
  match Command.ofName word with
  | .ok command => .ok command
  | .error error => .error (.command error)

def readPath (word : String) : Except Refusal String :=
  if word = "" then .error .emptyPath else .ok word

/-- What sorted arguments ask for. All are read, also where only a list of the commands is wanted; only then
no file is needed. -/
def Sorted.toJob (sorted : Sorted) : Except Refusal Job := do
  let file ← sorted.plain.head?.mapM readPath
  let commands ← sorted.plain.tail.mapM readCommand
  let cursor ← (sorted.value? .cursor).mapM readPosition
  let anchor ← (sorted.value? .anchor).mapM readPosition
  let orderFile ← (sorted.value? .schema).mapM readPath
  let settingsFile ← (sorted.value? .config).mapM readPath
  if sorted.help then
    throw .help
  else if file.isNone ∧ .listCommands ∉ sorted.flags then
    throw .noFile
  else
    return ⟨file, commands, cursor.getD .origin, anchor, orderFile, settingsFile,
      .json ∈ sorted.flags, .write ∈ sorted.flags, .listCommands ∈ sorted.flags⟩

def readArguments (words : List String) : Except Refusal Job := do
  (← Sorted.ofWords words).toJob

end SyntaxNav.CommandLine

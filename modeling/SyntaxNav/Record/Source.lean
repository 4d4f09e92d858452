import SyntaxNav.Record.Error

/-! # Reading record notation

Record notation is read byte by byte. Blanks are spaces, tabs, carriage returns and newlines; comments
run to the end of a line or are closed blocks, which may be nested.
-/

namespace SyntaxNav.Record

/-- The bytes still to be read, the line and column they start at, and whether an option may be written
as its value alone. -/
structure Source where
  line : Nat
  column : Nat
  rest : List UInt8
  implicitSome : Bool

namespace Source

/-- A text before its first byte. -/
def ofText (text : String) : Source := ⟨1, 1, text.toUTF8.toList, false⟩

/-- Goes past one byte. Only a newline starts a line. -/
def skipByte (source : Source) : Source :=
  match source.rest with
  | [] => source
  | byte :: rest =>
    if byte = 0x0A then { source with line := source.line + 1, column := 1, rest }
    else { source with column := source.column + 1, rest }

def skip (source : Source) : Nat → Source
  | 0 => source
  | count + 1 => source.skipByte.skip count

end Source

/-- A reader moves through the source and gives a value, or a fault. -/
abbrev Reader := EStateM Fault Source

def bytesOf (word : String) : List UInt8 :=
  word.toList.map Char.toUInt8

def asciiText (bytes : List UInt8) : String :=
  String.ofList (bytes.map fun byte => Char.ofNat byte.toNat)

def advance (count : Nat) : Reader Unit :=
  modify (·.skip count)

def peek : Reader (Option UInt8) := do
  return (← get).rest.head?

/-- The next byte, which has to be there, without going past it. -/
def peekByte : Reader UInt8 := do
  match ← peek with
  | some byte => return byte
  | none => throw .textEnd

/-- The next byte, which has to be there, going past it. -/
def eatByte : Reader UInt8 := do
  let byte ← peekByte
  advance 1
  return byte

/-- Goes past a word if it is next, and says whether it was. -/
def consume (word : String) : Reader Bool := do
  if (bytesOf word).isPrefixOf (← get).rest then
    advance word.length
    return true
  else
    return false

/-! ### Blanks and comments -/

def isBlank (byte : UInt8) : Bool :=
  byte = 0x20 || byte = 0x09 || byte = 0x0A || byte = 0x0D

/-- The length of the rest of a block comment inside so many others, with its end. -/
def commentLength? (outer : Nat) : List UInt8 → Option Nat
  | [] => none
  | 0x2F :: 0x2A :: rest => (commentLength? (outer + 1) rest).map (· + 2)
  | 0x2A :: 0x2F :: rest =>
    match outer with
    | 0 => some 2
    | outer + 1 => (commentLength? outer rest).map (· + 2)
  | _ :: rest => (commentLength? outer rest).map (· + 1)

/-- The length of the blanks and comments in front, and what is wrong behind them, if anything is. -/
def gap (bytes : List UInt8) : Nat × Option Fault :=
  match bytes with
  | 0x2F :: 0x2F :: rest =>
    let line := (rest.takeWhile (· ≠ 0x0A)).length
    let (length, fault) := gap (rest.drop line)
    (2 + line + length, fault)
  | 0x2F :: 0x2A :: rest =>
    match commentLength? 0 rest with
    | none => (2 + rest.length, some .openComment)
    | some comment =>
      let (length, fault) := gap (rest.drop comment)
      (2 + comment + length, fault)
  | 0x2F :: byte :: _ => (2, some (.strayByte byte))
  | [0x2F] => (1, some .textEnd)
  | byte :: rest =>
    if isBlank byte then
      let (length, fault) := gap rest
      (1 + length, fault)
    else (0, none)
  | [] => (0, none)
termination_by bytes.length
decreasing_by all_goals simp only [List.length_cons, List.length_drop]; omega

def skipGap : Reader Unit := do
  let (length, fault) := gap (← get).rest
  advance length
  if let some fault := fault then
    throw fault

/-- Goes past a comma, if there is one, and the gaps around it; says whether there was one. -/
def eatComma : Reader Bool := do
  skipGap
  if ← consume "," then
    skipGap
    return true
  else
    return false

end SyntaxNav.Record

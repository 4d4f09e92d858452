import SyntaxNav.Record.Identifier

/-! # Compound values in record notation

Lists, pairs, options, enumerations and records, given how what is inside them is read.
-/

namespace SyntaxNav.Record

section Compound

variable {α β σ : Type}

/-- Whether another item follows before a closing byte. Items need a comma between them. -/
def hasItem (close : UInt8) (hadComma : Bool) : Reader Bool := do
  skipGap
  if (← peekByte) = close then
    return false
  else if hadComma then
    return true
  else
    throw .comma

/-- The items of a list up to its closing bracket, at most so many. -/
def itemsUpTo (item : Reader α) : Nat → Bool → Reader (List α)
  | 0, _ => throw .textEnd
  | limit + 1, hadComma => do
    if ← hasItem 0x5D hadComma then
      let first ← item
      let rest ← itemsUpTo item limit (← eatComma)
      return first :: rest
    else
      return []

/-- A list in brackets. Each item takes a byte, so there are no more items than bytes. -/
def list (item : Reader α) : Reader (List α) := do
  if ← consume "[" then
    let items ← itemsUpTo item ((← get).rest.length + 1) true
    advance 1
    return items
  else
    throw .listOpening

def pair (first : Reader α) (second : Reader β) : Reader (α × β) := do
  if !(← consume "(") then
    throw .pairOpening
  if !(← hasItem 0x29 true) then
    throw .emptyPair
  let left ← first
  if !(← hasItem 0x29 (← eatComma)) then
    throw .loneItem
  let right ← second
  discard eatComma
  if ← consume ")" then
    return (left, right)
  else
    throw .closing

/-- An option: none, some value in parentheses, or the value alone where that is enabled. -/
def option (value : Reader α) : Reader (Option α) := do
  if ← consume "None" then
    return none
  let opened ← if ← consume "Some" then
      skipGap
      consume "("
    else
      pure false
  if opened then
    skipGap
    let inner ← value
    discard eatComma
    if ← consume ")" then
      return some inner
    else
      throw .closing
  else if (← get).implicitSome then
    return some (← value)
  else
    throw .option

def variant (name : String) (known : List (String × α)) : Reader α := do
  let found ← identifier
  match known.lookup found with
  | some value => return value
  | none => throw (.unknownVariant name found (known.map (·.1)))

/-- A record type: its name, and for each field how its value is read into what is known so far. -/
structure Shape (σ : Type) where
  name : String
  fields : List (String × (σ → Reader σ))

/-- Reads a field into what is known so far, and gives its name. -/
def field (shape : Shape σ) (seen : List String) (known : σ) : Reader (String × σ) := do
  let name ← identifier
  match shape.fields.lookup name with
  | none => throw (.unknownField shape.name name (shape.fields.map (·.1)))
  | some read =>
    if name ∈ seen then
      throw (.repeatedField shape.name name)
    skipGap
    if !(← consume ":") then
      throw .colon
    skipGap
    return (name, ← read known)

/-- The fields of a record up to its closing parenthesis, at most so many; gives what is known and the
names of the fields seen. -/
def fieldsUpTo (shape : Shape σ) : Nat → Bool → List String → σ → Reader (σ × List String)
  | 0, _, _, _ => throw .textEnd
  | limit + 1, hadComma, seen, known => do
    if ← hasItem 0x29 hadComma then
      let (name, known) ← field shape seen known
      fieldsUpTo shape limit (← eatComma) (name :: seen) known
    else
      return (known, seen)

def recordName (name : String) : Reader Unit := do
  if ((← peek).any isNamePart) then
    let found ← tryCatch identifier fun _ => throw (.recordOpening name)
    if found ≠ name then
      throw (.otherRecord name found)

/-- A record with some fields that have to be there. -/
def record (shape : Shape σ) (needed : List String) (start : σ) : Reader σ := do
  recordName shape.name
  skipGap
  if !(← consume "(") then
    throw (.recordOpening shape.name)
  let (known, seen) ← fieldsUpTo shape ((← get).rest.length + 1) true [] start
  if let some missing := needed.find? (· ∉ seen) then
    throw (.missingField shape.name missing)
  advance 1
  return known

end Compound

end SyntaxNav.Record

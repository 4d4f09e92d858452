import SyntaxNav.Record.Source

/-! # Strings in record notation

Strings stand in quotes and may hold escapes, or are raw and end at as many hashes as they start with.
-/

namespace SyntaxNav.Record

def hexValue? (byte : UInt8) : Option Nat :=
  if 0x30 ≤ byte && byte ≤ 0x39 then some (byte.toNat - 0x30)
  else if 0x61 ≤ byte && byte ≤ 0x66 then some (byte.toNat - 0x61 + 10)
  else if 0x41 ≤ byte && byte ≤ 0x46 then some (byte.toNat - 0x41 + 10)
  else none

def hexDigit : Reader Nat := do
  match hexValue? (← eatByte) with
  | some value => return value
  | none => throw .hexDigit

/-- Up to so many hexadecimal digits before a closing brace, behind others of a value; gives the value
and how many there were. -/
def hexDigits : Nat → Nat → Reader (Nat × Nat)
  | 0, value => return (value, 0)
  | count + 1, value => do
    if (← peekByte) = 0x7D then
      return (value, 0)
    else
      let digit ← hexDigit
      let (value, digits) ← hexDigits count (value * 16 + digit)
      return (value, digits + 1)

/-- The character of a code point in braces. -/
def codePoint : Reader Char := do
  if (← eatByte) ≠ 0x7B then
    throw .codeOpening
  let (value, digits) ← hexDigits 6 0
  if digits = 0 then
    throw .codeEmpty
  if (← eatByte) ≠ 0x7D then
    throw .codeEnd
  if value.isValidChar then
    return Char.ofNat value
  else
    throw .codeInvalid

/-- The character that an escape stands for, behind the backslash. -/
def escaped : Reader Char := do
  match Char.ofNat (← eatByte).toNat with
  | '\x27' => return '\x27'
  | '\x22' => return '\x22'
  | '\\' => return '\\'
  | 'n' => return '\n'
  | 'r' => return '\r'
  | 't' => return '\t'
  | '0' => return '\x00'
  | 'x' =>
    let high ← hexDigit
    let low ← hexDigit
    return Char.ofNat (high * 16 + low)
  | 'u' => codePoint
  | _ => throw .unknownEscape

def utf8Text (bytes : List UInt8) : String :=
  (String.fromUTF8? ⟨bytes.toArray⟩).getD ""

/-- The rest of a string behind its opening quote, with at most so many escapes. -/
def stringRest : Nat → Reader String
  | 0 => throw .stringEnd
  | escapes + 1 => do
    let rest := (← get).rest
    let plain := rest.takeWhile fun byte => byte ≠ 0x22 && byte ≠ 0x5C
    match rest.drop plain.length with
    | [] => throw .stringEnd
    | mark :: _ =>
      advance (plain.length + 1)
      if mark = 0x22 then
        return utf8Text plain
      else
        let c ← escaped
        let behind ← stringRest escapes
        return utf8Text plain ++ String.singleton c ++ behind

/-- The length of a text before an ending. -/
def lengthBefore? (ending : List UInt8) : List UInt8 → Option Nat
  | [] => none
  | byte :: rest =>
    if ending.isPrefixOf (byte :: rest) then some 0
    else (lengthBefore? ending rest).map (· + 1)

/-- A raw string behind its mark: it ends at a quote with as many hashes as stand before its start. -/
def rawString : Reader String := do
  let hashes := (← get).rest.takeWhile (· = 0x23)
  advance hashes.length
  if ← consume "\"" then
    let rest := (← get).rest
    match lengthBefore? (0x22 :: hashes) rest with
    | none => throw .stringEnd
    | some length =>
      advance (length + 1 + hashes.length)
      return utf8Text (rest.take length)
  else
    throw .string

/-- A string in quotes, or a raw string. -/
def string : Reader String := do
  if ← consume "\"" then
    stringRest ((← get).rest.length + 1)
  else if ← consume "r" then
    rawString
  else
    throw .string

end SyntaxNav.Record

import SyntaxNav.Text.Quoted

/-! # Names and errors in record notation

Field orders and settings are written in record notation. Plain names are made of ASCII letters, digits
and underscores and do not start with a digit; raw names may also hold points and signs, and start with
any of these. Messages name what was expected, and names as they are written; the position of an error
is where reading has got to, in bytes.
-/

namespace SyntaxNav.Record

def isNameStart (byte : UInt8) : Bool :=
  (0x41 ≤ byte && byte ≤ 0x5A) || (0x61 ≤ byte && byte ≤ 0x7A) || byte = 0x5F

def isNamePart (byte : UInt8) : Bool :=
  isNameStart byte || (0x30 ≤ byte && byte ≤ 0x39)

def isRawPart (byte : UInt8) : Bool :=
  isNamePart byte || byte = 0x2E || byte = 0x2B || byte = 0x2D

/-- Whether a name can be written without the mark of raw names. -/
def isPlainName (name : String) : Bool :=
  match name.toUTF8.toList with
  | [] => false
  | first :: rest => isNameStart first && rest.all isNamePart

/-- A name as it is written: with the mark of raw names, if it needs one. -/
def writtenName (name : String) : String :=
  if isPlainName name then name else "r#" ++ name

/-- What is wrong with a text in record notation. -/
inductive Fault where
  /-- The text ends too early. -/
  | textEnd
  /-- A block comment has no end. -/
  | openComment
  /-- A slash that starts no comment has a byte behind it. -/
  | strayByte (byte : UInt8)
  /-- An attribute does not start as it has to. -/
  | attributeOpening
  /-- An attribute does not end as it has to. -/
  | attributeEnd
  /-- An attribute enables something unknown. -/
  | unknownExtension (name : String)
  /-- A record does not open. -/
  | recordOpening (name : String)
  /-- A record has another name. -/
  | otherRecord (name found : String)
  /-- A record has a field it does not know. -/
  | unknownField (name found : String) (known : List String)
  /-- A record has a field twice. -/
  | repeatedField (name field : String)
  /-- A record lacks a field. -/
  | missingField (name field : String)
  /-- A field has no colon. -/
  | colon
  /-- Two items have no comma between them. -/
  | comma
  /-- A list does not open. -/
  | listOpening
  /-- A pair does not open. -/
  | pairOpening
  /-- A pair has no items. -/
  | emptyPair
  /-- A pair has one item. -/
  | loneItem
  /-- A parenthesis does not close. -/
  | closing
  /-- A string does not start. -/
  | string
  /-- A string does not end. -/
  | stringEnd
  /-- A backslash is followed by something unknown. -/
  | unknownEscape
  /-- A byte in place of a hexadecimal digit is none. -/
  | hexDigit
  /-- A code point does not open. -/
  | codeOpening
  /-- A code point has no digits. -/
  | codeEmpty
  /-- A code point does not close. -/
  | codeEnd
  /-- A code point is no character. -/
  | codeInvalid
  /-- A name does not start. -/
  | identifier
  /-- A name holds bytes that only a raw name can hold. -/
  | rawIdentifier (text : String)
  /-- An option does not start. -/
  | option
  /-- A name is none of the names of an enumeration. -/
  | unknownVariant (name found : String) (known : List String)
  /-- Something follows the record. -/
  | trailing
deriving DecidableEq, Repr

def quotedName (name : String) : String :=
  "`" ++ writtenName name ++ "`"

/-- The known names that are expected instead of another. -/
def expectedNames (known : List String) : String :=
  match known with
  | [only] => "expected " ++ quotedName only ++ " instead"
  | names => "expected one of " ++ ", ".intercalate (names.map quotedName) ++ " instead"

/-- A byte shown as the character of its number, in single quotes. -/
def shownByte (byte : UInt8) : String :=
  let c := Char.ofNat byte.toNat
  let shown :=
    if c = '\x27' then "\\'"
    else if c = '\\' then "\\\\"
    else if c = '\n' then "\\n"
    else if c = '\t' then "\\t"
    else if c = '\r' then "\\r"
    else if c = '\x00' then "\\0"
    else if Text.isPrintable c then String.singleton c
    else "\\u\x7b" ++ String.ofList (Nat.toDigits 16 byte.toNat) ++ "\x7d"
  "'" ++ shown ++ "'"

def Fault.message : Fault → String
  | textEnd => "Unexpected end of RON"
  | openComment => "Unclosed block comment"
  | strayByte byte => "Unexpected byte " ++ shownByte byte
  | attributeOpening => "Expected an `#![enable(...)]` attribute"
  | attributeEnd => "Expected closing `)]` after the enable attribute"
  | unknownExtension name => "No RON extension named " ++ quotedName name
  | recordOpening name => "Expected opening `(` for struct " ++ quotedName name
  | otherRecord name found =>
    "Expected struct " ++ quotedName name ++ " but found " ++ quotedName found
  | unknownField name found known =>
    "Unexpected field named " ++ quotedName found ++ "in " ++ quotedName name ++ ", "
      ++ expectedNames known
  | repeatedField name field =>
    "Unexpected duplicate field " ++ quotedName field ++ " in " ++ quotedName name
  | missingField name field =>
    "Unexpected missing field " ++ quotedName field ++ " in " ++ quotedName name
  | colon => "Expected colon"
  | comma => "Expected comma"
  | listOpening => "Expected opening `[`"
  | pairOpening => "Expected opening `(`"
  | emptyPair => "Expected a tuple of size 2 but found zero elements instead"
  | loneItem => "Expected a tuple of size 2 but found one element instead"
  | closing => "Expected closing `)`"
  | string => "Expected string"
  | stringEnd => "Expected end of string"
  | unknownEscape => "Unknown escape character"
  | hexDigit => "Non-hex digit found"
  | codeOpening => "Missing \x7b in Unicode escape"
  | codeEmpty => "Expected 1-6 digits, got 0 digits in Unicode escape"
  | codeEnd => "No \x7d at the end of Unicode escape"
  | codeInvalid => "Not a valid char"
  | identifier => "Expected identifier"
  | rawIdentifier text =>
    "Found invalid std identifier `" ++ text ++ "`, try the raw identifier `r#" ++ text
      ++ "` instead"
  | option => "Expected option"
  | unknownVariant name found known =>
    "Unexpected variant named " ++ quotedName found ++ "in enum " ++ quotedName name ++ ", "
      ++ expectedNames known
  | trailing => "Non-whitespace trailing characters"

/-- A fault with the line and the column that reading has got to, both counted from one. -/
structure Error where
  line : Nat
  column : Nat
  fault : Fault
deriving DecidableEq, Repr

def Error.place (error : Error) : String :=
  toString error.line ++ ":" ++ toString error.column

end SyntaxNav.Record

import SyntaxNav.Script.Error

/-! # From text to tokens

A script is a sequence of gaps and tokens. A tokenizer stands at a byte offset of its source, and at the
position that belongs to it. It looks at the source through slices from its offset, each of which has to
run between characters. `Tokenizer.skipGap` passes the blanks and comments in front, `Tokenizer.token`
reads the token behind them, and `Tokenizer.tokens` repeats both until the source ends or a fault is
found.
-/

namespace SyntaxNav.Script

/-- How many bytes stand before the end of a block comment. -/
def commentBytes? : List Char → Option Nat
  | [] => none
  | '*' :: '/' :: _ => some 0
  | c :: rest => (commentBytes? rest).map (c.utf8Size + ·)

/-- Where the closing quote of a string stops, for what is left of the string and where that starts. A
backslash takes any character with it, also a newline; otherwise a string ends on its line. -/
def stringStop? (quote : Char) : Nat → List Char → Option Nat
  | _, [] => none
  | offset, c :: rest =>
    if c = '\n' then none
    else if c = '\\' then
      match rest with
      | [] => none
      | escaped :: rest => stringStop? quote (offset + c.utf8Size + escaped.utf8Size) rest
    else if c = quote then some (offset + 1)
    else stringStop? quote (offset + c.utf8Size) rest

def isHexDigit (c : Char) : Bool :=
  c.isDigit || ('a' ≤ c && c ≤ 'f') || ('A' ≤ c && c ≤ 'F')

/-- The length of a number with a marked base, which has at least one digit. -/
def basedLength? (lower upper : Char) (isDigit : Char → Bool) : List Char → Option Nat
  | '0' :: mark :: rest =>
    let digits := (rest.takeWhile isDigit).length
    if (mark = lower ∨ mark = upper) ∧ digits ≠ 0 then some (2 + digits) else none
  | _ => none

def fractionLength : List Char → Nat
  | '.' :: rest => 1 + (rest.takeWhile Text.isDecimalDigit).length
  | _ => 0

def exponentLength : List Char → Nat
  | mark :: rest =>
    let sign := match rest with
      | '+' :: _ | '-' :: _ => 1
      | _ => 0
    let digits := ((rest.drop sign).takeWhile Text.isDecimalDigit).length
    if (mark = 'e' ∨ mark = 'E') ∧ digits ≠ 0 then 1 + sign + digits else 0
  | [] => 0

def decimalLength (text : List Char) : Nat :=
  let whole := (text.takeWhile Text.isDecimalDigit).length
  let mantissa := whole + fractionLength (text.drop whole)
  mantissa + exponentLength (text.drop mantissa)

/-- The length of a number, with the mark of a big integer. -/
def numberLength (text : List Char) : Nat :=
  let number := (basedLength? 'x' 'X' isHexDigit text
    <|> basedLength? 'b' 'B' (fun c => c = '0' || c = '1') text
    <|> basedLength? 'o' 'O' (fun c => '0' ≤ c && c ≤ '7') text).getD (decimalLength text)
  match text.drop number with
  | 'n' :: _ => number + 1
  | _ => number

def isWordStart (c : Char) : Bool :=
  c.isAlpha || c = '_' || c = '$'

def isWordPart (c : Char) : Bool :=
  c.isAlphanum || c = '_' || c = '$'

/-- A source that is sliced by byte offsets: what is left of it from each offset that is between two
characters or at an end. -/
structure Source where
  tails : Array (Option (List Char))
deriving DecidableEq, Repr

namespace Source

def of (text : List Char) : Source := ⟨(Text.tails text).toArray⟩

def size (source : Source) : Nat := source.tails.size - 1

/-- What is left of a source from an offset. -/
def from? (source : Source) (offset : Nat) : Option (List Char) :=
  source.tails[offset]?.join

end Source

/-- A tokenizer stands at a byte offset of its source, and at the position of that offset. -/
structure Tokenizer where
  source : Source
  offset : Nat
  pos : Pos
deriving DecidableEq, Repr

def Tokenizer.start (source : List Char) : Tokenizer := ⟨.of source, 0, .origin⟩

/-- A lexer moves a tokenizer and gives a result, or stops. -/
abbrev Lexer := EStateM Stop Tokenizer

def Lexer.of {α : Type} (lexer : Lexer α) (source : List Char) : Except Stop α :=
  match lexer (.start source) with
  | .ok value _ => .ok value
  | .error stop _ => .error stop

namespace Tokenizer

section Slices

variable {α : Type}

/-- Stops at the position of the tokenizer, because of a fault there. -/
def fail (fault : Fault) : Lexer α := do
  throw (.error ⟨(← get).pos, fault⟩)

/-- What a slice of a text holds. A slice that does not run between characters is a defect. -/
def sliced : Option α → Lexer α
  | some part => return part
  | none => throw (.defect .splitCharacter)

def remaining : Lexer (List Char) := do
  let tokenizer ← get
  sliced (tokenizer.source.from? tokenizer.offset)

def peekChar : Lexer (Option Char) := do
  return (← remaining).head?

def advance (bytes : Nat) : Lexer Unit := do
  let passed ← sliced (Text.takeBytes? bytes (← remaining))
  modify fun tokenizer =>
    { tokenizer with offset := tokenizer.offset + bytes, pos := tokenizer.pos.after passed }

end Slices

/-- Goes past the blank or the comment at the front of what is left, if one is there, and says whether it
holds a newline. A line comment leaves the newline behind it. -/
def skipFront : List Char → Lexer (Option Bool)
  | text@('/' :: '/' :: _) => do
    advance (Text.byteLength (text.takeWhile (· ≠ '\n')))
    return some false
  | text@('/' :: '*' :: _) => do
    match commentBytes? (← sliced (Text.dropBytes? 2 text)) with
    | none => fail .openComment
    | some bytes =>
      let comment ← sliced (Text.takeBytes? (bytes + 4) text)
      advance (bytes + 4)
      return some (comment.contains '\n')
  | '\n' :: _ => do
    advance 1
    return some true
  | c :: _ => do
    if Text.isBlank c then
      advance c.utf8Size
      return some false
    else
      return none
  | [] => return none

/-- Goes past a blank or a comment, if one is next. -/
def skipOne : Lexer (Option Bool) := do
  skipFront (← remaining)

/-- Goes past the blanks and comments in front, at most so many, and says whether they hold a newline. -/
def skipUpTo : Nat → Lexer Bool
  | 0 => fail .stalled
  | limit + 1 => do
    match ← skipOne with
    | none => return false
    | some newline =>
      let later ← skipUpTo limit
      return newline || later

/-- Goes past the blanks and comments in front, and says whether they hold a newline. Each takes a
byte, so there are no more of them than bytes. -/
def skipGap : Lexer Bool := do
  skipUpTo ((← get).source.size + 1)

/-- Whether a number starts here: a digit, or a point with a digit behind it. -/
def atNumber (c : Char) (rest : List Char) : Lexer Bool := do
  if c.isDigit then
    return true
  else if c = '.' then
    return (← sliced (Text.dropBytes? 1 rest)).head?.any Char.isDigit
  else
    return false

/-- Reads the token at the front of a source that starts with no gap. -/
def token : Lexer TokenKind := do
  let rest ← remaining
  match rest with
  | [] => throw (.defect .missingValue)
  | c :: behind =>
    if c = '\x22' ∨ c = '\x27' then
      match stringStop? c c.utf8Size behind with
      | none => fail .openString
      | some bytes =>
        advance bytes
        return .string (String.ofList (← sliced (Text.takeBytes? bytes rest)))
    else if c = '\x60' then
      fail .template
    else if ← atNumber c rest then
      let number := rest.take (numberLength rest)
      advance (Text.byteLength number)
      return .number (String.ofList number)
    else if isWordStart c then
      let word := rest.takeWhile isWordPart
      advance (Text.byteLength word)
      return .word (String.ofList word)
    else
      match punctuators.find? (·.toList.isPrefixOf rest) with
      | none => fail (.strayCharacter c)
      | some punct =>
        advance (Text.byteLength punct.toList)
        return .punct punct

def item : Lexer (Option Token) := do
  let newlineBefore ← skipGap
  match ← peekChar with
  | none => return none
  | some _ =>
    let start := (← get).pos
    let kind ← token
    return some ⟨kind, ⟨start, (← get).pos⟩, newlineBefore⟩

/-- The next token, if there is one. Nothing is left behind an error, so that it is found once. -/
def next : Lexer (Option Token) :=
  try item catch stop => do
    modify fun tokenizer => { tokenizer with offset := tokenizer.source.size }
    throw stop

def tokensUpTo : Nat → Lexer (List Token)
  | 0 => fail .stalled
  | limit + 1 => do
    match ← next with
    | none => return []
    | some token =>
      let rest ← tokensUpTo limit
      return token :: rest

/-- The tokens in front. Each takes a byte. -/
def tokens : Lexer (List Token) := do
  tokensUpTo ((← get).source.size + 1)

/-- The position behind a source, from its front. -/
def endPos : Lexer Pos := do
  advance (← get).source.size
  return (← get).pos

end Tokenizer

end SyntaxNav.Script

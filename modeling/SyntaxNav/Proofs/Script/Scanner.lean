import SyntaxNav.Script.Lexer

/-! # Scanning lists of characters

A scanner reads the tokens of a script off a list of characters, and measures gaps and tokens in
characters. `gapLength` measures the blanks and comments in front and `readToken` reads the token behind
them. `Scanner.next` takes both off a text, and `scan` repeats it until the text ends or a fault is found.
The tokens before a fault are kept.
-/

namespace SyntaxNav.Script

/-- The length of the rest of a block comment, with its end. -/
def commentLength? : List Char → Option Nat
  | [] => none
  | '*' :: '/' :: _ => some 2
  | _ :: rest => (commentLength? rest).map (· + 1)

/-- The length of the blanks and closed comments at the front of a text. A line comment leaves the
newline behind it to the blanks. -/
def gapLength : List Char → Nat
  | '/' :: '/' :: rest =>
    let line := (rest.takeWhile (· ≠ '\n')).length
    2 + line + gapLength (rest.drop line)
  | '/' :: '*' :: rest =>
    match commentLength? rest with
    | none => 0
    | some comment => 2 + comment + gapLength (rest.drop comment)
  | c :: rest => if Text.isBlank c then 1 + gapLength rest else 0
  | [] => 0
termination_by text => text.length
decreasing_by all_goals simp only [List.length_cons, List.length_drop]; omega

/-- The length of the rest of a string, with its closing quote. A backslash takes any character with
it, also a newline; otherwise a string ends on its line. -/
def stringLength? (quote : Char) : List Char → Option Nat
  | [] => none
  | c :: rest =>
    if c = '\n' then none
    else if c = '\\' then
      match rest with
      | [] => none
      | _ :: rest => (stringLength? quote rest).map (· + 2)
    else if c = quote then some 1
    else (stringLength? quote rest).map (· + 1)

/-- Whether a number starts here: a digit, or a point with a digit behind it. -/
def startsNumber (c : Char) (rest : List Char) : Bool :=
  c.isDigit || (c = '.' && rest.head?.any Char.isDigit)

/-- Reads the token at the front of a text that starts with no gap. -/
def readToken (c : Char) (rest : List Char) : Except Fault TokenKind :=
  let text := c :: rest
  if c = '/' ∧ rest.head? = some '*' then .error .openComment
  else if c = '\x22' ∨ c = '\x27' then
    match stringLength? c rest with
    | some length => .ok (.string (String.ofList (text.take (length + 1))))
    | none => .error .openString
  else if c = '\x60' then .error .template
  else if startsNumber c rest then .ok (.number (String.ofList (text.take (numberLength text))))
  else if isWordStart c then .ok (.word (String.ofList (text.takeWhile isWordPart)))
  else
    match punctuators.find? (·.toList.isPrefixOf text) with
    | some punct => .ok (.punct punct)
    | none => .error (.strayCharacter c)

/-- A scanner stands at a position, in front of what is left of a text. -/
structure Scanner where
  pos : Pos
  rest : List Char
deriving DecidableEq, Repr

namespace Scanner

/-- The token or the fault in front of a scanner, and the scanner behind it. Nothing is left behind a
fault, so that it is found once. -/
def next (scanner : Scanner) : Option (Except Error Token) × Scanner :=
  let gap := scanner.rest.take (gapLength scanner.rest)
  let start := scanner.pos.after gap
  match scanner.rest.drop (gapLength scanner.rest) with
  | [] => (none, ⟨start, []⟩)
  | c :: rest =>
    match readToken c rest with
    | .error fault => (some (.error ⟨start, fault⟩), ⟨start, []⟩)
    | .ok kind =>
      let stop := start.after kind.text.toList
      (some (.ok ⟨kind, ⟨start, stop⟩, gap.contains '\n'⟩), ⟨stop, rest.drop (kind.text.length - 1)⟩)

/-- There is less text behind a token than in front of it. -/
theorem length_rest_lt {scanner later : Scanner} {token : Token}
    (found : scanner.next = (some (.ok token), later)) :
    later.rest.length < scanner.rest.length := by
  unfold next at found
  split at found
  · cases found
  · rename_i c rest behind
    split at found
    · cases found
    · have shorter := congrArg List.length behind
      cases found
      simp only [List.length_drop, List.length_cons] at shorter ⊢
      omega

end Scanner

/-- The tokens of a text, up to its end or to the first fault. -/
structure Scan where
  tokens : List Token
  error : Option Error
deriving DecidableEq, Repr

def scanFrom (pos : Pos) (text : List Char) : Scan :=
  match _found : Scanner.next ⟨pos, text⟩ with
  | (none, _) => ⟨[], none⟩
  | (some (.error error), _) => ⟨[], some error⟩
  | (some (.ok token), later) =>
    let scan := scanFrom later.pos later.rest
    ⟨token :: scan.tokens, scan.error⟩
termination_by text.length
decreasing_by exact Scanner.length_rest_lt _found

def scan (source : List Char) : Scan :=
  scanFrom .origin source

end SyntaxNav.Script

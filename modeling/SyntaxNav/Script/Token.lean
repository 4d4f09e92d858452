import SyntaxNav.Text.Span

/-! # Tokens of a script

A token is a word, a number, a string or a punctuator, exactly as written, with its span and whether a
newline stands between it and the token before it. Keywords are words.
-/

namespace SyntaxNav.Script

/-- What a token is, with its text as written. -/
inductive TokenKind where
  /-- A name or a keyword. -/
  | word (text : String)
  /-- A number. -/
  | number (text : String)
  /-- A string with its quotes and escapes. -/
  | string (text : String)
  /-- A punctuator. -/
  | punct (text : String)
deriving DecidableEq, Repr

/-- The text of a token as written. -/
def TokenKind.text : TokenKind → String
  | word text | number text | string text | punct text => text

/-- A token with its place in the source. -/
structure Token where
  kind : TokenKind
  span : Span
  newlineBefore : Bool
deriving DecidableEq, Repr

/-- The punctuators, each after all longer ones that start with it. -/
def punctuators : List String :=
  [">>>=", "===", "!==", "**=", "<<=", ">>=", ">>>", "...", "=>", "==", "!=", "<=", ">=", "&&",
    "||", "??", "++", "--", "+=", "-=", "*=", "/=", "%=", "&=", "|=", "^=", "**", "<<", ">>",
    "?.", "\x7b", "\x7d", "(", ")", "[", "]", ";", ",", ".", "<", ">", "+", "-", "*", "/", "%",
    "&", "|", "^", "!", "~", "?", ":", "="]

def keywords : List String :=
  ["break", "case", "catch", "class", "const", "continue", "debugger", "default", "delete", "do",
    "else", "export", "extends", "false", "finally", "for", "function", "if", "import", "in",
    "instanceof", "new", "null", "return", "super", "switch", "this", "throw", "true", "try",
    "typeof", "var", "void", "while", "with", "yield"]

def isKeyword (word : String) : Bool :=
  keywords.contains word

def TokenKind.describe : TokenKind → String
  | word text => (if isKeyword text then "keyword '" else "identifier '") ++ text ++ "'"
  | number text => "number " ++ text
  | string text => "string " ++ text
  | punct text => "'" ++ text ++ "'"

end SyntaxNav.Script

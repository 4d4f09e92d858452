import SyntaxNav.Script.Error
import SyntaxNav.Tree.Basic

/-! # Reading tokens

A reader works on a cursor over the tokens, can fail with an error, and makes syntax nodes, which it
refers to by handles. What a handle is, and when the nodes are built, is left to the monad in which the
grammar is read.
-/

namespace SyntaxNav.Script

/-- The tokens still to be read, the end of the last token read, the end of the source, and how many
statements and expressions are open. -/
structure Cursor where
  rest : List Token
  prevEnd : Pos
  sourceEnd : Pos
  depth : Nat
deriving DecidableEq, Repr

namespace Cursor

def next? (cursor : Cursor) : Option TokenKind :=
  cursor.rest.head?.map (·.kind)

def second? (cursor : Cursor) : Option TokenKind :=
  (cursor.rest[1]?).map (·.kind)

def atPunct (cursor : Cursor) (punct : String) : Bool :=
  cursor.next? = some (.punct punct)

def atWord (cursor : Cursor) (word : String) : Bool :=
  cursor.next? = some (.word word)

/-- The start of the next token, or the end of the source. -/
def start (cursor : Cursor) : Pos :=
  match cursor.rest with
  | [] => cursor.sourceEnd
  | token :: _ => token.span.start

def advance (cursor : Cursor) : Cursor :=
  match cursor.rest with
  | [] => cursor
  | token :: rest => { cursor with rest, prevEnd := token.span.stop }

end Cursor

/-- Makes a syntax node over the nodes in its fields, and gives its handle. -/
class Making (m : Type → Type) (Handle : outParam Type) where
  make : Label → List (Field Handle) → m Handle

section Tokens

variable {m : Type → Type} [Monad m] [MonadStateOf Cursor m] [MonadExceptOf Error m]

def here : m Pos := do
  return (← get).start

def peek : m (Option TokenKind) := do
  return (← get).next?

def atPunct (punct : String) : m Bool := do
  return (← get).atPunct punct

def atWord (word : String) : m Bool := do
  return (← get).atWord word

def atEnd : m Bool := do
  return (← get).rest.isEmpty

def advance : m Unit :=
  modify Cursor.advance

def failAt {α : Type} (pos : Pos) (fault : Fault) : m α :=
  throw ⟨pos, fault⟩

def fail {α : Type} (fault : Fault) : m α := do
  throw ⟨(← get).start, fault⟩

/-- Fails because something else was expected in place of the next token. -/
def failExpected {α : Type} (wanted : String) : m α := do
  fail (.expected wanted (← get).next?)

/-- Goes past a given punctuator if it is next, and says whether it was. -/
def eatPunct (punct : String) : m Bool := do
  if ← atPunct punct then
    advance
    return true
  else
    return false

/-- Goes past a given word if it is next, and says whether it was. -/
def eatWord (word : String) : m Bool := do
  if ← atWord word then
    advance
    return true
  else
    return false

def expectPunct (punct : String) : m Unit := do
  if !(← eatPunct punct) then
    failExpected ("'" ++ punct ++ "'")

/-- The end of a statement: a semicolon, or nothing before a closing brace, the end of the source or a
newline. -/
def semicolon : m Unit := do
  if ← eatPunct ";" then
    return
  if ← atPunct "\x7d" then
    return
  match (← get).rest with
  | [] => return
  | token :: _ => if !token.newlineBefore then failExpected "';'"

/-- How many statements and expressions may be open at once. -/
def maxDepth : Nat := 500

/-- Reads one level deeper, if the limit allows it. The depth is restored also after a failure. -/
def nested [MonadFinally m] {α : Type} (reader : m α) : m α := do
  if (← get).depth ≥ maxDepth then
    fail .tooDeep
  else
    modify fun cursor => { cursor with depth := cursor.depth + 1 }
    try reader finally modify fun cursor => { cursor with depth := cursor.depth - 1 }

end Tokens

section Nodes

variable {m : Type → Type} {Handle : Type} [Monad m] [MonadStateOf Cursor m] [Making m Handle]

/-- Makes a node from a position to the end of the last token read. -/
def node (kind : String) (start : Pos) (text : Option String) (fields : List (Field Handle)) :
    m Handle := do
  Making.make ⟨kind, some ⟨start, (← get).prevEnd⟩, text⟩ fields

def makeLeaf (kind : String) (token : Token) : m Handle :=
  Making.make ⟨kind, some token.span, some token.kind.text⟩ []

end Nodes

section Repetition

variable {m : Type → Type} {α : Type} [Monad m] [MonadStateOf Cursor m] [MonadExceptOf Error m]

/-- Reads items until told to stop, at most so many. -/
def manyUpTo (stop : m Bool) (item : m α) : Nat → m (List α)
  | 0 => fail .stalled
  | limit + 1 => do
    if ← stop then
      return []
    let first ← item
    let rest ← manyUpTo stop item limit
    return first :: rest

/-- Reads items until told to stop. Each item takes a token, so there are no more items than tokens. -/
def many (stop : m Bool) (item : m α) : m (List α) := do
  manyUpTo stop item ((← get).rest.length + 1)

/-- Reads items between commas up to a closing punctuator, at most so many. -/
def listUpTo (close : String) (item : m α) : Nat → m (List α)
  | 0 => fail .stalled
  | limit + 1 => do
    if ← eatPunct close then
      return []
    let first ← item
    if ← eatPunct "," then
      let rest ← listUpTo close item limit
      return first :: rest
    expectPunct close
    return [first]

/-- Reads items between commas up to a closing punctuator. A comma may stand after the last one. -/
def list (close : String) (item : m α) : m (List α) := do
  listUpTo close item ((← get).rest.length + 1)

def commaSeparated (item : m α) : m (List α) := do
  let first ← item
  let rest ← many (do return !(← eatPunct ",")) item
  return first :: rest

/-- Extends a value until it cannot be extended, at most so often. -/
def growUpTo (extend : α → m (Option α)) : Nat → α → m α
  | 0, _ => fail .stalled
  | limit + 1, value => do
    match ← extend value with
    | none => return value
    | some value => growUpTo extend limit value

/-- Extends a value until it cannot be extended. Each extension takes a token. -/
def grow (extend : α → m (Option α)) (value : α) : m α := do
  growUpTo extend ((← get).rest.length + 1) value

end Repetition

end SyntaxNav.Script

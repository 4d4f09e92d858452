import SyntaxNav.Script.Name

/-! # Functions

Blocks, parameters, and functions written with the word `function`.
-/

namespace SyntaxNav.Script

variable {m : Type → Type} {Handle : Type} [Monad m] [MonadStateOf Cursor m]
  [MonadExceptOf Error m] [MonadFinally m] [Making m Handle] (read : Phrase → m Handle)

/-- A statement before a closing brace that has to come. -/
def statementInBraces : m Handle := do
  if ← atEnd then
    failExpected "'\x7d'"
  else
    read .statement

def block : m Handle := do
  let start ← here
  expectPunct "\x7b"
  let body ← many (eatPunct "\x7d") (statementInBraces read)
  node "BlockStatement" start none [.list "body" body]

/-- A parameter: a name, a name with a default, or a name for the rest. -/
def param : m Handle := do
  let start ← here
  if ← eatPunct "..." then
    let argument ← bindingName
    node "RestElement" start none [.single "argument" argument]
  else
    let left ← bindingName
    if ← eatPunct "=" then
      let right ← read .assignment
      node "AssignmentPattern" start none [.single "left" left, .single "right" right]
    else
      return left

def params : m (List Handle) := do
  expectPunct "("
  list ")" (param read)

def functionName (needed : Bool) : m (Option Handle) := do
  match ← peek with
  | some (.word _) => return some (← bindingName)
  | _ => if needed then return some (← bindingName) else return none

/-- A function of a kind, from the word `function`. -/
def function (kind : String) (needsName : Bool) : m Handle := do
  let start ← here
  advance
  if ← atPunct "*" then
    fail .generator
  let id ← functionName needsName
  let parameters ← params read
  let body ← block read
  node kind start none [.single "id" id, .list "params" parameters, .single "body" body]

/-- The parameters and the body of a method, as fields behind its key. -/
def method (kind : String) (start : Pos) (text : Option String) (key : Handle) : m Handle := do
  let parameters ← params read
  let body ← block read
  node kind start text [.single "key" key, .list "params" parameters, .single "body" body]

end SyntaxNav.Script

import SyntaxNav.Script.Function
import SyntaxNav.Script.Operator

/-! # Expressions

From the inside out: primary expressions, chains of members and calls, constructions, operators in
front of, behind and between operands, conditionals, arrow functions and assignments.
-/

namespace SyntaxNav.Script

variable {m : Type → Type} {Handle : Type} [Monad m] [MonadStateOf Cursor m]
  [MonadExceptOf Error m] [MonadFinally m] [Making m Handle] (read : Phrase → m Handle)

/-- An argument of a call or an element of an array: an expression, or three dots and one. -/
def argument : m Handle := do
  let start ← here
  if ← eatPunct "..." then
    let inner ← read .assignment
    node "SpreadElement" start none [.single "argument" inner]
  else
    read .assignment

/-- What follows the key of a property: parameters of a method, a value, or nothing, if the key is a
name. Then the name is also the value. -/
def objectProperty (start : Pos) (keyToken : Option Token) (key : Handle) : m Handle := do
  if ← atPunct "(" then
    method read "ObjectMethod" start none key
  else if ← eatPunct ":" then
    let value ← read .assignment
    node "ObjectProperty" start none [.single "key" key, .single "value" value]
  else
    match keyToken with
    | some token =>
      match token.kind with
      | .word name =>
        if isKeyword name then
          failExpected "':'"
        else
          let value ← makeLeaf "Identifier" token
          node "ObjectProperty" start "shorthand" [.single "key" key, .single "value" value]
      | _ => failExpected "':'"
    | none => failExpected "':'"

def objectMember : m Handle := do
  let start ← here
  if ← eatPunct "..." then
    let inner ← read .assignment
    node "SpreadElement" start none [.single "argument" inner]
  else
    let keyToken := (← get).rest.head?
    let key ← propertyKey read
    objectProperty read start keyToken key

def literal (kind : String) (token : Token) : m Handle := do
  advance
  makeLeaf kind token

/-- The node of a next token that says everything by its kind. -/
def constant (kind : String) : m Handle := do
  let start ← here
  advance
  node kind start none []

def array : m Handle := do
  let start ← here
  advance
  let elements ← list "]" (argument read)
  node "ArrayExpression" start none [.list "elements" elements]

def object : m Handle := do
  let start ← here
  advance
  let properties ← list "\x7d" (objectMember read)
  node "ObjectExpression" start none [.list "properties" properties]

/-- An expression without operators, members or calls. -/
def primary : m Handle := do
  match (← get).rest with
  | [] => failExpected "an expression"
  | token :: _ =>
    match token.kind with
    | .number _ => literal "NumericLiteral" token
    | .string _ => literal "StringLiteral" token
    | .word "true" | .word "false" => literal "BooleanLiteral" token
    | .word "null" => constant "NullLiteral"
    | .word "this" => constant "ThisExpression"
    | .word "function" => function read "FunctionExpression" false
    | .word name =>
      if isKeyword name then failExpected "an expression" else literal "Identifier" token
    | .punct "(" => parenthesized read
    | .punct "[" => array read
    | .punct "\x7b" => object read
    | .punct _ => failExpected "an expression"

/-- The member of an object that an expression in brackets names, behind the opening bracket. -/
def computedMember (start : Pos) (object : Handle) : m Handle := do
  let property ← expression read
  expectPunct "]"
  node "MemberExpression" start "computed" [.single "object" object, .single "property" property]

/-- The member of an object that a word names, behind the point. -/
def namedMember (kind : String) (start : Pos) (object : Handle) : m Handle := do
  let property ← propertyName
  node kind start none [.single "object" object, .single "property" property]

/-- A member that is read only if there is an object, behind its mark. Only a name may follow. -/
def optionalMember (start : Pos) (object : Handle) : m Handle := do
  if (← atPunct "(") || (← atPunct "[") then
    fail .optionalAccess
  else
    namedMember "OptionalMemberExpression" start object

/-- A member or a call of what has been read, if one follows. -/
def memberOrCall (start : Pos) (inner : Handle) : m (Option Handle) := do
  if ← eatPunct "." then
    return some (← namedMember "MemberExpression" start inner)
  else if ← eatPunct "?." then
    return some (← optionalMember start inner)
  else if ← eatPunct "[" then
    return some (← computedMember read start inner)
  else if ← eatPunct "(" then
    let arguments ← list ")" (argument read)
    return some
      (← node "CallExpression" start none [.single "callee" inner, .list "arguments" arguments])
  else
    return none

/-- A primary expression or a construction, with the members and calls behind it. -/
def chain : m Handle := do
  let start ← here
  let inner ← if ← atWord "new" then read .construction else primary read
  grow (memberOrCall read start) inner

/-- A member of what is constructed, if one follows. -/
def constructedMember (start : Pos) (inner : Handle) : m (Option Handle) := do
  if ← eatPunct "." then
    return some (← namedMember "MemberExpression" start inner)
  else if ← eatPunct "[" then
    return some (← computedMember read start inner)
  else
    return none

/-- A construction: the word `new`, what is constructed, and arguments if there are any. -/
def construction : m Handle := do
  let start ← here
  advance
  let inner ← if ← atWord "new" then nested (read .construction) else primary read
  let callee ← grow (constructedMember read start) inner
  let arguments ← if ← eatPunct "(" then list ")" (argument read) else pure []
  node "NewExpression" start none [.single "callee" callee, .list "arguments" arguments]

/-- The operator behind an operand, if it is next and on the same line. -/
def trailingOperator? (cursor : Cursor) : Option String :=
  match cursor.rest with
  | ⟨.punct "++", _, false⟩ :: _ => some "++"
  | ⟨.punct "--", _, false⟩ :: _ => some "--"
  | _ => none

/-- An operand with an operator behind it, if there is one. -/
def postfixed : m Handle := do
  let start ← here
  let inner ← chain read
  match trailingOperator? (← get) with
  | none => return inner
  | some operator =>
    advance
    node "UpdateExpression" start operator [.single "argument" inner]

/-- An operand with the operators in front of it or behind it. -/
def unary : m Handle := do
  let start ← here
  match (← peek).bind leadingOperator? with
  | none => postfixed read
  | some (kind, operator) =>
    advance
    let inner ← read .unary
    node kind start operator [.single "argument" inner]

/-- A further operator of at least a precedence with its right operand, if one follows. -/
def operation (start : Pos) (least : Nat) (allowIn : Bool) (left : Handle) :
    m (Option Handle) := do
  match (← peek).bind Operator.ofToken? with
  | none => return none
  | some operator =>
    if operator.precedence < least || (operator.text = "in" && !allowIn) then
      return none
    else
      advance
      let right ← read (.binary operator.rightLeast allowIn)
      return some (← node operator.nodeKind start operator.text
        [.single "left" left, .single "right" right])

/-- Operands joined by operators of at least a precedence. -/
def binary (least : Nat) (allowIn : Bool) : m Handle := do
  let start ← here
  let first ← read .unary
  grow (operation read start least allowIn) first

/-- A conditional expression, or what would be its test. -/
def conditional : m Handle := do
  let start ← here
  let test ← read (.binary 1 true)
  if ← eatPunct "?" then
    let consequent ← read .assignment
    expectPunct ":"
    let alternate ← read .assignment
    node "ConditionalExpression" start none
      [.single "test" test, .single "consequent" consequent, .single "alternate" alternate]
  else
    return test

/-- An assignment to what has been read, if an assigning operator follows. -/
def assignmentTo (start : Pos) (left : Handle) : m Handle := do
  match (← peek).bind assignmentOperator? with
  | none => return left
  | some operator =>
    advance
    let right ← read .assignment
    node "AssignmentExpression" start operator [.single "left" left, .single "right" right]

def isOpening (punct : String) : Bool :=
  punct = "(" || punct = "[" || punct = "\x7b"

def isClosing (punct : String) : Bool :=
  punct = ")" || punct = "]" || punct = "\x7d"

def startsWithArrow : List Token → Bool
  | token :: _ => token.kind = .punct "=>"
  | [] => false

/-- Whether an arrow follows the bracket that closes the last of so many open ones. -/
def arrowBehind (opened : Nat) : List Token → Bool
  | [] => false
  | token :: rest =>
    match token.kind with
    | .punct punct =>
      if isOpening punct then arrowBehind (opened + 1) rest
      else if isClosing punct then
        if opened = 1 then startsWithArrow rest else arrowBehind (opened - 1) rest
      else arrowBehind opened rest
    | _ => arrowBehind opened rest

/-- Whether the next tokens are the parameters of an arrow function: a name, or a parenthesis, with an
arrow behind it. -/
def Cursor.atArrow (cursor : Cursor) : Bool :=
  match cursor.rest with
  | [] => false
  | token :: rest =>
    match token.kind with
    | .word name => !isKeyword name && startsWithArrow rest
    | .punct "(" => arrowBehind 1 rest
    | _ => false

def arrow : m Handle := do
  let start ← here
  let parameters ← if ← atPunct "(" then params read else pure [← bindingName]
  expectPunct "=>"
  let body ← if ← atPunct "\x7b" then block read else read .assignment
  node "ArrowFunctionExpression" start none [.list "params" parameters, .single "body" body]

/-- An expression that is no arrow function and has no comma at its top. -/
def assignmentOrConditional : m Handle := do
  let start ← here
  let left ← conditional read
  assignmentTo read start left

/-- An expression without a comma at its top. -/
def assignment : m Handle := do
  if (← get).atArrow then
    arrow read
  else
    assignmentOrConditional read

/-- An expression at the head of a loop, in which `in` is no operator and conditionals and arrow
functions have to stand in parentheses. -/
def headExpression : m Handle :=
  sequence do
    let start ← here
    let left ← read (.binary 1 false)
    assignmentTo read start left

end SyntaxNav.Script

import SyntaxNav.Proofs.Script.Coverage
import SyntaxNav.Proofs.Tree.Occurrence
import SyntaxNav.Tree.Basic

/-! # Printing scripts

A draft is printed as tokens with single spaces between them. Parts of expressions stand in
parentheses unless they are names, literals or `this`; so do expressions as statements and at the start
of a loop, in any case. A semicolon stands behind every statement and property that may have one. Keys
that are no names, numbers or strings stand in brackets, and operators that update stand in front.

Every node is written from its kind, its text and what was written for its children, field by field.
-/

namespace SyntaxNav.Script

/-- What is written for a node by itself, and its kind, which decides what its parent adds. -/
structure Piece where
  kind : String
  tokens : List TokenKind

def parens (inner : List TokenKind) : List TokenKind :=
  .punct "(" :: (inner ++ [.punct ")"])

def brackets (inner : List TokenKind) : List TokenKind :=
  .punct "[" :: (inner ++ [.punct "]"])

def braces (inner : List TokenKind) : List TokenKind :=
  .punct "\x7b" :: (inner ++ [.punct "\x7d"])

def commas : List (List TokenKind) → List TokenKind
  | [] => []
  | [run] => run
  | run :: rest => run ++ .punct "," :: commas rest

/-- The token of an operator: a punctuator or a word. -/
def spell (operator : String) : TokenKind :=
  if punctuators.contains operator then .punct operator else .word operator

/-- The expressions that stand without parentheses. -/
def bareKinds : List String :=
  ["Identifier", "NumericLiteral", "StringLiteral", "BooleanLiteral", "NullLiteral", "ThisExpression"]

/-- The keys that stand without brackets. -/
def plainKeys : List String :=
  ["Identifier", "NumericLiteral", "StringLiteral"]

def closedKinds : List String :=
  ["VariableDeclaration", "ExpressionStatement", "DoWhileStatement", "ReturnStatement",
    "ThrowStatement", "BreakStatement", "ContinueStatement", "ClassProperty"]

namespace Piece

def operand (piece : Piece) : List TokenKind :=
  if bareKinds.contains piece.kind then piece.tokens else parens piece.tokens

def argument (piece : Piece) : List TokenKind :=
  if piece.kind = "SpreadElement" then piece.tokens else piece.operand

def arrowBody (piece : Piece) : List TokenKind :=
  if piece.kind = "BlockStatement" then piece.tokens else piece.operand

def key (piece : Piece) : List TokenKind :=
  if plainKeys.contains piece.kind then piece.tokens else brackets piece.operand

def loopInit (piece : Piece) : List TokenKind :=
  if piece.kind = "VariableDeclaration" then piece.tokens else parens piece.tokens

/-- A statement or a member of a class, with its end. -/
def closed (piece : Piece) : List TokenKind :=
  if closedKinds.contains piece.kind then piece.tokens ++ [.punct ";"] else piece.tokens

end Piece

/-- What was written for the children of a node, by field. -/
abbrev Parts := String → List Piece

namespace Parts

/-- What is written for the children in a field, one after another. -/
def each (parts : Parts) (field : String) (write : Piece → List TokenKind) : List TokenKind :=
  (parts field).flatMap write

/-- What is written for the children in a field, with commas between them. -/
def listed (parts : Parts) (field : String) (write : Piece → List TokenKind) : List TokenKind :=
  commas ((parts field).map write)

def callable (parts : Parts) : List TokenKind :=
  parens (parts.listed "params" Piece.tokens) ++ parts.each "body" Piece.tokens

def function (parts : Parts) : List TokenKind :=
  .word "function" :: (parts.each "id" Piece.tokens ++ parts.callable)

end Parts

section Nodes

variable (text : Option String) (parts : Parts)

/-- The word that makes a member of a class belong to the class itself. -/
def staticTokens : List TokenKind :=
  if text = some "static" then [.word "static"] else []

@[simp] def statementTokens : String → List TokenKind
  | "Program" => parts.each "body" Piece.closed
  | "BlockStatement" => braces (parts.each "body" Piece.closed)
  | "EmptyStatement" => [.punct ";"]
  | "FunctionDeclaration" => parts.function
  | "ClassDeclaration" =>
    .word "class" :: (parts.each "id" Piece.tokens ++
      (parts.each "superClass" (fun piece => .word "extends" :: piece.operand) ++
        parts.each "body" Piece.tokens))
  | "VariableDeclaration" => .word (text.getD "") :: parts.listed "declarations" Piece.tokens
  | "IfStatement" =>
    .word "if" :: (parens (parts.each "test" Piece.operand) ++ (parts.each "consequent" Piece.closed ++
      parts.each "alternate" fun piece => .word "else" :: piece.closed))
  | "ForStatement" =>
    .word "for" :: (parens (parts.each "init" Piece.loopInit ++ .punct ";" ::
      (parts.each "test" Piece.operand ++ .punct ";" :: parts.each "update" Piece.operand)) ++
        parts.each "body" Piece.closed)
  | "WhileStatement" =>
    .word "while" :: (parens (parts.each "test" Piece.operand) ++ parts.each "body" Piece.closed)
  | "DoWhileStatement" =>
    .word "do" :: (parts.each "body" Piece.closed ++
      .word "while" :: parens (parts.each "test" Piece.operand))
  | "ReturnStatement" => .word "return" :: parts.each "argument" Piece.operand
  | "ThrowStatement" => .word "throw" :: parts.each "argument" Piece.operand
  | "BreakStatement" => [.word "break"]
  | "ContinueStatement" => [.word "continue"]
  | "TryStatement" =>
    .word "try" :: (parts.each "block" Piece.tokens ++ (parts.each "handler" Piece.tokens ++
      parts.each "finalizer" fun piece => .word "finally" :: piece.tokens))
  | "SwitchStatement" =>
    .word "switch" :: (parens (parts.each "discriminant" Piece.operand) ++
      braces (parts.each "cases" Piece.tokens))
  | "ExpressionStatement" => parts.each "expression" fun piece => parens piece.tokens
  | _ => []

/-- The tokens of a part of a function, an object, a class or a statement. -/
@[simp] def partTokens : String → List TokenKind
  | "VariableDeclarator" =>
    parts.each "id" Piece.tokens ++ parts.each "init" fun piece => .punct "=" :: piece.operand
  | "CatchClause" =>
    .word "catch" :: (parts.each "param" (fun piece => parens piece.tokens) ++
      parts.each "body" Piece.tokens)
  | "SwitchCase" =>
    (if (parts "test").isEmpty then [.word "default"]
      else .word "case" :: parts.each "test" Piece.operand) ++
      .punct ":" :: parts.each "consequent" Piece.closed
  | "RestElement" | "SpreadElement" => .punct "..." :: parts.each "argument" Piece.operand
  | "AssignmentPattern" =>
    parts.each "left" Piece.tokens ++ .punct "=" :: parts.each "right" Piece.operand
  | "ObjectProperty" =>
    if text = some "shorthand" then parts.each "key" Piece.tokens
    else parts.each "key" Piece.key ++ .punct ":" :: parts.each "value" Piece.operand
  | "ObjectMethod" => parts.each "key" Piece.key ++ parts.callable
  | "ClassMethod" => staticTokens text ++ (parts.each "key" Piece.key ++ parts.callable)
  | "ClassProperty" =>
    staticTokens text ++ (parts.each "key" Piece.key ++
      parts.each "value" fun piece => .punct "=" :: piece.operand)
  | "ClassBody" => braces (parts.each "body" Piece.closed)
  | kind => statementTokens text parts kind

@[simp] def nodeTokens : String → List TokenKind
  | "Identifier" | "BooleanLiteral" => [.word (text.getD "")]
  | "NumericLiteral" => [.number (text.getD "")]
  | "StringLiteral" => [.string (text.getD "")]
  | "NullLiteral" => [.word "null"]
  | "ThisExpression" => [.word "this"]
  | "FunctionExpression" => parts.function
  | "ArrayExpression" => brackets (parts.listed "elements" Piece.argument)
  | "ObjectExpression" => braces (parts.listed "properties" Piece.tokens)
  | "MemberExpression" =>
    parts.each "object" Piece.operand ++
      if text = some "computed" then brackets (parts.each "property" Piece.operand)
      else .punct "." :: parts.each "property" Piece.tokens
  | "OptionalMemberExpression" =>
    parts.each "object" Piece.operand ++ .punct "?." :: parts.each "property" Piece.tokens
  | "CallExpression" =>
    parts.each "callee" Piece.operand ++ parens (parts.listed "arguments" Piece.argument)
  | "NewExpression" =>
    .word "new" :: (parts.each "callee" Piece.operand ++
      parens (parts.listed "arguments" Piece.argument))
  | "UnaryExpression" | "UpdateExpression" =>
    spell (text.getD "") :: parts.each "argument" Piece.operand
  | "BinaryExpression" | "LogicalExpression" | "AssignmentExpression" =>
    parts.each "left" Piece.operand ++ spell (text.getD "") :: parts.each "right" Piece.operand
  | "ConditionalExpression" =>
    parts.each "test" Piece.operand ++ .punct "?" :: (parts.each "consequent" Piece.operand ++
      .punct ":" :: parts.each "alternate" Piece.operand)
  | "ArrowFunctionExpression" =>
    parens (parts.listed "params" Piece.tokens) ++ .punct "=>" :: parts.each "body" Piece.arrowBody
  | "SequenceExpression" => parts.listed "expressions" Piece.operand
  | kind => partTokens text parts kind

end Nodes

mutual

def tokensOf : Draft → List TokenKind
  | .node label children =>
    nodeTokens label.text (fun field => (piecesOf children).filterMap fun (name, piece) =>
      if name = field then some piece else none) label.kind

/-- What is written for children, with their fields. -/
def piecesOf : List (Slot × Draft) → List (String × Piece)
  | [] => []
  | (slot, child) :: rest => (slot.field, ⟨child.label.kind, tokensOf child⟩) :: piecesOf rest

end

/-- The text of tokens with single spaces between them. -/
def spaced (tokens : List TokenKind) : String :=
  " ".intercalate (tokens.map TokenKind.text)

end SyntaxNav.Script

namespace SyntaxNav

/-- A tree is printed as the tokens that are written for its nodes, with single spaces between them. -/
def Tree.print (tree : Tree) : String :=
  Script.spaced (Script.tokensOf (tree.root.relabel Numbered.toLabel))

end SyntaxNav

import SyntaxNav.Script.Expression

/-! # Statements

Declarations, control flow, classes and expression statements.
-/

namespace SyntaxNav.Script

variable {m : Type → Type} {Handle : Type} [Monad m] [MonadStateOf Cursor m]
  [MonadExceptOf Error m] [MonadFinally m] [Making m Handle] (read : Phrase → m Handle)

def declarator : m Handle := do
  let start ← here
  let id ← bindingName
  let init ← if ← eatPunct "=" then pure (some (← read .assignment)) else pure none
  node "VariableDeclarator" start none [.single "id" id, .single "init" init]

/-- The word that declares and the names with their values, without the end of the statement. -/
def declarators : m (String × List Handle) := do
  match ← peek with
  | some (.word word) =>
    advance
    let declarations ← commaSeparated (declarator read)
    return (word, declarations)
  | _ =>
    advance
    failExpected "a declaration"

/-- A declaration of variables, with the end of the statement. -/
def variableDeclaration : m Handle := do
  let start ← here
  let (word, declarations) ← declarators read
  semicolon
  node "VariableDeclaration" start word [.list "declarations" declarations]

def emptyStatement : m Handle :=
  constant "EmptyStatement"

def ifStatement : m Handle := do
  let start ← here
  advance
  let test ← parenthesized read
  let consequent ← read .statement
  let alternate ← if ← eatWord "else" then pure (some (← read .statement)) else pure none
  node "IfStatement" start none
    [.single "test" test, .single "consequent" consequent, .single "alternate" alternate]

/-- What a loop starts with: nothing, a declaration, or an expression. -/
def loopInit : m (Option Handle) := do
  if ← atPunct ";" then
    return none
  else if (← atWord "var") || (← atWord "let") || (← atWord "const") then
    let start ← here
    let (word, declarations) ← declarators read
    return some (← node "VariableDeclaration" start word [.list "declarations" declarations])
  else
    return some (← headExpression read)

def expressionUnless (punct : String) : m (Option Handle) := do
  if ← atPunct punct then
    return none
  else
    return some (← expression read)

def forStatement : m Handle := do
  let start ← here
  advance
  expectPunct "("
  let init ← loopInit read
  if (← atWord "of") || (← atWord "in") then
    fail .loopOver
  expectPunct ";"
  let test ← expressionUnless read ";"
  expectPunct ";"
  let update ← expressionUnless read ")"
  expectPunct ")"
  let body ← read .statement
  node "ForStatement" start none
    [.single "init" init, .single "test" test, .single "update" update, .single "body" body]

def whileStatement : m Handle := do
  let start ← here
  advance
  let test ← parenthesized read
  let body ← read .statement
  node "WhileStatement" start none [.single "test" test, .single "body" body]

/-- A loop with its test behind its body. The test is still its first field. -/
def doWhileStatement : m Handle := do
  let start ← here
  advance
  let body ← read .statement
  if !(← eatWord "while") then
    failExpected "'while'"
  let test ← parenthesized read
  discard (eatPunct ";")
  node "DoWhileStatement" start none [.single "test" test, .single "body" body]

/-- What a function returns, unless the statement ends here. -/
def returnedValue : m (Option Handle) := do
  match (← get).rest with
  | [] => return none
  | token :: _ =>
    if token.newlineBefore || token.kind = .punct ";" || token.kind = .punct "\x7d" then
      return none
    else
      return some (← expression read)

def returnStatement : m Handle := do
  let start ← here
  advance
  let value ← returnedValue read
  semicolon
  node "ReturnStatement" start none [.single "argument" value]

def throwStatement : m Handle := do
  let start ← here
  advance
  let value ← expression read
  semicolon
  node "ThrowStatement" start none [.single "argument" value]

/-- Fails at a word on the same line, which would be a label. -/
def noLabel : m Unit := do
  match (← get).rest with
  | ⟨.word _, span, false⟩ :: _ => failAt span.start .jumpLabel
  | _ => return

/-- A jump out of or to the next round of a loop. -/
def jumpStatement (kind : String) : m Handle := do
  let start ← here
  advance
  noLabel
  semicolon
  node kind start none []

/-- What to do with a thrown value, if anything is said about it. -/
def handler : m (Option Handle) := do
  let start ← here
  if ← eatWord "catch" then
    let param ← if ← eatPunct "(" then
        let name ← bindingName
        expectPunct ")"
        pure (some name)
      else
        pure none
    let body ← block read
    return some (← node "CatchClause" start none [.single "param" param, .single "body" body])
  else
    return none

def tryStatement : m Handle := do
  let start ← here
  advance
  let body ← block read
  let handler ← handler read
  let finalizer ← if ← eatWord "finally" then pure (some (← block read)) else pure none
  if handler.isNone && finalizer.isNone then
    failExpected "'catch' or 'finally'"
  node "TryStatement" start none
    [.single "block" body, .single "handler" handler, .single "finalizer" finalizer]

/-- The value that a case of a selection stands for, or none for the default. -/
def caseTest : m (Option Handle) := do
  if ← eatWord "case" then
    return some (← expression read)
  else if ← eatWord "default" then
    return none
  else
    failExpected "'case' or 'default'"

def atCaseEnd : m Bool := do
  return (← atWord "case") || (← atWord "default") || (← atPunct "\x7d")

def switchCase : m Handle := do
  let start ← here
  let test ← caseTest read
  expectPunct ":"
  let consequent ← many atCaseEnd (statementInBraces read)
  node "SwitchCase" start none [.single "test" test, .list "consequent" consequent]

def switchStatement : m Handle := do
  let start ← here
  advance
  let discriminant ← parenthesized read
  expectPunct "\x7b"
  let cases ← many (eatPunct "\x7d") (switchCase read)
  node "SwitchStatement" start none [.single "discriminant" discriminant, .list "cases" cases]

/-- Whether the next word says that a member belongs to the class itself, and is not its name. -/
def Cursor.atStatic (cursor : Cursor) : Bool :=
  cursor.atWord "static" &&
    match cursor.second? with
    | some (.punct "(") | some (.punct "=") | some (.punct ";") | some (.punct "\x7d") => false
    | _ => true

def classMember : m Handle := do
  let start ← here
  let isStatic := (← get).atStatic
  if isStatic then
    advance
  let text := if isStatic then some "static" else none
  let key ← propertyKey read
  if ← atPunct "(" then
    method read "ClassMethod" start text key
  else
    let value ← if ← eatPunct "=" then pure (some (← read .assignment)) else pure none
    semicolon
    node "ClassProperty" start text [.single "key" key, .single "value" value]

/-- A member of a class, or a semicolon, which is none. -/
def classItem : m (Option Handle) := do
  if ← eatPunct ";" then
    return none
  else
    return some (← classMember read)

def classBody : m Handle := do
  let start ← here
  expectPunct "\x7b"
  let items ← many (eatPunct "\x7d") (classItem read)
  node "ClassBody" start none [.list "body" (items.filterMap id)]

def classDeclaration : m Handle := do
  let start ← here
  advance
  let id ← bindingName
  let superClass ← if ← eatWord "extends" then pure (some (← chain read)) else pure none
  let body ← classBody read
  node "ClassDeclaration" start none
    [.single "id" id, .single "superClass" superClass, .single "body" body]

def expressionStatement : m Handle := do
  let start ← here
  let inner ← expression read
  semicolon
  node "ExpressionStatement" start none [.single "expression" inner]

/-- Whether the word `let` declares something here: a word, a bracket or a brace follows it. -/
def Cursor.atLetDeclaration (cursor : Cursor) : Bool :=
  match cursor.second? with
  | some (.word _) | some (.punct "[") | some (.punct "\x7b") => true
  | _ => false

/-- A statement or declaration, told by its first token. -/
def statement : m Handle := do
  let start ← here
  match ← peek with
  | none => failExpected "a statement"
  | some (.punct "\x7b") => block read
  | some (.punct ";") => emptyStatement
  | some (.word "function") => function read "FunctionDeclaration" true
  | some (.word "class") => classDeclaration read
  | some (.word "var") | some (.word "const") => variableDeclaration read
  | some (.word "let") =>
    if (← get).atLetDeclaration then variableDeclaration read else expressionStatement read
  | some (.word "if") => ifStatement read
  | some (.word "for") => forStatement read
  | some (.word "while") => whileStatement read
  | some (.word "do") => doWhileStatement read
  | some (.word "return") => returnStatement read
  | some (.word "throw") => throwStatement read
  | some (.word "break") => jumpStatement "BreakStatement"
  | some (.word "continue") => jumpStatement "ContinueStatement"
  | some (.word "try") => tryStatement read
  | some (.word "switch") => switchStatement read
  | some (.word "import") => failAt start (.moduleDeclaration "import")
  | some (.word "export") => failAt start (.moduleDeclaration "export")
  | some _ => expressionStatement read

end SyntaxNav.Script

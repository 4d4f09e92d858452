import SyntaxNav.Proofs.Script.Layout
import SyntaxNav.Proofs.Script.Printing

/-! # The forms of drafts

`Formed` lists the drafts that scripts are read as, one rule for each kind of node, with all positions
moved to one place. Besides kinds and fields the rules say what the texts of a node can be: names are no
keywords, and operators are spelled as operators. A conditional statement with an alternative has a
consequent that is not open, since the alternative would have gone to the open one.
-/

namespace SyntaxNav.Script

/-- A draft with all its positions moved to one place. -/
abbrev flat (draft : Draft) : Draft := draft.relocate nowhere

def tree (kind : String) (text : Option String) (fields : List (Field Draft)) : Draft :=
  .branch ⟨kind, some ⟨.origin, .origin⟩, text⟩ fields

def atom (kind text : String) : Draft :=
  .node ⟨kind, some ⟨.origin, .origin⟩, some text⟩ []

@[simp] theorem flat_branch (kind : String) (span : Span) (text : Option String)
    (fields : List (Field Draft)) :
    flat (.branch ⟨kind, some span, text⟩ fields) = tree kind text (fields.map (Field.map flat)) :=
  Draft.relocate_branch nowhere _ fields

@[simp] theorem flat_leaf (kind : String) (token : Token) :
    flat (leaf kind token) = atom kind token.kind.text := rfl

@[simp] theorem label_tree (kind : String) (text : Option String) (fields : List (Field Draft)) :
    (tree kind text fields).label.kind = kind := rfl

@[simp] theorem label_atom (kind text : String) : (atom kind text).label.kind = kind := rfl

mutual

/-- Whether a statement ends in a conditional without an alternative, so that a word `else` behind it
would belong to it. -/
def isOpen : Draft → Bool
  | .node label children =>
    match label.kind with
    | "IfStatement" => ((openFields children).lookup "alternate").getD true
    | "WhileStatement" | "ForStatement" => ((openFields children).lookup "body").getD false
    | _ => false

/-- Which children are open, with their fields. -/
def openFields : List (Slot × Draft) → List (String × Bool)
  | [] => []
  | (slot, child) :: rest => (slot.field, isOpen child) :: openFields rest

end

/-- The parts of the grammar that drafts belong to. -/
inductive Category where
  /-- Names that are bound or used as expressions. -/
  | name
  /-- Expressions that are written without parentheses. -/
  | bare
  /-- All other expressions. -/
  | compound
  | expression
  /-- Arguments of calls and elements of arrays. -/
  | argument
  | key
  /-- Members of objects in braces. -/
  | property
  | param
  | block
  | declarator
  /-- Declarations of variables without the end of the statement. -/
  | declaration
  | statement
  | handler
  /-- Cases of a selection. -/
  | clause
  /-- Members of classes. -/
  | member
deriving DecidableEq

/-- The drafts of each category. -/
inductive Formed : Category → Draft → Prop
  | name {text : String} : isKeyword text = false → Formed .name (atom "Identifier" text)
  | identifier {draft : Draft} : Formed .name draft → Formed .bare draft
  | number (text : String) : Formed .bare (atom "NumericLiteral" text)
  | string (text : String) : Formed .bare (atom "StringLiteral" text)
  | boolean {text : String} : text = "true" ∨ text = "false" → Formed .bare (atom "BooleanLiteral" text)
  | null : Formed .bare (tree "NullLiteral" none [])
  | this : Formed .bare (tree "ThisExpression" none [])
  | ofBare {draft : Draft} : Formed .bare draft → Formed .expression draft
  | ofCompound {draft : Draft} : Formed .compound draft → Formed .expression draft
  | function {id : Option Draft} {params : List Draft} {body : Draft} :
      (∀ draft ∈ id, Formed .name draft) → (∀ draft ∈ params, Formed .param draft) →
      Formed .block body → Formed .compound (tree "FunctionExpression" none
        [.single "id" id, .list "params" params, .single "body" body])
  | array {elements : List Draft} : (∀ draft ∈ elements, Formed .argument draft) →
      Formed .compound (tree "ArrayExpression" none [.list "elements" elements])
  | object {properties : List Draft} : (∀ draft ∈ properties, Formed .property draft) →
      Formed .compound (tree "ObjectExpression" none [.list "properties" properties])
  | computed {object property : Draft} : Formed .expression object → Formed .expression property →
      Formed .compound (tree "MemberExpression" "computed"
        [.single "object" object, .single "property" property])
  | named {object : Draft} (word : String) : Formed .expression object →
      Formed .compound (tree "MemberExpression" none
        [.single "object" object, .single "property" (atom "Identifier" word)])
  | optional {object : Draft} (word : String) : Formed .expression object →
      Formed .compound (tree "OptionalMemberExpression" none
        [.single "object" object, .single "property" (atom "Identifier" word)])
  | call {callee : Draft} {arguments : List Draft} : Formed .expression callee →
      (∀ draft ∈ arguments, Formed .argument draft) →
      Formed .compound (tree "CallExpression" none
        [.single "callee" callee, .list "arguments" arguments])
  | construction {callee : Draft} {arguments : List Draft} : Formed .expression callee →
      (∀ draft ∈ arguments, Formed .argument draft) →
      Formed .compound (tree "NewExpression" none
        [.single "callee" callee, .list "arguments" arguments])
  | leading {kind operator : String} {argument : Draft} :
      leadingOperator? (spell operator) = some (kind, operator) → Formed .expression argument →
      Formed .compound (tree kind operator [.single "argument" argument])
  | operation {operator : Operator} {left right : Draft} :
      Operator.ofToken? (spell operator.text) = some operator → Formed .expression left →
      Formed .expression right → Formed .compound (tree operator.nodeKind operator.text
        [.single "left" left, .single "right" right])
  | conditional {test consequent alternate : Draft} : Formed .expression test →
      Formed .expression consequent → Formed .expression alternate →
      Formed .compound (tree "ConditionalExpression" none
        [.single "test" test, .single "consequent" consequent, .single "alternate" alternate])
  | assignment {operator : String} {left right : Draft} :
      assignmentOperator? (spell operator) = some operator → Formed .expression left →
      Formed .expression right → Formed .compound (tree "AssignmentExpression" operator
        [.single "left" left, .single "right" right])
  | arrow {category : Category} {params : List Draft} {body : Draft} :
      category = .block ∨ category = .expression → (∀ draft ∈ params, Formed .param draft) →
      Formed category body → Formed .compound (tree "ArrowFunctionExpression" none
        [.list "params" params, .single "body" body])
  | sequence {first second : Draft} {rest : List Draft} :
      (∀ draft ∈ first :: second :: rest, Formed .expression draft) →
      Formed .compound (tree "SequenceExpression" none
        [.list "expressions" (first :: second :: rest)])
  | value {draft : Draft} : Formed .expression draft → Formed .argument draft
  | spread {draft : Draft} : Formed .expression draft →
      Formed .argument (tree "SpreadElement" none [.single "argument" draft])
  | word (text : String) : Formed .key (atom "Identifier" text)
  | ofExpression {draft : Draft} : Formed .expression draft → Formed .key draft
  | shorthand {text : String} : isKeyword text = false →
      Formed .property (tree "ObjectProperty" "shorthand"
        [.single "key" (atom "Identifier" text), .single "value" (atom "Identifier" text)])
  | property {key value : Draft} : Formed .key key → Formed .expression value →
      Formed .property (tree "ObjectProperty" none [.single "key" key, .single "value" value])
  | method {key body : Draft} {params : List Draft} : Formed .key key →
      (∀ draft ∈ params, Formed .param draft) → Formed .block body →
      Formed .property (tree "ObjectMethod" none
        [.single "key" key, .list "params" params, .single "body" body])
  | spreadProperty {draft : Draft} : Formed .expression draft →
      Formed .property (tree "SpreadElement" none [.single "argument" draft])
  | param {draft : Draft} : Formed .name draft → Formed .param draft
  | restParam {draft : Draft} : Formed .name draft →
      Formed .param (tree "RestElement" none [.single "argument" draft])
  | defaultParam {left right : Draft} : Formed .name left → Formed .expression right →
      Formed .param (tree "AssignmentPattern" none [.single "left" left, .single "right" right])
  | block {body : List Draft} : (∀ draft ∈ body, Formed .statement draft) →
      Formed .block (tree "BlockStatement" none [.list "body" body])
  | declarator {id : Draft} {init : Option Draft} : Formed .name id →
      (∀ draft ∈ init, Formed .expression draft) →
      Formed .declarator (tree "VariableDeclarator" none [.single "id" id, .single "init" init])
  | declaration {word : String} {first : Draft} {rest : List Draft} :
      word = "var" ∨ word = "let" ∨ word = "const" →
      (∀ draft ∈ first :: rest, Formed .declarator draft) →
      Formed .declaration (tree "VariableDeclaration" word [.list "declarations" (first :: rest)])
  | ofBlock {draft : Draft} : Formed .block draft → Formed .statement draft
  | ofDeclaration {draft : Draft} : Formed .declaration draft → Formed .statement draft
  | empty : Formed .statement (tree "EmptyStatement" none [])
  | functionDeclaration {id body : Draft} {params : List Draft} : Formed .name id →
      (∀ draft ∈ params, Formed .param draft) → Formed .block body →
      Formed .statement (tree "FunctionDeclaration" none
        [.single "id" id, .list "params" params, .single "body" body])
  | classDeclaration {id : Draft} {superClass : Option Draft} {members : List Draft} :
      Formed .name id → (∀ draft ∈ superClass, Formed .expression draft) →
      (∀ draft ∈ members, Formed .member draft) →
      Formed .statement (tree "ClassDeclaration" none [.single "id" id, .single "superClass" superClass,
        .single "body" (tree "ClassBody" none [.list "body" members])])
  | ifStatement {test consequent : Draft} {alternate : Option Draft} : Formed .expression test →
      Formed .statement consequent → (∀ draft ∈ alternate, Formed .statement draft) →
      (alternate.isSome = true → isOpen consequent = false) →
      Formed .statement (tree "IfStatement" none
        [.single "test" test, .single "consequent" consequent, .single "alternate" alternate])
  | forStatement {category : Category} {init test update : Option Draft} {body : Draft} :
      category = .declaration ∨ category = .expression → (∀ draft ∈ init, Formed category draft) →
      (∀ draft ∈ test, Formed .expression draft) → (∀ draft ∈ update, Formed .expression draft) →
      Formed .statement body → Formed .statement (tree "ForStatement" none
        [.single "init" init, .single "test" test, .single "update" update, .single "body" body])
  | whileStatement {test body : Draft} : Formed .expression test → Formed .statement body →
      Formed .statement (tree "WhileStatement" none [.single "test" test, .single "body" body])
  | doWhileStatement {test body : Draft} : Formed .expression test → Formed .statement body →
      Formed .statement (tree "DoWhileStatement" none [.single "test" test, .single "body" body])
  | returnStatement {argument : Option Draft} : (∀ draft ∈ argument, Formed .expression draft) →
      Formed .statement (tree "ReturnStatement" none [.single "argument" argument])
  | throwStatement {argument : Draft} : Formed .expression argument →
      Formed .statement (tree "ThrowStatement" none [.single "argument" argument])
  | breakStatement : Formed .statement (tree "BreakStatement" none [])
  | continueStatement : Formed .statement (tree "ContinueStatement" none [])
  | tryStatement {body : Draft} {handler finalizer : Option Draft} : Formed .block body →
      (∀ draft ∈ handler, Formed .handler draft) → (∀ draft ∈ finalizer, Formed .block draft) →
      handler.isSome = true ∨ finalizer.isSome = true → Formed .statement (tree "TryStatement" none
        [.single "block" body, .single "handler" handler, .single "finalizer" finalizer])
  | switchStatement {discriminant : Draft} {cases : List Draft} : Formed .expression discriminant →
      (∀ draft ∈ cases, Formed .clause draft) → Formed .statement (tree "SwitchStatement" none
        [.single "discriminant" discriminant, .list "cases" cases])
  | expressionStatement {draft : Draft} : Formed .expression draft →
      Formed .statement (tree "ExpressionStatement" none [.single "expression" draft])
  | catchClause {param : Option Draft} {body : Draft} : (∀ draft ∈ param, Formed .name draft) →
      Formed .block body → Formed .handler (tree "CatchClause" none
        [.single "param" param, .single "body" body])
  | switchCase {test : Option Draft} {consequent : List Draft} :
      (∀ draft ∈ test, Formed .expression draft) → (∀ draft ∈ consequent, Formed .statement draft) →
      Formed .clause (tree "SwitchCase" none [.single "test" test, .list "consequent" consequent])
  | classMethod {text : Option String} {key body : Draft} {params : List Draft} :
      text = none ∨ text = some "static" → Formed .key key →
      (∀ draft ∈ params, Formed .param draft) → Formed .block body →
      Formed .member (tree "ClassMethod" text
        [.single "key" key, .list "params" params, .single "body" body])
  | classProperty {text : Option String} {key : Draft} {value : Option Draft} :
      text = none ∨ text = some "static" → Formed .key key →
      (∀ draft ∈ value, Formed .expression draft) →
      Formed .member (tree "ClassProperty" text [.single "key" key, .single "value" value])

end SyntaxNav.Script

import SyntaxNav.Proofs.Script.Forms

/-! # What is written for each form

One equation for each form of draft says which tokens are written for it, in terms of what is written
for its parts. Expressions stand bare or in parentheses by their category.
-/

namespace SyntaxNav.Script

/-- What is written for a draft, with its kind. -/
def pieceOf (draft : Draft) : Piece :=
  ⟨draft.label.kind, tokensOf draft⟩

@[simp] theorem pieceOf_kind (draft : Draft) : (pieceOf draft).kind = draft.label.kind := rfl

@[simp] theorem pieceOf_tokens (draft : Draft) : (pieceOf draft).tokens = tokensOf draft := rfl

def partsOf (fields : List (Field Draft)) : Parts := fun name =>
  fields.flatMap fun field => if field.name = name then field.contents.map pieceOf else []

section Nodes

/-- What is written for children is written for each of them. -/
theorem piecesOf_eq_map (children : List (Slot × Draft)) :
    piecesOf children = children.map fun child => (child.1.field, pieceOf child.2) := by
  induction children with
  | nil => rfl
  | cons child rest ih => rw [piecesOf, ih, List.map_cons, pieceOf]

/-- The children of a field stand in slots of its name. -/
theorem slots_pieces (field : Field Draft) :
    field.slots.map (fun child => (child.1.field, pieceOf child.2)) =
      field.contents.map fun child => (field.name, pieceOf child) := by
  cases field with
  | single name child => cases child <;> rfl
  | list name children =>
    have named : ∀ child : Draft × Nat, (name, pieceOf child.1) =
        ((fun child : Draft => (name, pieceOf child)) ∘ Prod.fst) child := fun _ => rfl
    simp only [Field.slots, List.map_map, Function.comp_def, Slot.element, Field.contents, Field.name]
    simp only [named]
    rw [← List.map_map, List.zipIdx_map_fst]

/-- What is written for a node is told by its kind, its text and what is written in its fields. -/
theorem tokensOf_tree (kind : String) (text : Option String) (fields : List (Field Draft)) :
    tokensOf (tree kind text fields) = nodeTokens text (partsOf fields) kind := by
  rw [tree, Draft.branch, tokensOf, piecesOf_eq_map]
  congr 1
  funext name
  rw [Field.spread, List.map_flatMap, List.filterMap_flatMap, partsOf]
  congr 1
  funext field
  rw [slots_pieces, List.filterMap_map]
  split
  · rename_i same
    simp [same]
  · rename_i other
    simp [other]

/-- The tokens of a node that is no expression. -/
theorem tokensOf_part {kind : String} {text : Option String} {fields : List (Field Draft)}
    (isPart : nodeTokens text (partsOf fields) kind = partTokens text (partsOf fields) kind) :
    tokensOf (tree kind text fields) = partTokens text (partsOf fields) kind :=
  (tokensOf_tree kind text fields).trans isPart

/-- The tokens of a statement. -/
theorem tokensOf_statement {kind : String} {text : Option String} {fields : List (Field Draft)}
    (isStatement : nodeTokens text (partsOf fields) kind = statementTokens text (partsOf fields) kind) :
    tokensOf (tree kind text fields) = statementTokens text (partsOf fields) kind :=
  (tokensOf_tree kind text fields).trans isStatement

variable (parts : Parts) (field : String) (write : Piece → List TokenKind)

private theorem each_partsOf (fields : List (Field Draft)) :
    (partsOf fields).each field write = fields.flatMap fun part =>
      if part.name = field then part.contents.flatMap (write ∘ pieceOf) else [] := by
  simp only [Parts.each, partsOf, List.flatMap_assoc]
  congr 1
  funext part
  split
  · rw [List.flatMap_map]
    rfl
  · rfl

private theorem listed_partsOf (fields : List (Field Draft)) :
    (partsOf fields).listed field write = commas (fields.flatMap fun part =>
      if part.name = field then part.contents.map (write ∘ pieceOf) else []) := by
  simp only [Parts.listed, partsOf, List.map_flatMap]
  congr 2
  funext part
  split
  · rw [List.map_map]
  · rfl

end Nodes

section Expressions

variable (object property callee argument left right test consequent alternate body : Draft)
  (arguments elements params items : List Draft) (id : Option Draft) (word operator : String)

theorem tokensOf_function :
    tokensOf (tree "FunctionExpression" none
      [.single "id" id, .list "params" params, .single "body" body]) =
        .word "function" :: (id.toList.flatMap tokensOf ++
          (parens (commas (params.map tokensOf)) ++ tokensOf body)) := by
  rw [tokensOf_tree]
  simp [Parts.function, Parts.callable, each_partsOf, listed_partsOf, Field.name,
    Function.comp_def]

theorem tokensOf_array :
    tokensOf (tree "ArrayExpression" none [.list "elements" elements]) =
      brackets (commas (elements.map fun draft => (pieceOf draft).argument)) := by
  rw [tokensOf_tree]
  simp [listed_partsOf, Field.name, Function.comp_def]

theorem tokensOf_object :
    tokensOf (tree "ObjectExpression" none [.list "properties" items]) =
      braces (commas (items.map tokensOf)) := by
  rw [tokensOf_tree]
  simp [listed_partsOf, Field.name, Function.comp_def]

theorem tokensOf_computed :
    tokensOf (tree "MemberExpression" "computed"
      [.single "object" object, .single "property" property]) =
        (pieceOf object).operand ++ brackets (pieceOf property).operand := by
  rw [tokensOf_tree]
  simp [each_partsOf, Field.name]

theorem tokensOf_named :
    tokensOf (tree "MemberExpression" none
      [.single "object" object, .single "property" (atom "Identifier" word)]) =
        (pieceOf object).operand ++ [.punct ".", .word word] := by
  rw [tokensOf_tree]
  simp [each_partsOf, Field.name, atom, tokensOf]

theorem tokensOf_optional :
    tokensOf (tree "OptionalMemberExpression" none
      [.single "object" object, .single "property" (atom "Identifier" word)]) =
        (pieceOf object).operand ++ [.punct "?.", .word word] := by
  rw [tokensOf_tree]
  simp [each_partsOf, Field.name, atom, tokensOf]

theorem tokensOf_call :
    tokensOf (tree "CallExpression" none
      [.single "callee" callee, .list "arguments" arguments]) =
        (pieceOf callee).operand ++
          parens (commas (arguments.map fun draft => (pieceOf draft).argument)) := by
  rw [tokensOf_tree]
  simp [each_partsOf, listed_partsOf, Field.name, Function.comp_def]

theorem tokensOf_construction :
    tokensOf (tree "NewExpression" none
      [.single "callee" callee, .list "arguments" arguments]) =
        .word "new" :: ((pieceOf callee).operand ++
          parens (commas (arguments.map fun draft => (pieceOf draft).argument))) := by
  rw [tokensOf_tree]
  simp [each_partsOf, listed_partsOf, Field.name, Function.comp_def]

/-- Operators in front of an operand are written alike for both kinds of nodes. -/
theorem tokensOf_leading {kind : String}
    (known : kind = "UnaryExpression" ∨ kind = "UpdateExpression") :
    tokensOf (tree kind operator [.single "argument" argument]) =
      spell operator :: (pieceOf argument).operand := by
  rw [tokensOf_tree]
  rcases known with rfl | rfl <;> simp [each_partsOf, Field.name]

/-- Operations and assignments are written alike. -/
theorem tokensOf_operation {kind : String}
    (known : kind = "BinaryExpression" ∨ kind = "LogicalExpression" ∨ kind = "AssignmentExpression") :
    tokensOf (tree kind operator [.single "left" left, .single "right" right]) =
      (pieceOf left).operand ++ spell operator :: (pieceOf right).operand := by
  rw [tokensOf_tree]
  rcases known with rfl | rfl | rfl <;> simp [each_partsOf, Field.name]

theorem tokensOf_conditional :
    tokensOf (tree "ConditionalExpression" none
      [.single "test" test, .single "consequent" consequent, .single "alternate" alternate]) =
        (pieceOf test).operand ++ .punct "?" :: ((pieceOf consequent).operand ++
          .punct ":" :: (pieceOf alternate).operand) := by
  rw [tokensOf_tree]
  simp [each_partsOf, Field.name]

theorem tokensOf_arrow :
    tokensOf (tree "ArrowFunctionExpression" none
      [.list "params" params, .single "body" body]) =
        parens (commas (params.map tokensOf)) ++ .punct "=>" :: (pieceOf body).arrowBody := by
  rw [tokensOf_tree]
  simp [each_partsOf, listed_partsOf, Field.name, Function.comp_def]

theorem tokensOf_sequence :
    tokensOf (tree "SequenceExpression" none [.list "expressions" items]) =
      commas (items.map fun draft => (pieceOf draft).operand) := by
  rw [tokensOf_tree]
  simp [listed_partsOf, Field.name, Function.comp_def]

end Expressions

section Parts

variable (key value left right argument body : Draft) (params items : List Draft)
  (init test : Option Draft) (text : Option String)

/-- Dots in front of an argument, an element, a property or a parameter. -/
theorem tokensOf_dots {kind : String} (known : kind = "SpreadElement" ∨ kind = "RestElement") :
    tokensOf (tree kind none [.single "argument" argument]) =
      .punct "..." :: (pieceOf argument).operand := by
  rcases known with rfl | rfl
  · rw [tokensOf_part rfl]
    simp [each_partsOf, Field.name]
  · rw [tokensOf_part rfl]
    simp [each_partsOf, Field.name]

theorem tokensOf_default :
    tokensOf (tree "AssignmentPattern" none [.single "left" left, .single "right" right]) =
      tokensOf left ++ .punct "=" :: (pieceOf right).operand := by
  rw [tokensOf_part rfl]
  simp [each_partsOf, Field.name]

theorem tokensOf_shorthand :
    tokensOf (tree "ObjectProperty" "shorthand" [.single "key" key, .single "value" value]) =
      tokensOf key := by
  rw [tokensOf_part rfl]
  simp [each_partsOf, Field.name]

theorem tokensOf_property :
    tokensOf (tree "ObjectProperty" none [.single "key" key, .single "value" value]) =
      (pieceOf key).key ++ .punct ":" :: (pieceOf value).operand := by
  rw [tokensOf_part rfl]
  simp [each_partsOf, Field.name]

theorem tokensOf_method :
    tokensOf (tree "ObjectMethod" none
      [.single "key" key, .list "params" params, .single "body" body]) =
        (pieceOf key).key ++ (parens (commas (params.map tokensOf)) ++ tokensOf body) := by
  rw [tokensOf_part rfl]
  simp [Parts.callable, each_partsOf, listed_partsOf, Field.name, Function.comp_def]

theorem tokensOf_classMethod :
    tokensOf (tree "ClassMethod" text
      [.single "key" key, .list "params" params, .single "body" body]) =
        staticTokens text ++
          ((pieceOf key).key ++ (parens (commas (params.map tokensOf)) ++ tokensOf body)) := by
  rw [tokensOf_part rfl]
  simp [Parts.callable, each_partsOf, listed_partsOf, Field.name, Function.comp_def]

theorem tokensOf_classProperty :
    tokensOf (tree "ClassProperty" text [.single "key" key, .single "value" init]) =
      staticTokens text ++ ((pieceOf key).key ++
        init.toList.flatMap fun value => .punct "=" :: (pieceOf value).operand) := by
  rw [tokensOf_part rfl]
  simp [each_partsOf, Field.name, Function.comp_def]

theorem tokensOf_classBody :
    tokensOf (tree "ClassBody" none [.list "body" items]) =
      braces (items.flatMap fun draft => (pieceOf draft).closed) := by
  rw [tokensOf_part rfl]
  simp [each_partsOf, Field.name, Function.comp_def]

theorem tokensOf_declarator :
    tokensOf (tree "VariableDeclarator" none [.single "id" left, .single "init" init]) =
      tokensOf left ++
        init.toList.flatMap fun value => .punct "=" :: (pieceOf value).operand := by
  rw [tokensOf_part rfl]
  simp [each_partsOf, Field.name, Function.comp_def]

theorem tokensOf_catchClause (param : Option Draft) :
    tokensOf (tree "CatchClause" none [.single "param" param, .single "body" body]) =
      .word "catch" :: (param.toList.flatMap (fun name => parens (tokensOf name)) ++
        tokensOf body) := by
  rw [tokensOf_part rfl]
  simp [each_partsOf, Field.name, Function.comp_def]

theorem tokensOf_switchCase :
    tokensOf (tree "SwitchCase" none [.single "test" test, .list "consequent" items]) =
      test.elim [.word "default"] (fun value => .word "case" :: (pieceOf value).operand) ++
        .punct ":" :: items.flatMap fun draft => (pieceOf draft).closed := by
  rw [tokensOf_part rfl]
  cases test <;> simp [partsOf, each_partsOf, Field.name, Function.comp_def]

end Parts

section Statements

variable (id draft body argument test consequent : Draft) (items params : List Draft)
  (superClass alternate init condition update value handler finalizer : Option Draft)

theorem tokensOf_program :
    tokensOf (tree "Program" none [.list "body" items]) =
      items.flatMap fun draft => (pieceOf draft).closed := by
  rw [tokensOf_statement rfl]
  simp [each_partsOf, Field.name, Function.comp_def]

theorem tokensOf_block :
    tokensOf (tree "BlockStatement" none [.list "body" items]) =
      braces (items.flatMap fun draft => (pieceOf draft).closed) := by
  rw [tokensOf_statement rfl]
  simp [each_partsOf, Field.name, Function.comp_def]

theorem tokensOf_functionDeclaration :
    tokensOf (tree "FunctionDeclaration" none
      [.single "id" id, .list "params" params, .single "body" body]) =
        .word "function" :: (tokensOf id ++
          (parens (commas (params.map tokensOf)) ++ tokensOf body)) := by
  rw [tokensOf_statement rfl]
  simp [Parts.function, Parts.callable, each_partsOf, listed_partsOf, Field.name,
    Function.comp_def]

theorem tokensOf_classDeclaration :
    tokensOf (tree "ClassDeclaration" none
      [.single "id" id, .single "superClass" superClass, .single "body" body]) =
        .word "class" :: (tokensOf id ++
          (superClass.toList.flatMap (fun parent => .word "extends" :: (pieceOf parent).operand) ++
            tokensOf body)) := by
  rw [tokensOf_statement rfl]
  simp [each_partsOf, Field.name, Function.comp_def]

theorem tokensOf_declaration (word : String) :
    tokensOf (tree "VariableDeclaration" word [.list "declarations" items]) =
      .word word :: commas (items.map tokensOf) := by
  rw [tokensOf_statement rfl]
  simp [listed_partsOf, Field.name, Function.comp_def]

/-- An alternative is written only if there is one. -/
theorem tokensOf_if :
    tokensOf (tree "IfStatement" none
      [.single "test" test, .single "consequent" consequent, .single "alternate" alternate]) =
        .word "if" :: (parens (pieceOf test).operand ++ ((pieceOf consequent).closed ++
          alternate.toList.flatMap fun draft => .word "else" :: (pieceOf draft).closed)) := by
  rw [tokensOf_statement rfl]
  simp [each_partsOf, Field.name, Function.comp_def]

/-- The three parts of the head of a loop are written with semicolons between them, whichever are missing. -/
theorem tokensOf_for :
    tokensOf (tree "ForStatement" none [.single "init" init, .single "test" condition,
      .single "update" update, .single "body" body]) =
        .word "for" :: (parens (init.toList.flatMap (fun draft => (pieceOf draft).loopInit) ++
          .punct ";" :: (condition.toList.flatMap (fun draft => (pieceOf draft).operand) ++
            .punct ";" :: update.toList.flatMap fun draft => (pieceOf draft).operand)) ++
              (pieceOf body).closed) := by
  rw [tokensOf_statement rfl]
  simp [each_partsOf, Field.name, Function.comp_def]

theorem tokensOf_while :
    tokensOf (tree "WhileStatement" none [.single "test" test, .single "body" body]) =
      .word "while" :: (parens (pieceOf test).operand ++ (pieceOf body).closed) := by
  rw [tokensOf_statement rfl]
  simp [each_partsOf, Field.name]

theorem tokensOf_doWhile :
    tokensOf (tree "DoWhileStatement" none [.single "test" test, .single "body" body]) =
      .word "do" :: ((pieceOf body).closed ++ .word "while" :: parens (pieceOf test).operand) := by
  rw [tokensOf_statement rfl]
  simp [each_partsOf, Field.name]

theorem tokensOf_return :
    tokensOf (tree "ReturnStatement" none [.single "argument" value]) =
      .word "return" :: value.toList.flatMap fun draft => (pieceOf draft).operand := by
  rw [tokensOf_statement rfl]
  simp [each_partsOf, Field.name, Function.comp_def]

theorem tokensOf_throw :
    tokensOf (tree "ThrowStatement" none [.single "argument" argument]) =
      .word "throw" :: (pieceOf argument).operand := by
  rw [tokensOf_statement rfl]
  simp [each_partsOf, Field.name]

/-- A handler and a finalizer are written only if there are such. -/
theorem tokensOf_try :
    tokensOf (tree "TryStatement" none
      [.single "block" body, .single "handler" handler, .single "finalizer" finalizer]) =
        .word "try" :: (tokensOf body ++ (handler.toList.flatMap tokensOf ++
          finalizer.toList.flatMap fun draft => .word "finally" :: tokensOf draft)) := by
  rw [tokensOf_statement rfl]
  simp [each_partsOf, Field.name, Function.comp_def]

theorem tokensOf_switch :
    tokensOf (tree "SwitchStatement" none
      [.single "discriminant" test, .list "cases" items]) =
        .word "switch" :: (parens (pieceOf test).operand ++ braces (items.flatMap tokensOf)) := by
  rw [tokensOf_statement rfl]
  simp [each_partsOf, Field.name, Function.comp_def]

theorem tokensOf_expressionStatement :
    tokensOf (tree "ExpressionStatement" none [.single "expression" draft]) =
      parens (tokensOf draft) := by
  rw [tokensOf_statement rfl]
  simp [each_partsOf, Field.name]

end Statements

section Categories

variable {draft : Draft}

def compoundKinds : List String :=
  ["FunctionExpression", "ArrayExpression", "ObjectExpression", "MemberExpression",
    "OptionalMemberExpression", "CallExpression", "NewExpression", "UnaryExpression",
    "UpdateExpression", "BinaryExpression", "LogicalExpression", "ConditionalExpression",
    "AssignmentExpression", "ArrowFunctionExpression", "SequenceExpression"]

/-- Operators in front of an operand make nodes of two kinds. -/
theorem leadingKind {token : TokenKind} {kind operator : String}
    (leading : leadingOperator? token = some (kind, operator)) :
    kind = "UnaryExpression" ∨ kind = "UpdateExpression" := by
  unfold leadingOperator? at leading
  split at leading <;> cases leading <;> simp

/-- Operators between operands make nodes of two kinds. -/
theorem operationKind (operator : Operator) :
    operator.nodeKind = "BinaryExpression" ∨ operator.nodeKind = "LogicalExpression" := by
  unfold Operator.nodeKind
  split <;> simp

private theorem Formed.bare_kind (formed : Formed .bare draft) : draft.label.kind ∈ bareKinds := by
  cases formed with
  | identifier name =>
    cases name
    simp [bareKinds]
  | number | string | boolean | null | this => simp [bareKinds]

/-- Compound expressions are told by their kind. -/
theorem Formed.compound_kind (formed : Formed .compound draft) :
    draft.label.kind ∈ compoundKinds := by
  cases formed with
  | leading known =>
    rcases leadingKind known with same | same <;> simp [compoundKinds, same]
  | @operation operator =>
    rcases operationKind operator with same | same <;> simp [compoundKinds, same]
  | _ => simp [compoundKinds]

private theorem Formed.expression_kind (formed : Formed .expression draft) :
    draft.label.kind ∈ bareKinds ++ compoundKinds := by
  cases formed with
  | ofBare bare => exact List.mem_append_left _ bare.bare_kind
  | ofCompound compound => exact List.mem_append_right _ compound.compound_kind

/-- A bare expression is written without parentheses. -/
theorem Formed.operand_of_bare (formed : Formed .bare draft) :
    (pieceOf draft).operand = tokensOf draft :=
  if_pos (List.contains_iff_mem.mpr formed.bare_kind)

/-- A compound expression is written in parentheses. -/
theorem Formed.operand_of_compound (formed : Formed .compound draft) :
    (pieceOf draft).operand = parens (tokensOf draft) := by
  have others : ∀ kind ∈ compoundKinds, bareKinds.contains kind = false := by decide
  exact if_neg (Bool.eq_false_iff.mp (others _ formed.compound_kind))

/-- The kind of an expression is none of the other kinds that its places look for. -/
theorem Formed.expression_kind_ne (formed : Formed .expression draft) {kind : String}
    (other : (bareKinds ++ compoundKinds).contains kind = false) : draft.label.kind ≠ kind := by
  rintro rfl
  exact Bool.eq_false_iff.mp other (List.contains_iff_mem.mpr formed.expression_kind)

/-- An expression is written alike as an argument and as an operand. -/
theorem Formed.argument_of_expression (formed : Formed .expression draft) :
    (pieceOf draft).argument = (pieceOf draft).operand :=
  if_neg (formed.expression_kind_ne (by decide))

/-- An expression is written alike as the body of an arrow function and as an operand. -/
theorem Formed.arrowBody_of_expression (formed : Formed .expression draft) :
    (pieceOf draft).arrowBody = (pieceOf draft).operand :=
  if_neg (formed.expression_kind_ne (by decide))

/-- An expression at the start of a loop is always in parentheses. -/
theorem Formed.loopInit_of_expression (formed : Formed .expression draft) :
    (pieceOf draft).loopInit = parens (tokensOf draft) :=
  if_neg (formed.expression_kind_ne (by decide))

end Categories

end SyntaxNav.Script

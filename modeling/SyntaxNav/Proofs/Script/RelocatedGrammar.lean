import SyntaxNav.Proofs.Script.Relocation

/-! # The grammar does not look at positions

Every production does the same at a moved cursor, if the phrases inside it do. So the draft of moved
tokens is the moved draft of the tokens.
-/

namespace SyntaxNav.Script

variable {move : Pos → Pos}

/-- A reader of one draft does the same at a moved cursor. -/
abbrev DraftStays (move : Pos → Pos) (reader : Reader Draft) : Prop :=
  Stays move (Draft.relocate move) reader

/-- Every phrase is read alike at a moved cursor. -/
abbrev PhrasesStay (move : Pos → Pos) (read : PhraseReader) : Prop :=
  ∀ phrase, DraftStays move (read phrase)

section Names

private theorem bindingName_stays : DraftStays move bindingName := by
  refine stays_get.bind fun cursor => ?_
  obtain ⟨rest, prevEnd, sourceEnd, depth⟩ := cursor
  cases rest with
  | nil => exact follows_failExpected _
  | cons token rest =>
    dsimp only [Cursor.relocate, List.map, Token.relocate]
    split
    · refine .ite _ (follows_failExpected _) ?_
      exact stays_advance.bind_same fun _ => .pure (leaf "Identifier" token)
    · exact follows_failAt _ _
    · exact follows_failAt _ _
    · exact follows_failExpected _

private theorem propertyName_stays : DraftStays move propertyName := by
  refine stays_get.bind fun cursor => ?_
  obtain ⟨rest, prevEnd, sourceEnd, depth⟩ := cursor
  cases rest with
  | nil => exact follows_failExpected _
  | cons token rest =>
    dsimp only [Cursor.relocate, List.map, Token.relocate]
    split
    · exact stays_advance.bind_same fun _ => .pure (leaf "Identifier" token)
    · exact follows_failExpected _

variable {read : PhraseReader}

private theorem propertyKey_stays (phrases : PhrasesStay move read) : DraftStays move (propertyKey read) := by
  refine stays_get.bind fun cursor => ?_
  obtain ⟨rest, prevEnd, sourceEnd, depth⟩ := cursor
  cases rest with
  | nil => exact follows_failExpected _
  | cons token rest =>
    dsimp only [Cursor.relocate, List.map, Token.relocate]
    split
    · exact stays_advance.bind_same fun _ => .pure (leaf "Identifier" token)
    · exact stays_advance.bind_same fun _ => .pure (leaf "StringLiteral" token)
    · exact stays_advance.bind_same fun _ => .pure (leaf "NumericLiteral" token)
    · refine stays_advance.bind_same fun _ => (phrases .assignment).bind fun key => ?_
      exact (stays_expectPunct "]").bind_same fun _ => .pure key
    · exact follows_failExpected _

end Names

private theorem follows_sequence {item movedItem : Reader Draft}
    (items : Follows move (Draft.relocate move) item movedItem) :
    Follows move (Draft.relocate move) (sequence item) (sequence movedItem) := by
  refine stays_here.bind fun start => (follows_commaSeparated items).bind fun drafts => ?_
  match drafts with
  | [only] => exact .pure only
  | [] => exact follows_node "SequenceExpression" start none [.list "expressions" []]
  | first :: second :: rest =>
    exact follows_node "SequenceExpression" start none [.list "expressions" (first :: second :: rest)]

section Productions

variable {read : PhraseReader} (phrases : PhrasesStay move read)

include phrases

private theorem expression_stays : DraftStays move (expression read) :=
  follows_sequence (phrases .assignment)

private theorem parenthesized_stays : DraftStays move (parenthesized read) := by
  refine (stays_expectPunct "(").bind_same fun _ => (expression_stays phrases).bind fun inner => ?_
  exact (stays_expectPunct ")").bind_same fun _ => .pure inner

private theorem statementInBraces_stays : DraftStays move (statementInBraces read) :=
  stays_atEnd.bind_same fun _ => .ite _ (follows_failExpected _) (phrases .statement)

private theorem block_stays : DraftStays move (block read) := by
  refine stays_here.bind fun start => (stays_expectPunct "\x7b").bind_same fun _ => ?_
  have statements := follows_many (stays_eatPunct "\x7d") (statementInBraces_stays phrases)
  exact statements.bind fun body => follows_node "BlockStatement" start none [.list "body" body]

private theorem param_stays : DraftStays move (param read) := by
  refine stays_here.bind fun start => (stays_eatPunct "...").bind_same fun dots => .ite _ ?_ ?_
  · refine bindingName_stays.bind fun argument => ?_
    exact follows_node "RestElement" start none [.single "argument" argument]
  · refine bindingName_stays.bind fun left => (stays_eatPunct "=").bind_same fun equals => .ite _ ?_ ?_
    · refine (phrases .assignment).bind fun right => ?_
      exact follows_node "AssignmentPattern" start none [.single "left" left, .single "right" right]
    · exact .pure left

private theorem params_stay : Stays move (List.map (Draft.relocate move)) (params read) :=
  (stays_expectPunct "(").bind_same fun _ => follows_list ")" (param_stays phrases)

omit phrases in
private theorem functionName_stays (needed : Bool) :
    Stays move (Option.map (Draft.relocate move)) (functionName needed) := by
  refine stays_peek.bind_same fun next => ?_
  split
  · exact bindingName_stays.bind fun name => .pure (some name)
  · exact .ite _ (bindingName_stays.bind fun name => .pure (some name)) (.pure none)

private theorem function_stays (kind : String) (needsName : Bool) :
    DraftStays move (function read kind needsName) := by
  refine stays_here.bind fun start => stays_advance.bind_same fun _ => ?_
  refine (stays_atPunct "*").bind_same fun star => .ite _ (follows_fail _) ?_
  refine (functionName_stays needsName).bind fun id => (params_stay phrases).bind fun parameters => ?_
  refine (block_stays phrases).bind fun body => ?_
  exact follows_node kind start none
    [.single "id" id, .list "params" parameters, .single "body" body]

private theorem method_follows (kind : String) (start : Pos) (text : Option String) (key : Draft) :
    Follows move (Draft.relocate move) (method read kind start text key)
      (method read kind (move start) text (key.relocate move)) := by
  refine (params_stay phrases).bind fun parameters => (block_stays phrases).bind fun body => ?_
  exact follows_node kind start text
    [.single "key" key, .list "params" parameters, .single "body" body]

private theorem argument_stays : DraftStays move (argument read) := by
  refine stays_here.bind fun start => (stays_eatPunct "...").bind_same fun dots => .ite _ ?_ ?_
  · refine (phrases .assignment).bind fun inner => ?_
    exact follows_node "SpreadElement" start none [.single "argument" inner]
  · exact phrases .assignment

private theorem objectProperty_follows (start : Pos) (keyToken : Option Token) (key : Draft) :
    Follows move (Draft.relocate move) (objectProperty read start keyToken key)
      (objectProperty read (move start) (keyToken.map (Token.relocate move)) (key.relocate move)) := by
  refine (stays_atPunct "(").bind_same fun opens => .ite _ (method_follows phrases _ start none key) ?_
  refine (stays_eatPunct ":").bind_same fun colon => .ite _ ?_ ?_
  · refine (phrases .assignment).bind fun value => ?_
    exact follows_node "ObjectProperty" start none [.single "key" key, .single "value" value]
  · cases keyToken with
    | none => exact follows_failExpected _
    | some token =>
      dsimp only [Option.map, Token.relocate]
      split
      · refine .ite _ (follows_failExpected _) ?_
        exact follows_node "ObjectProperty" start "shorthand"
          [.single "key" key, .single "value" (leaf "Identifier" token)]
      · exact follows_failExpected _

private theorem objectMember_stays : DraftStays move (objectMember read) := by
  refine stays_here.bind fun start => (stays_eatPunct "...").bind_same fun dots => .ite _ ?_ ?_
  · refine (phrases .assignment).bind fun inner => ?_
    exact follows_node "SpreadElement" start none [.single "argument" inner]
  · refine stays_get.bind fun cursor => ?_
    rw [Cursor.rest_relocate, List.head?_map]
    exact (propertyKey_stays phrases).bind fun key => objectProperty_follows phrases start _ key

omit phrases in
private theorem literal_follows (kind : String) (token : Token) :
    Follows move (Draft.relocate move) (literal kind token) (literal kind (token.relocate move)) :=
  stays_advance.bind_same fun _ => .pure (leaf kind token)

omit phrases in
private theorem constant_stays (kind : String) : DraftStays move (constant kind) :=
  stays_here.bind fun start => stays_advance.bind_same fun _ => follows_node kind start none []

private theorem array_stays : DraftStays move (array read) := by
  refine stays_here.bind fun start => stays_advance.bind_same fun _ => ?_
  refine (follows_list "]" (argument_stays phrases)).bind fun elements => ?_
  exact follows_node "ArrayExpression" start none [.list "elements" elements]

private theorem object_stays : DraftStays move (object read) := by
  refine stays_here.bind fun start => stays_advance.bind_same fun _ => ?_
  refine (follows_list "\x7d" (objectMember_stays phrases)).bind fun properties => ?_
  exact follows_node "ObjectExpression" start none [.list "properties" properties]

private theorem primary_stays : DraftStays move (primary read) := by
  refine stays_get.bind fun cursor => ?_
  obtain ⟨rest, prevEnd, sourceEnd, depth⟩ := cursor
  cases rest with
  | nil => exact follows_failExpected _
  | cons token rest =>
    dsimp only [Cursor.relocate, List.map, Token.relocate]
    split
    · exact literal_follows "NumericLiteral" token
    · exact literal_follows "StringLiteral" token
    · exact literal_follows "BooleanLiteral" token
    · exact literal_follows "BooleanLiteral" token
    · exact constant_stays "NullLiteral"
    · exact constant_stays "ThisExpression"
    · exact function_stays phrases "FunctionExpression" false
    · exact .ite _ (follows_failExpected _) (literal_follows "Identifier" token)
    · exact parenthesized_stays phrases
    · exact array_stays phrases
    · exact object_stays phrases
    · exact follows_failExpected _

private theorem computedMember_follows (start : Pos) (object : Draft) :
    Follows move (Draft.relocate move) (computedMember read start object)
      (computedMember read (move start) (object.relocate move)) := by
  refine (expression_stays phrases).bind fun property => (stays_expectPunct "]").bind_same fun _ => ?_
  exact follows_node "MemberExpression" start "computed"
    [.single "object" object, .single "property" property]

omit phrases in
private theorem namedMember_follows (kind : String) (start : Pos) (object : Draft) :
    Follows move (Draft.relocate move) (namedMember kind start object)
      (namedMember kind (move start) (object.relocate move)) :=
  propertyName_stays.bind fun property =>
    follows_node kind start none [.single "object" object, .single "property" property]

omit phrases in
private theorem optionalMember_follows (start : Pos) (object : Draft) :
    Follows move (Draft.relocate move) (optionalMember start object)
      (optionalMember (move start) (object.relocate move)) := by
  refine (stays_atPunct "(").bind_same fun opens => (stays_atPunct "[").bind_same fun bracket => ?_
  exact .ite _ (follows_fail _) (namedMember_follows "OptionalMemberExpression" start object)

private theorem memberOrCall_follows (start : Pos) (inner : Draft) :
    Follows move (Option.map (Draft.relocate move)) (memberOrCall read start inner)
      (memberOrCall read (move start) (inner.relocate move)) := by
  refine (stays_eatPunct ".").bind_same fun point => .ite _ ?_ ?_
  · exact (namedMember_follows "MemberExpression" start inner).bind fun member => .pure (some member)
  refine (stays_eatPunct "?.").bind_same fun optional => .ite _ ?_ ?_
  · exact (optionalMember_follows start inner).bind fun member => .pure (some member)
  refine (stays_eatPunct "[").bind_same fun bracket => .ite _ ?_ ?_
  · exact (computedMember_follows phrases start inner).bind fun member => .pure (some member)
  refine (stays_eatPunct "(").bind_same fun opens => .ite _ ?_ (.pure none)
  refine (follows_list ")" (argument_stays phrases)).bind fun arguments => ?_
  exact (follows_node "CallExpression" start none
    [.single "callee" inner, .list "arguments" arguments]).bind fun call => .pure (some call)

private theorem chain_stays : DraftStays move (chain read) := by
  refine stays_here.bind fun start => (stays_atWord "new").bind_same fun isNew => ?_
  refine .join (phrases .construction) (primary_stays phrases) fun inner => ?_
  exact follows_grow (memberOrCall_follows phrases start) inner

private theorem constructedMember_follows (start : Pos) (inner : Draft) :
    Follows move (Option.map (Draft.relocate move)) (constructedMember read start inner)
      (constructedMember read (move start) (inner.relocate move)) := by
  refine (stays_eatPunct ".").bind_same fun point => .ite _ ?_ ?_
  · exact (namedMember_follows "MemberExpression" start inner).bind fun member => .pure (some member)
  refine (stays_eatPunct "[").bind_same fun bracket => .ite _ ?_ (.pure none)
  exact (computedMember_follows phrases start inner).bind fun member => .pure (some member)

private theorem construction_stays : DraftStays move (construction read) := by
  refine stays_here.bind fun start => stays_advance.bind_same fun _ => ?_
  refine (stays_atWord "new").bind_same fun isNew => ?_
  refine .join (follows_nested (phrases .construction)) (primary_stays phrases) fun inner => ?_
  refine (follows_grow (constructedMember_follows phrases start) inner).bind fun callee => ?_
  refine (stays_eatPunct "(").bind_same fun opens => ?_
  refine .join (follows_list ")" (argument_stays phrases)) (.pure []) fun arguments => ?_
  exact follows_node "NewExpression" start none
    [.single "callee" callee, .list "arguments" arguments]

omit phrases in
private theorem trailingOperator?_relocate (cursor : Cursor) :
    trailingOperator? (cursor.relocate move) = trailingOperator? cursor := by
  obtain ⟨rest, prevEnd, sourceEnd, depth⟩ := cursor
  cases rest with
  | nil => rfl
  | cons token rest =>
    obtain ⟨kind, span, newlineBefore⟩ := token
    cases newlineBefore with
    | true => simp [trailingOperator?, Cursor.relocate, Token.relocate]
    | false =>
      cases kind with
      | punct text =>
        dsimp only [trailingOperator?, Cursor.relocate, List.map, Token.relocate]
        split <;> simp_all
      | word | number | string => rfl

private theorem postfixed_stays : DraftStays move (postfixed read) := by
  refine stays_here.bind fun start => (chain_stays phrases).bind fun inner => ?_
  refine stays_get.bind fun cursor => ?_
  rw [trailingOperator?_relocate]
  split
  · exact .pure inner
  · rename_i operator _
    refine stays_advance.bind_same fun _ => ?_
    exact follows_node "UpdateExpression" start operator [.single "argument" inner]

private theorem unary_stays : DraftStays move (unary read) := by
  refine stays_here.bind fun start => stays_peek.bind_same fun next => ?_
  split
  · exact postfixed_stays phrases
  · rename_i kind operator _
    refine stays_advance.bind_same fun _ => (phrases .unary).bind fun inner => ?_
    exact follows_node kind start operator [.single "argument" inner]

private theorem operation_follows (start : Pos) (least : Nat) (allowIn : Bool) (left : Draft) :
    Follows move (Option.map (Draft.relocate move)) (operation read start least allowIn left)
      (operation read (move start) least allowIn (left.relocate move)) := by
  refine stays_peek.bind_same fun next => ?_
  split
  · exact .pure none
  · rename_i operator _
    refine .ite _ (.pure none) ?_
    refine stays_advance.bind_same fun _ => (phrases _).bind fun right => ?_
    exact (follows_node operator.nodeKind start operator.text
      [.single "left" left, .single "right" right]).bind fun joined => .pure (some joined)

private theorem binary_stays (least : Nat) (allowIn : Bool) :
    DraftStays move (binary read least allowIn) := by
  refine stays_here.bind fun start => (phrases .unary).bind fun first => ?_
  exact follows_grow (operation_follows phrases start least allowIn) first

private theorem conditional_stays : DraftStays move (conditional read) := by
  refine stays_here.bind fun start => (phrases (.binary 1 true)).bind fun test => ?_
  refine (stays_eatPunct "?").bind_same fun asks => .ite _ ?_ (.pure test)
  refine (phrases .assignment).bind fun consequent => (stays_expectPunct ":").bind_same fun _ => ?_
  refine (phrases .assignment).bind fun alternate => ?_
  exact follows_node "ConditionalExpression" start none
    [.single "test" test, .single "consequent" consequent, .single "alternate" alternate]

private theorem assignmentTo_follows (start : Pos) (left : Draft) :
    Follows move (Draft.relocate move) (assignmentTo read start left)
      (assignmentTo read (move start) (left.relocate move)) := by
  refine stays_peek.bind_same fun next => ?_
  split
  · exact .pure left
  · rename_i operator _
    refine stays_advance.bind_same fun _ => (phrases .assignment).bind fun right => ?_
    exact follows_node "AssignmentExpression" start operator
      [.single "left" left, .single "right" right]

private theorem arrow_stays : DraftStays move (arrow read) := by
  refine stays_here.bind fun start => (stays_atPunct "(").bind_same fun opens => ?_
  -- Both ways to write the parameters go on alike.
  have rest (parameters : List Draft) : Follows move (Draft.relocate move)
      (do
        expectPunct "=>"
        let body ← if ← atPunct "\x7b" then block read else read .assignment
        node "ArrowFunctionExpression" start none [.list "params" parameters, .single "body" body])
      (do
        expectPunct "=>"
        let body ← if ← atPunct "\x7b" then block read else read .assignment
        node "ArrowFunctionExpression" (move start) none
          [.list "params" (parameters.map (Draft.relocate move)), .single "body" body]) := by
    refine (stays_expectPunct "=>").bind_same fun _ => (stays_atPunct "\x7b").bind_same fun brace => ?_
    refine .join (block_stays phrases) (phrases .assignment) fun body => ?_
    exact follows_node "ArrowFunctionExpression" start none
      [.list "params" parameters, .single "body" body]
  exact .ite _ ((params_stay phrases).bind rest) (bindingName_stays.bind_wrapped (fun _ => rfl) rest)

omit phrases in
private theorem startsWithArrow_relocate (tokens : List Token) :
    startsWithArrow (tokens.map (Token.relocate move)) = startsWithArrow tokens := by
  cases tokens <;> rfl

omit phrases in
private theorem arrowBehind_relocate (opened : Nat) (tokens : List Token) :
    arrowBehind opened (tokens.map (Token.relocate move)) = arrowBehind opened tokens := by
  induction tokens generalizing opened with
  | nil => rfl
  | cons token rest ih =>
    simp only [List.map_cons, arrowBehind, Token.relocate, ih, startsWithArrow_relocate]

omit phrases in
private theorem atArrow_relocate (cursor : Cursor) : (cursor.relocate move).atArrow = cursor.atArrow := by
  obtain ⟨rest, prevEnd, sourceEnd, depth⟩ := cursor
  cases rest with
  | nil => rfl
  | cons token rest =>
    simp only [Cursor.atArrow, Cursor.relocate, List.map_cons, Token.relocate,
      startsWithArrow_relocate, arrowBehind_relocate]

private theorem assignmentOrConditional_stays : DraftStays move (assignmentOrConditional read) :=
  stays_here.bind fun start =>
    (conditional_stays phrases).bind fun left => assignmentTo_follows phrases start left

private theorem assignment_stays : DraftStays move (assignment read) := by
  refine stays_get.bind fun cursor => ?_
  rw [atArrow_relocate]
  exact .ite _ (arrow_stays phrases) (assignmentOrConditional_stays phrases)

private theorem headExpression_stays : DraftStays move (headExpression read) := by
  refine follows_sequence (stays_here.bind fun start => ?_)
  exact (phrases (.binary 1 false)).bind fun left => assignmentTo_follows phrases start left

private theorem declarator_stays : DraftStays move (declarator read) := by
  refine stays_here.bind fun start => bindingName_stays.bind fun id => ?_
  refine (stays_eatPunct "=").bind_same fun equals => .optional (phrases .assignment) fun init => ?_
  exact follows_node "VariableDeclarator" start none [.single "id" id, .single "init" init]

private theorem declarators_stay :
    Stays move (Prod.map id (List.map (Draft.relocate move))) (declarators read) := by
  refine stays_peek.bind_same fun next => ?_
  split
  · rename_i word
    refine stays_advance.bind_same fun _ => ?_
    exact (follows_commaSeparated (declarator_stays phrases)).bind fun names => .pure (word, names)
  · exact stays_advance.bind_same fun _ => follows_failExpected _

private theorem variableDeclaration_stays : DraftStays move (variableDeclaration read) := by
  refine stays_here.bind fun start => (declarators_stay phrases).bind fun (word, declarations) => ?_
  refine stays_semicolon.bind_same fun _ => ?_
  exact follows_node "VariableDeclaration" start word [.list "declarations" declarations]

private theorem ifStatement_stays : DraftStays move (ifStatement read) := by
  refine stays_here.bind fun start => stays_advance.bind_same fun _ => ?_
  refine (parenthesized_stays phrases).bind fun test => (phrases .statement).bind fun consequent => ?_
  refine (stays_eatWord "else").bind_same fun hasElse => ?_
  refine .optional (phrases .statement) fun alternate => ?_
  exact follows_node "IfStatement" start none
    [.single "test" test, .single "consequent" consequent, .single "alternate" alternate]

private theorem loopInit_stays : Stays move (Option.map (Draft.relocate move)) (loopInit read) := by
  refine (stays_atPunct ";").bind_same fun ends => .ite _ (.pure none) ?_
  refine (stays_atWord "var").bind_same fun isVar => (stays_atWord "let").bind_same fun isLet => ?_
  refine (stays_atWord "const").bind_same fun isConst => .ite _ ?_ ?_
  · refine stays_here.bind fun start => (declarators_stay phrases).bind fun (word, declarations) => ?_
    exact (follows_node "VariableDeclaration" start word
      [.list "declarations" declarations]).bind fun init => .pure (some init)
  · exact (headExpression_stays phrases).bind fun init => .pure (some init)

private theorem expressionUnless_stays (punct : String) :
    Stays move (Option.map (Draft.relocate move)) (expressionUnless read punct) :=
  (stays_atPunct punct).bind_same fun _ =>
    .ite _ (.pure none) ((expression_stays phrases).bind fun inner => .pure (some inner))

private theorem forStatement_stays : DraftStays move (forStatement read) := by
  refine stays_here.bind fun start => stays_advance.bind_same fun _ => ?_
  refine (stays_expectPunct "(").bind_same fun _ => (loopInit_stays phrases).bind fun init => ?_
  refine (stays_atWord "of").bind_same fun isOf => (stays_atWord "in").bind_same fun isIn => ?_
  refine .ite _ (follows_fail _) ?_
  refine (stays_expectPunct ";").bind_same fun _ => ?_
  refine (expressionUnless_stays phrases ";").bind fun test => ?_
  refine (stays_expectPunct ";").bind_same fun _ => ?_
  refine (expressionUnless_stays phrases ")").bind fun update => ?_
  refine (stays_expectPunct ")").bind_same fun _ => (phrases .statement).bind fun body => ?_
  exact follows_node "ForStatement" start none
    [.single "init" init, .single "test" test, .single "update" update, .single "body" body]

private theorem whileStatement_stays : DraftStays move (whileStatement read) := by
  refine stays_here.bind fun start => stays_advance.bind_same fun _ => ?_
  refine (parenthesized_stays phrases).bind fun test => (phrases .statement).bind fun body => ?_
  exact follows_node "WhileStatement" start none [.single "test" test, .single "body" body]

private theorem doWhileStatement_stays : DraftStays move (doWhileStatement read) := by
  refine stays_here.bind fun start => stays_advance.bind_same fun _ => ?_
  refine (phrases .statement).bind fun body => (stays_eatWord "while").bind_same fun again => ?_
  refine .ite _ (follows_failExpected _) ?_
  refine (parenthesized_stays phrases).bind fun test => ?_
  refine (stays_eatPunct ";").discard.bind_same fun _ => ?_
  exact follows_node "DoWhileStatement" start none [.single "test" test, .single "body" body]

private theorem returnedValue_stays : Stays move (Option.map (Draft.relocate move)) (returnedValue read) := by
  refine stays_get.bind fun cursor => ?_
  obtain ⟨rest, prevEnd, sourceEnd, depth⟩ := cursor
  cases rest with
  | nil => exact .pure none
  | cons token rest =>
    exact .ite _ (.pure none) ((expression_stays phrases).bind fun value => .pure (some value))

private theorem returnStatement_stays : DraftStays move (returnStatement read) := by
  refine stays_here.bind fun start => stays_advance.bind_same fun _ => ?_
  refine (returnedValue_stays phrases).bind fun value => stays_semicolon.bind_same fun _ => ?_
  exact follows_node "ReturnStatement" start none [.single "argument" value]

private theorem throwStatement_stays : DraftStays move (throwStatement read) := by
  refine stays_here.bind fun start => stays_advance.bind_same fun _ => ?_
  refine (expression_stays phrases).bind fun value => stays_semicolon.bind_same fun _ => ?_
  exact follows_node "ThrowStatement" start none [.single "argument" value]

omit phrases in
private theorem atLabel_relocate (cursor : Cursor) : (cursor.relocate move).atLabel = cursor.atLabel := by
  obtain ⟨rest, prevEnd, sourceEnd, depth⟩ := cursor
  cases rest with
  | nil => rfl
  | cons token rest =>
    obtain ⟨kind, span, newlineBefore⟩ := token
    cases kind <;> rfl

omit phrases in
private theorem noLabel_stays : Stays move id (noLabel : Reader Unit) := by
  rw [noLabel_eq]
  refine stays_get.bind fun cursor => ?_
  rw [atLabel_relocate]
  exact .ite _ (follows_fail _) (.pure ())

omit phrases in
private theorem jumpStatement_stays (kind : String) : DraftStays move (jumpStatement kind) := by
  refine stays_here.bind fun start => stays_advance.bind_same fun _ => ?_
  refine noLabel_stays.bind_same fun _ => stays_semicolon.bind_same fun _ => ?_
  exact follows_node kind start none []

private theorem handler_stays : Stays move (Option.map (Draft.relocate move)) (handler read) := by
  refine stays_here.bind fun start => (stays_eatWord "catch").bind_same fun catches => ?_
  refine .ite _ ?_ (.pure none)
  -- With and without a parameter, a block follows.
  have rest (param : Option Draft) : Follows move (Option.map (Draft.relocate move))
      (do
        let body ← block read
        return some (← node "CatchClause" start none [.single "param" param, .single "body" body]))
      (do
        let body ← block read
        return some (← node "CatchClause" (move start) none
          [.single "param" (param.map (Draft.relocate move)), .single "body" body])) := by
    refine (block_stays phrases).bind fun body => ?_
    exact (follows_node "CatchClause" start none
      [.single "param" param, .single "body" body]).bind fun clause => .pure (some clause)
  refine (stays_eatPunct "(").bind_same fun opens => .ite _ ?_ ((Follows.pure none).bind rest)
  refine bindingName_stays.bind fun name => (stays_expectPunct ")").bind_same fun _ => ?_
  exact (Follows.pure (some name)).bind rest

private theorem tryStatement_stays : DraftStays move (tryStatement read) := by
  refine stays_here.bind fun start => stays_advance.bind_same fun _ => ?_
  refine (block_stays phrases).bind fun body => (handler_stays phrases).bind fun handler => ?_
  refine (stays_eatWord "finally").bind_same fun last => ?_
  refine .optional (block_stays phrases) fun finalizer => ?_
  dsimp only
  rw [Option.isNone_map, Option.isNone_map]
  refine .ite _ (follows_failExpected _) ?_
  exact follows_node "TryStatement" start none
    [.single "block" body, .single "handler" handler, .single "finalizer" finalizer]

private theorem caseTest_stays : Stays move (Option.map (Draft.relocate move)) (caseTest read) := by
  refine (stays_eatWord "case").bind_same fun isCase => .ite _ ?_ ?_
  · exact (expression_stays phrases).bind fun test => .pure (some test)
  · exact (stays_eatWord "default").bind_same fun _ => .ite _ (.pure none) (follows_failExpected _)

omit phrases in
private theorem atCaseEnd_stays : Stays move id atCaseEnd :=
  (stays_atWord "case").bind_same fun isCase => (stays_atWord "default").bind_same fun isDefault =>
    (stays_atPunct "\x7d").bind_same fun closes => .pure (isCase || isDefault || closes)

private theorem switchCase_stays : DraftStays move (switchCase read) := by
  refine stays_here.bind fun start => (caseTest_stays phrases).bind fun test => ?_
  refine (stays_expectPunct ":").bind_same fun _ => ?_
  refine (follows_many atCaseEnd_stays (statementInBraces_stays phrases)).bind fun consequent => ?_
  exact follows_node "SwitchCase" start none [.single "test" test, .list "consequent" consequent]

private theorem switchStatement_stays : DraftStays move (switchStatement read) := by
  refine stays_here.bind fun start => stays_advance.bind_same fun _ => ?_
  refine (parenthesized_stays phrases).bind fun discriminant => ?_
  refine (stays_expectPunct "\x7b").bind_same fun _ => ?_
  refine (follows_many (stays_eatPunct "\x7d") (switchCase_stays phrases)).bind fun cases => ?_
  exact follows_node "SwitchStatement" start none
    [.single "discriminant" discriminant, .list "cases" cases]

omit phrases in
private theorem atStatic_relocate (cursor : Cursor) : (cursor.relocate move).atStatic = cursor.atStatic := by
  simp only [Cursor.atStatic, Cursor.atWord_relocate, Cursor.second?_relocate]

private theorem classMember_stays : DraftStays move (classMember read) := by
  refine stays_here.bind fun start => stays_get.bind fun cursor => ?_
  rw [atStatic_relocate]
  -- What follows differs only in the text of the node.
  have rest (text : Option String) : Follows move (Draft.relocate move)
      (do
        let key ← propertyKey read
        if ← atPunct "(" then
          method read "ClassMethod" start text key
        else
          let value ← if ← eatPunct "=" then pure (some (← read .assignment)) else pure none
          semicolon
          node "ClassProperty" start text [.single "key" key, .single "value" value])
      (do
        let key ← propertyKey read
        if ← atPunct "(" then
          method read "ClassMethod" (move start) text key
        else
          let value ← if ← eatPunct "=" then pure (some (← read .assignment)) else pure none
          semicolon
          node "ClassProperty" (move start) text [.single "key" key, .single "value" value]) := by
    refine (propertyKey_stays phrases).bind fun key => (stays_atPunct "(").bind_same fun opens => ?_
    refine .ite _ (method_follows phrases "ClassMethod" start text key) ?_
    refine (stays_eatPunct "=").bind_same fun equals => .optional (phrases .assignment) fun value => ?_
    refine stays_semicolon.bind_same fun _ => ?_
    exact follows_node "ClassProperty" start text [.single "key" key, .single "value" value]
  cases cursor.atStatic with
  | true => exact stays_advance.bind_same fun _ => rest (some "static")
  | false => exact rest none

private theorem classItem_stays : Stays move (Option.map (Draft.relocate move)) (classItem read) :=
  (stays_eatPunct ";").bind_same fun _ =>
    .ite _ (.pure none) ((classMember_stays phrases).bind fun member => .pure (some member))

private theorem classBody_stays : DraftStays move (classBody read) := by
  refine stays_here.bind fun start => (stays_expectPunct "\x7b").bind_same fun _ => ?_
  refine (follows_many (stays_eatPunct "\x7d") (classItem_stays phrases)).bind fun items => ?_
  have members : (items.map (Option.map (Draft.relocate move))).filterMap id =
      (items.filterMap id).map (Draft.relocate move) := by
    rw [List.filterMap_map, List.map_filterMap]
    rfl
  rw [members]
  exact follows_node "ClassBody" start none [.list "body" (items.filterMap id)]

private theorem classDeclaration_stays : DraftStays move (classDeclaration read) := by
  refine stays_here.bind fun start => stays_advance.bind_same fun _ => ?_
  refine bindingName_stays.bind fun id => (stays_eatWord "extends").bind_same fun inherits => ?_
  refine .optional (chain_stays phrases) fun superClass => (classBody_stays phrases).bind fun body => ?_
  exact follows_node "ClassDeclaration" start none
    [.single "id" id, .single "superClass" superClass, .single "body" body]

private theorem expressionStatement_stays : DraftStays move (expressionStatement read) := by
  refine stays_here.bind fun start => (expression_stays phrases).bind fun inner => ?_
  refine stays_semicolon.bind_same fun _ => ?_
  exact follows_node "ExpressionStatement" start none [.single "expression" inner]

omit phrases in
private theorem atLetDeclaration_relocate (cursor : Cursor) :
    (cursor.relocate move).atLetDeclaration = cursor.atLetDeclaration := by
  simp only [Cursor.atLetDeclaration, Cursor.second?_relocate]

private theorem statement_stays : DraftStays move (statement read) := by
  refine stays_here.bind fun start => stays_peek.bind_same fun next => ?_
  split
  · exact follows_failExpected _
  · exact block_stays phrases
  · exact constant_stays "EmptyStatement"
  · exact function_stays phrases "FunctionDeclaration" true
  · exact classDeclaration_stays phrases
  · exact variableDeclaration_stays phrases
  · exact variableDeclaration_stays phrases
  · refine stays_get.bind fun cursor => ?_
    rw [atLetDeclaration_relocate]
    exact .ite _ (variableDeclaration_stays phrases) (expressionStatement_stays phrases)
  · exact ifStatement_stays phrases
  · exact forStatement_stays phrases
  · exact whileStatement_stays phrases
  · exact doWhileStatement_stays phrases
  · exact returnStatement_stays phrases
  · exact throwStatement_stays phrases
  · exact jumpStatement_stays "BreakStatement"
  · exact jumpStatement_stays "ContinueStatement"
  · exact tryStatement_stays phrases
  · exact switchStatement_stays phrases
  · exact follows_failAt _ _
  · exact follows_failAt _ _
  · exact expressionStatement_stays phrases

private theorem production_stays (phrase : Phrase) : DraftStays move (phrase.production read) := by
  cases phrase with
  | statement => exact follows_nested (statement_stays phrases)
  | assignment => exact assignment_stays phrases
  | binary least allowIn => exact binary_stays phrases least allowIn
  | unary => exact follows_nested (unary_stays phrases)
  | construction => exact construction_stays phrases

private theorem program_stays (fixed : move .origin = .origin) : DraftStays move (program read) := by
  refine (follows_many stays_atEnd (phrases .statement)).bind fun body => ?_
  refine stays_get.bind fun cursor => .give ?_
  rw [Draft.relocate_branch, Label.relocate, Option.map_some, Span.relocate, fixed]
  rfl

end Productions

/-- The grammar reads alike wherever its tokens are. -/
theorem readWithin_stays (limit : Nat) : PhrasesStay move (Phrase.readWithin limit) := by
  induction limit with
  | zero => exact fun _ => follows_fail _
  | succ limit ih => exact production_stays ih

/-- The draft of moved tokens is the moved draft of the tokens. -/
theorem parseTokens_relocate (fixed : move .origin = .origin) (tokens : List Token) (sourceEnd : Pos) :
    parseTokens (tokens.map (Token.relocate move)) (move sourceEnd) =
      ((parseTokens tokens sourceEnd).map (Draft.relocate move)).mapError (Error.relocate move) := by
  have first : Cursor.first (tokens.map (Token.relocate move)) (move sourceEnd) =
      (Cursor.first tokens sourceEnd).relocate move := by
    rw [Cursor.first, Cursor.first, Cursor.relocate, fixed]
  have read := program_stays (readWithin_stays (unrollings tokens.length)) fixed
    (Cursor.first tokens sourceEnd)
  unfold parseTokens
  rw [List.length_map, first, read]
  cases program (m := Reader) (Phrase.readWithin (unrollings tokens.length)) (.first tokens sourceEnd) <;> rfl

end SyntaxNav.Script

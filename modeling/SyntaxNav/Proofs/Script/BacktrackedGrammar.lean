import SyntaxNav.Proofs.Script.Backtracking
import SyntaxNav.Proofs.Script.Coverage

/-! # Productions over phrases that agree

Every production over phrases that are read without a look ahead agrees with the same production over
phrases that are read with one. All but the primitives of `Backtracking` follow from two facts: a token
is passed only where it is known not to be an arrow, and the one arrow that is expected stands behind
parameters, which cannot be stuck before it.
-/

namespace SyntaxNav.Script

/-- Every phrase is read alike, a construction where one starts. -/
def PhrasesAgree (quick slow : PhraseReader) : Prop :=
  ∀ phrase cursor, (phrase = .construction → cursor.atWord "new" = true) →
    AgreesAt Cursor.MeetsArrow (quick phrase) (slow phrase) cursor

namespace PhrasesAgree

variable {quick slow : PhraseReader} (phrases : PhrasesAgree quick slow)

include phrases

theorem statement : Agrees (quick .statement) (slow .statement) :=
  fun cursor => phrases .statement cursor nofun

theorem assignment : Agrees (quick .assignment) (slow .assignment) :=
  fun cursor => phrases .assignment cursor nofun

private theorem binary (least : Nat) (allowIn : Bool) :
    Agrees (quick (.binary least allowIn)) (slow (.binary least allowIn)) :=
  fun cursor => phrases (.binary least allowIn) cursor nofun

theorem unary : Agrees (quick .unary) (slow .unary) :=
  fun cursor => phrases .unary cursor nofun

end PhrasesAgree

/-- A cursor before any other token meets no arrow. -/
theorem Cursor.not_meetsArrow {cursor : Cursor} {kind : TokenKind} (next : cursor.next? = some kind)
    (other : kind ≠ .punct "=>") : ¬ cursor.MeetsArrow := by
  intro meets
  exact other (Option.some.inj (next.symm.trans meets))

private theorem Cursor.not_meetsArrow_of_rest {cursor : Cursor} {token : Token} {rest : List Token}
    (ahead : cursor.rest = token :: rest) (other : token.kind ≠ .punct "=>") : ¬ cursor.MeetsArrow :=
  not_meetsArrow (by rw [next?, ahead]; rfl) other

section Names

private theorem bindingName_agreesFirmly : AgreesFirmly bindingName bindingName := by
  intro cursor
  apply AgreesAt.refl
  intro meets
  obtain ⟨token, rest, ahead, arrow⟩ := Cursor.exists_of_next? meets
  simp [bindingName, ahead, arrow]

private theorem bindingName_agrees : Agrees bindingName bindingName :=
  bindingName_agreesFirmly.agrees

private theorem propertyName_agrees : Agrees propertyName propertyName := by
  intro cursor
  apply AgreesAt.refl
  intro meets
  obtain ⟨token, rest, ahead, arrow⟩ := Cursor.exists_of_next? meets
  simp [propertyName, ahead, arrow]

end Names

private theorem agrees_sequence {item slowItem : Reader Draft} (items : Agrees item slowItem) :
    Agrees (sequence item) (sequence slowItem) := by
  apply agrees_here.bind
  intro start
  apply (agrees_commaSeparated items).bind
  intro drafts
  split
  · exact agrees_pure _
  · exact agrees_node "SequenceExpression" start none [.list "expressions" _]

section Productions

variable {quick slow : PhraseReader} {cursor : Cursor} (phrases : PhrasesAgree quick slow)

include phrases

private theorem propertyKey_agrees : Agrees (propertyKey quick) (propertyKey slow) := by
  intro cursor
  apply agreesAt_get
  cases ahead : cursor.rest with
  | nil => exact agreesAt_failExpected _
  | cons token rest =>
    dsimp only
    split <;> rename_i kind
    · exact agreesAt_advance (cursor.not_meetsArrow_of_rest ahead (by simp [kind])) (agrees_pure _)
    · exact agreesAt_advance (cursor.not_meetsArrow_of_rest ahead (by simp [kind])) (agrees_pure _)
    · exact agreesAt_advance (cursor.not_meetsArrow_of_rest ahead (by simp [kind])) (agrees_pure _)
    · apply agreesAt_advance (cursor.not_meetsArrow_of_rest ahead (by simp [kind]))
      apply phrases.assignment.bind
      intro key
      apply (agrees_expectPunct (by decide)).bind
      intro _
      exact agrees_pure key
    · exact agreesAt_failExpected _

private theorem expression_agrees : Agrees (expression quick) (expression slow) :=
  agrees_sequence phrases.assignment

private theorem parenthesized_agrees : Agrees (parenthesized quick) (parenthesized slow) := by
  apply (agrees_expectPunct (by decide)).bind
  intro _
  apply (expression_agrees phrases).bind
  intro inner
  apply (agrees_expectPunct (by decide)).bind
  intro _
  exact agrees_pure inner

private theorem statementInBraces_agrees : Agrees (statementInBraces quick) (statementInBraces slow) := by
  apply agrees_atEnd.bind
  intro _
  exact .ite _ (fun _ => agreesAt_failExpected _) phrases.statement

private theorem block_agrees : Agrees (block quick) (block slow) := by
  apply agrees_here.bind
  intro start
  apply (agrees_expectPunct (by decide)).bind
  intro _
  apply (agrees_many (agrees_eatPunct (by decide)) (statementInBraces_agrees phrases)).bind
  intro body
  exact agrees_node "BlockStatement" start none [.list "body" body]

private theorem param_agrees : Agrees (param quick) (param slow) := by
  apply agrees_here.bind
  intro start
  apply (agrees_eatPunct (by decide)).bind
  intro _
  apply Agrees.ite
  · apply bindingName_agrees.bind
    intro argument
    exact agrees_node "RestElement" start none [.single "argument" argument]
  · apply bindingName_agrees.bind
    intro left
    apply (agrees_eatPunct (by decide)).bind
    intro _
    apply Agrees.ite
    · apply phrases.assignment.bind
      intro right
      exact agrees_node "AssignmentPattern" start none [.single "left" left, .single "right" right]
    · exact agrees_pure left

/-- Parameters end with a parenthesis, so they are read alike or not at all. -/
theorem params_agree : AgreesFirmly (params quick) (params slow) := by
  apply (agrees_expectPunct (by decide)).bind_firmly
  intro _
  exact agreesFirmly_list (by decide) (param_agrees phrases)

omit phrases in
private theorem functionName_agrees (needed : Bool) : Agrees (functionName needed) (functionName needed) := by
  apply agrees_peek.bind
  intro next
  have named : Agrees (do return some (← bindingName)) (do return some (← bindingName)) :=
    bindingName_agrees.bind fun name => agrees_pure (some name)
  split
  · exact named
  · exact .ite _ named (agrees_pure none)

private theorem function_agrees (other : ¬ cursor.MeetsArrow) (kind : String) (needsName : Bool) :
    AgreesAt Cursor.MeetsArrow (function quick kind needsName) (function slow kind needsName) cursor := by
  apply agreesAt_opened other
  intro start
  apply (agrees_atPunct "*").bind
  intro _
  apply Agrees.ite
  · exact fun _ => agreesAt_fail _
  · apply (functionName_agrees needsName).bind
    intro id
    apply (params_agree phrases).agrees.bind
    intro parameters
    apply (block_agrees phrases).bind
    intro body
    exact agrees_node kind start none [.single "id" id, .list "params" parameters, .single "body" body]

private theorem method_agrees (kind : String) (start : Pos) (text : Option String) (key : Draft) :
    Agrees (method quick kind start text key) (method slow kind start text key) := by
  apply (params_agree phrases).agrees.bind
  intro parameters
  apply (block_agrees phrases).bind
  intro body
  exact agrees_node kind start text [.single "key" key, .list "params" parameters, .single "body" body]

private theorem argument_agrees : Agrees (argument quick) (argument slow) := by
  apply agrees_here.bind
  intro start
  apply (agrees_eatPunct (by decide)).bind
  intro _
  apply Agrees.ite
  · apply phrases.assignment.bind
    intro inner
    exact agrees_node "SpreadElement" start none [.single "argument" inner]
  · exact phrases.assignment

private theorem objectProperty_agrees (start : Pos) (keyToken : Option Token) (key : Draft) :
    Agrees (objectProperty quick start keyToken key) (objectProperty slow start keyToken key) := by
  apply (agrees_atPunct "(").bind
  intro _
  apply Agrees.ite
  · exact method_agrees phrases "ObjectMethod" start none key
  apply (agrees_eatPunct (by decide)).bind
  intro _
  apply Agrees.ite
  · apply phrases.assignment.bind
    intro value
    exact agrees_node "ObjectProperty" start none [.single "key" key, .single "value" value]
  cases keyToken with
  | none => exact fun _ => agreesAt_failExpected _
  | some token =>
    dsimp only
    split
    · apply Agrees.ite
      · exact fun _ => agreesAt_failExpected _
      · exact agrees_node "ObjectProperty" start "shorthand"
          [.single "key" key, .single "value" (leaf "Identifier" token)]
    · exact fun _ => agreesAt_failExpected _

private theorem objectMember_agrees : Agrees (objectMember quick) (objectMember slow) := by
  apply agrees_here.bind
  intro start
  apply (agrees_eatPunct (by decide)).bind
  intro _
  apply Agrees.ite
  · apply phrases.assignment.bind
    intro inner
    exact agrees_node "SpreadElement" start none [.single "argument" inner]
  · intro cursor
    apply agreesAt_get
    apply (propertyKey_agrees phrases cursor).bind
    intro key
    exact objectProperty_agrees phrases start _ key

omit phrases in
private theorem literal_agrees (other : ¬ cursor.MeetsArrow) (kind : String) (token : Token) :
    AgreesAt Cursor.MeetsArrow (literal kind token) (literal kind token) cursor :=
  agreesAt_advance other (agrees_pure _)

omit phrases in
private theorem constant_agrees (other : ¬ cursor.MeetsArrow) (kind : String) :
    AgreesAt Cursor.MeetsArrow (constant kind) (constant kind) cursor :=
  agreesAt_opened other fun start => agrees_node kind start none []

private theorem array_agrees (other : ¬ cursor.MeetsArrow) :
    AgreesAt Cursor.MeetsArrow (array quick) (array slow) cursor := by
  apply agreesAt_opened other
  intro start
  apply (agreesFirmly_list (by decide) (argument_agrees phrases)).agrees.bind
  intro elements
  exact agrees_node "ArrayExpression" start none [.list "elements" elements]

private theorem object_agrees (other : ¬ cursor.MeetsArrow) :
    AgreesAt Cursor.MeetsArrow (object quick) (object slow) cursor := by
  apply agreesAt_opened other
  intro start
  apply (agreesFirmly_list (by decide) (objectMember_agrees phrases)).agrees.bind
  intro properties
  exact agrees_node "ObjectExpression" start none [.list "properties" properties]

private theorem primary_agrees : Agrees (primary quick) (primary slow) := by
  intro cursor
  apply agreesAt_get
  cases ahead : cursor.rest with
  | nil => exact agreesAt_failExpected _
  | cons token rest =>
    have other := Cursor.not_meetsArrow_of_rest ahead
    dsimp only
    split <;> rename_i kind
    · exact literal_agrees (other (by simp [kind])) "NumericLiteral" token
    · exact literal_agrees (other (by simp [kind])) "StringLiteral" token
    · exact literal_agrees (other (by simp [kind])) "BooleanLiteral" token
    · exact literal_agrees (other (by simp [kind])) "BooleanLiteral" token
    · exact constant_agrees (other (by simp [kind])) "NullLiteral"
    · exact constant_agrees (other (by simp [kind])) "ThisExpression"
    · exact function_agrees phrases (other (by simp [kind])) "FunctionExpression" false
    · apply AgreesAt.ite
      · exact fun _ => agreesAt_failExpected _
      · exact fun _ => literal_agrees (other (by simp [kind])) "Identifier" token
    · exact parenthesized_agrees phrases cursor
    · exact array_agrees phrases (other (by simp [kind]))
    · exact object_agrees phrases (other (by simp [kind]))
    · exact agreesAt_failExpected _

private theorem computedMember_agrees (start : Pos) (object : Draft) :
    Agrees (computedMember quick start object) (computedMember slow start object) := by
  apply (expression_agrees phrases).bind
  intro property
  apply (agrees_expectPunct (by decide)).bind
  intro _
  exact agrees_node "MemberExpression" start "computed"
    [.single "object" object, .single "property" property]

omit phrases in
private theorem namedMember_agrees (kind : String) (start : Pos) (object : Draft) :
    Agrees (namedMember kind start object) (namedMember kind start object) := by
  apply propertyName_agrees.bind
  intro property
  exact agrees_node kind start none [.single "object" object, .single "property" property]

omit phrases in
private theorem optionalMember_agrees (start : Pos) (object : Draft) :
    Agrees (optionalMember start object) (optionalMember start object) := by
  apply (agrees_atPunct "(").bind
  intro _
  apply (agrees_atPunct "[").bind
  intro _
  apply Agrees.ite
  · exact fun _ => agreesAt_fail _
  · exact namedMember_agrees "OptionalMemberExpression" start object

/-- Members and calls are read alike. -/
theorem memberOrCall_agrees (start : Pos) (inner : Draft) :
    Agrees (memberOrCall quick start inner) (memberOrCall slow start inner) := by
  apply (agrees_eatPunct (by decide)).bind
  intro _
  apply Agrees.ite
  · exact (namedMember_agrees "MemberExpression" start inner).bind fun member => agrees_pure (some member)
  apply (agrees_eatPunct (by decide)).bind
  intro _
  apply Agrees.ite
  · exact (optionalMember_agrees start inner).bind fun member => agrees_pure (some member)
  apply (agrees_eatPunct (by decide)).bind
  intro _
  apply Agrees.ite
  · exact (computedMember_agrees phrases start inner).bind fun member => agrees_pure (some member)
  apply (agrees_eatPunct (by decide)).bind
  intro _
  apply Agrees.ite
  · apply (agreesFirmly_list (by decide) (argument_agrees phrases)).agrees.bind
    intro arguments
    exact (agrees_node "CallExpression" start none
      [.single "callee" inner, .list "arguments" arguments]).bind fun call => agrees_pure (some call)
  · exact agrees_pure none

private theorem chain_agrees : Agrees (chain quick) (chain slow) := by
  intro cursor
  apply agreesAt_look
  apply agreesAt_look
  have extended (inner : Draft) := agrees_grow (memberOrCall_agrees phrases cursor.start) inner
  apply AgreesAt.ite
  · intro atNew
    exact (phrases .construction cursor fun _ => atNew).bind fun inner => extended inner
  · intro _
    exact (primary_agrees phrases cursor).bind fun inner => extended inner

private theorem constructedMember_agrees (start : Pos) (inner : Draft) :
    Agrees (constructedMember quick start inner) (constructedMember slow start inner) := by
  apply (agrees_eatPunct (by decide)).bind
  intro _
  apply Agrees.ite
  · exact (namedMember_agrees "MemberExpression" start inner).bind fun member => agrees_pure (some member)
  apply (agrees_eatPunct (by decide)).bind
  intro _
  apply Agrees.ite
  · exact (computedMember_agrees phrases start inner).bind fun member => agrees_pure (some member)
  · exact agrees_pure none

/-- Constructions are read alike where no arrow stands. -/
theorem construction_agrees (other : ¬ cursor.MeetsArrow) :
    AgreesAt Cursor.MeetsArrow (construction quick) (construction slow) cursor := by
  apply agreesAt_opened other
  intro start
  have behind (inner : Draft) : Agrees
      (do
        let callee ← grow (constructedMember quick start) inner
        let arguments ← if ← eatPunct "(" then list ")" (argument quick) else pure []
        node "NewExpression" start none [.single "callee" callee, .list "arguments" arguments])
      (do
        let callee ← grow (constructedMember slow start) inner
        let arguments ← if ← eatPunct "(" then list ")" (argument slow) else pure []
        node "NewExpression" start none [.single "callee" callee, .list "arguments" arguments]) := by
    apply (agrees_grow (constructedMember_agrees phrases start) inner).bind
    intro callee
    apply (agrees_eatPunct (by decide)).bind
    intro _
    apply Agrees.join (agreesFirmly_list (by decide) (argument_agrees phrases)).agrees (agrees_pure [])
    intro arguments
    exact agrees_node "NewExpression" start none
      [.single "callee" callee, .list "arguments" arguments]
  intro cursor
  apply agreesAt_look
  apply AgreesAt.ite
  · intro atNew
    exact (agreesAt_nested (phrases .construction _ fun _ => atNew)).bind fun inner => behind inner
  · intro _
    exact (primary_agrees phrases cursor).bind fun inner => behind inner

omit phrases in
/-- An operator behind an operand is no arrow. -/
theorem trailingOperator_other {operator : String} (found : trailingOperator? cursor = some operator) :
    ¬ cursor.MeetsArrow := by
  unfold trailingOperator? at found
  split at found
  · rename_i ahead
    exact Cursor.not_meetsArrow_of_rest ahead (by simp)
  · rename_i ahead
    exact Cursor.not_meetsArrow_of_rest ahead (by simp)
  · cases found

private theorem postfixed_agrees : Agrees (postfixed quick) (postfixed slow) := by
  apply agrees_here.bind
  intro start
  apply (chain_agrees phrases).bind
  intro inner cursor
  apply agreesAt_get
  split
  · exact agrees_pure inner cursor
  · rename_i operator found
    apply agreesAt_advance (trailingOperator_other found)
    exact agrees_node "UpdateExpression" start operator [.single "argument" inner]

omit phrases in
/-- A token is no arrow if it is something that no arrow is. -/
theorem Cursor.not_meetsArrow_of_bind {β : Type} {look : TokenKind → Option β} {found : β}
    (looked : cursor.next?.bind look = some found) (none : look (.punct "=>") = none) :
    ¬ cursor.MeetsArrow := by
  intro meets
  rw [show cursor.next? = _ from meets, Option.bind_some, none] at looked
  cases looked

/-- Operands with operators in front are read alike. -/
theorem unary_agrees : Agrees (unary quick) (unary slow) := by
  intro cursor
  apply agreesAt_look
  apply agreesAt_look
  split
  · exact postfixed_agrees phrases cursor
  · rename_i kind operator found
    apply agreesAt_advance (Cursor.not_meetsArrow_of_bind found rfl)
    apply phrases.unary.bind
    intro inner
    exact agrees_node kind cursor.start operator [.single "argument" inner]

/-- The rest of an operation is read alike. -/
theorem operation_agrees (start : Pos) (least : Nat) (allowIn : Bool) (left : Draft) :
    Agrees (operation quick start least allowIn left) (operation slow start least allowIn left) := by
  intro cursor
  apply agreesAt_look
  split
  · exact agrees_pure none cursor
  · rename_i operator found
    apply AgreesAt.ite
    · exact fun _ => agrees_pure none cursor
    · intro _
      apply agreesAt_advance (Cursor.not_meetsArrow_of_bind found rfl)
      apply (phrases.binary _ allowIn).bind
      intro right
      exact (agrees_node operator.nodeKind start operator.text
        [.single "left" left, .single "right" right]).bind fun joined => agrees_pure (some joined)

/-- Operands joined by operators are read alike. -/
theorem binary_agrees (least : Nat) (allowIn : Bool) :
    Agrees (binary quick least allowIn) (binary slow least allowIn) := by
  apply agrees_here.bind
  intro start
  apply phrases.unary.bind
  intro first
  exact agrees_grow (operation_agrees phrases start least allowIn) first

private theorem conditional_agrees : Agrees (conditional quick) (conditional slow) := by
  apply agrees_here.bind
  intro start
  apply (phrases.binary 1 true).bind
  intro test
  apply (agrees_eatPunct (by decide)).bind
  intro _
  apply Agrees.ite
  · apply phrases.assignment.bind
    intro consequent
    apply (agrees_expectPunct (by decide)).bind
    intro _
    apply phrases.assignment.bind
    intro alternate
    exact agrees_node "ConditionalExpression" start none
      [.single "test" test, .single "consequent" consequent, .single "alternate" alternate]
  · exact agrees_pure test

/-- What is assigned is read alike. -/
theorem assignmentTo_agrees (start : Pos) (left : Draft) :
    Agrees (assignmentTo quick start left) (assignmentTo slow start left) := by
  intro cursor
  apply agreesAt_look
  split
  · exact agrees_pure left cursor
  · rename_i operator found
    apply agreesAt_advance (Cursor.not_meetsArrow_of_bind found rfl)
    apply phrases.assignment.bind
    intro right
    exact agrees_node "AssignmentExpression" start operator
      [.single "left" left, .single "right" right]

/-- Where no arrow function starts, assignments are read alike. -/
theorem assignmentOrConditional_agrees :
    Agrees (assignmentOrConditional quick) (assignmentOrConditional slow) := by
  apply agrees_here.bind
  intro start
  apply (conditional_agrees phrases).bind
  intro left
  exact assignmentTo_agrees phrases start left

/-- An arrow is expected only behind parameters, which are read alike or not at all. -/
theorem arrow_agrees : Agrees (arrow quick) (arrow slow) := by
  intro cursor
  apply agreesAt_look
  apply agreesAt_look
  have behind (parameters : List Draft) (middle : Cursor) : TracksAt Cursor.MeetsArrow
      (do
        expectPunct "=>"
        let body ← if ← atPunct "\x7b" then block quick else quick .assignment
        node "ArrowFunctionExpression" cursor.start none
          [.list "params" parameters, .single "body" body])
      (do
        expectPunct "=>"
        let body ← if ← atPunct "\x7b" then block slow else slow .assignment
        node "ArrowFunctionExpression" cursor.start none
          [.list "params" parameters, .single "body" body]) middle := by
    have arrow : TracksAt Cursor.Never (expectPunct "=>") (expectPunct "=>") middle := .refl _
    apply arrow.bind fun _ _ never => never.elim
    intro _ inner
    apply AgreesAt.toTracksAt
    apply (agrees_atPunct "\x7b" inner).bind
    intro _
    apply Agrees.join (block_agrees phrases) phrases.assignment
    intro body
    exact agrees_node "ArrowFunctionExpression" cursor.start none
      [.list "params" parameters, .single "body" body]
  apply AgreesAt.ite
  · exact fun _ => (params_agree phrases cursor).bind_tracks behind
  · exact fun _ => (bindingName_agreesFirmly cursor).bind_tracks fun name => behind [name]

private theorem headExpression_agrees : Agrees (headExpression quick) (headExpression slow) := by
  apply agrees_sequence
  apply agrees_here.bind
  intro start
  apply (phrases.binary 1 false).bind
  intro left
  exact assignmentTo_agrees phrases start left

private theorem declarator_agrees : Agrees (declarator quick) (declarator slow) := by
  apply agrees_here.bind
  intro start
  apply bindingName_agrees.bind
  intro id
  apply (agrees_eatPunct (by decide)).bind
  intro _
  apply Agrees.optional phrases.assignment
  intro init
  exact agrees_node "VariableDeclarator" start none [.single "id" id, .single "init" init]

private theorem declarators_agree : Agrees (declarators quick) (declarators slow) := by
  intro cursor
  apply agreesAt_look
  split <;> rename_i next
  · rename_i word
    apply agreesAt_advance (Cursor.not_meetsArrow next (by simp))
    apply (agrees_commaSeparated (declarator_agrees phrases)).bind
    intro declarations
    exact agrees_pure (word, declarations)
  · apply AgreesAt.refl
    simp

private theorem variableDeclaration_agrees :
    Agrees (variableDeclaration quick) (variableDeclaration slow) := by
  apply agrees_here.bind
  intro start
  apply (declarators_agree phrases).bind
  rintro ⟨word, declarations⟩
  apply agrees_semicolon.bind
  intro _
  exact agrees_node "VariableDeclaration" start word [.list "declarations" declarations]

private theorem ifStatement_agrees (other : ¬ cursor.MeetsArrow) :
    AgreesAt Cursor.MeetsArrow (ifStatement quick) (ifStatement slow) cursor := by
  apply agreesAt_opened other
  intro start
  apply (parenthesized_agrees phrases).bind
  intro test
  apply phrases.statement.bind
  intro consequent
  apply (agrees_eatWord "else").bind
  intro _
  apply Agrees.optional phrases.statement
  intro alternate
  exact agrees_node "IfStatement" start none
    [.single "test" test, .single "consequent" consequent, .single "alternate" alternate]

private theorem loopInit_agrees : Agrees (loopInit quick) (loopInit slow) := by
  apply (agrees_atPunct ";").bind
  intro _
  apply Agrees.ite
  · exact agrees_pure none
  apply (agrees_atWord "var").bind
  intro _
  apply (agrees_atWord "let").bind
  intro _
  apply (agrees_atWord "const").bind
  intro _
  apply Agrees.ite
  · apply agrees_here.bind
    intro start
    apply (declarators_agree phrases).bind
    rintro ⟨word, declarations⟩
    exact (agrees_node "VariableDeclaration" start word
      [.list "declarations" declarations]).bind fun init => agrees_pure (some init)
  · exact (headExpression_agrees phrases).bind fun init => agrees_pure (some init)

private theorem expressionUnless_agrees (punct : String) :
    Agrees (expressionUnless quick punct) (expressionUnless slow punct) := by
  apply (agrees_atPunct punct).bind
  intro _
  apply Agrees.ite
  · exact agrees_pure none
  · exact (expression_agrees phrases).bind fun inner => agrees_pure (some inner)

private theorem forStatement_agrees (other : ¬ cursor.MeetsArrow) :
    AgreesAt Cursor.MeetsArrow (forStatement quick) (forStatement slow) cursor := by
  apply agreesAt_opened other
  intro start
  apply (agrees_expectPunct (by decide)).bind
  intro _
  apply (loopInit_agrees phrases).bind
  intro init
  apply (agrees_atWord "of").bind
  intro _
  apply (agrees_atWord "in").bind
  intro _
  apply Agrees.ite
  · exact fun _ => agreesAt_fail _
  apply (agrees_expectPunct (by decide)).bind
  intro _
  apply (expressionUnless_agrees phrases ";").bind
  intro test
  apply (agrees_expectPunct (by decide)).bind
  intro _
  apply (expressionUnless_agrees phrases ")").bind
  intro update
  apply (agrees_expectPunct (by decide)).bind
  intro _
  apply phrases.statement.bind
  intro body
  exact agrees_node "ForStatement" start none
    [.single "init" init, .single "test" test, .single "update" update, .single "body" body]

private theorem whileStatement_agrees (other : ¬ cursor.MeetsArrow) :
    AgreesAt Cursor.MeetsArrow (whileStatement quick) (whileStatement slow) cursor := by
  apply agreesAt_opened other
  intro start
  apply (parenthesized_agrees phrases).bind
  intro test
  apply phrases.statement.bind
  intro body
  exact agrees_node "WhileStatement" start none [.single "test" test, .single "body" body]

private theorem doWhileStatement_agrees (other : ¬ cursor.MeetsArrow) :
    AgreesAt Cursor.MeetsArrow (doWhileStatement quick) (doWhileStatement slow) cursor := by
  apply agreesAt_opened other
  intro start
  apply phrases.statement.bind
  intro body
  apply (agrees_eatWord "while").bind
  intro _
  apply Agrees.ite
  · exact fun _ => agreesAt_failExpected _
  apply (parenthesized_agrees phrases).bind
  intro test
  apply (agrees_eatPunct (by decide)).discard.bind
  intro _
  exact agrees_node "DoWhileStatement" start none [.single "test" test, .single "body" body]

private theorem returnedValue_agrees : Agrees (returnedValue quick) (returnedValue slow) := by
  intro cursor
  apply agreesAt_get
  cases cursor.rest with
  | nil => exact agrees_pure none cursor
  | cons token rest =>
    apply AgreesAt.ite
    · exact fun _ => agrees_pure none cursor
    · exact fun _ => (expression_agrees phrases cursor).bind fun value => agrees_pure (some value)

private theorem returnStatement_agrees (other : ¬ cursor.MeetsArrow) :
    AgreesAt Cursor.MeetsArrow (returnStatement quick) (returnStatement slow) cursor := by
  apply agreesAt_opened other
  intro start
  apply (returnedValue_agrees phrases).bind
  intro value
  apply agrees_semicolon.bind
  intro _
  exact agrees_node "ReturnStatement" start none [.single "argument" value]

private theorem throwStatement_agrees (other : ¬ cursor.MeetsArrow) :
    AgreesAt Cursor.MeetsArrow (throwStatement quick) (throwStatement slow) cursor := by
  apply agreesAt_opened other
  intro start
  apply (expression_agrees phrases).bind
  intro value
  apply agrees_semicolon.bind
  intro _
  exact agrees_node "ThrowStatement" start none [.single "argument" value]

omit phrases in
private theorem jumpStatement_agrees (other : ¬ cursor.MeetsArrow) (kind : String) :
    AgreesAt Cursor.MeetsArrow (jumpStatement kind) (jumpStatement kind) cursor := by
  apply agreesAt_opened other
  intro start
  rw [noLabel_eq]
  apply Agrees.bind
  · intro cursor
    apply agreesAt_get
    apply AgreesAt.ite
    · exact fun _ => agreesAt_fail _
    · exact fun _ => agrees_pure () cursor
  · exact fun _ => agrees_semicolon.bind fun _ => agrees_node kind start none []

private theorem handler_agrees : Agrees (handler quick) (handler slow) := by
  apply agrees_here.bind
  intro start
  apply (agrees_eatWord "catch").bind
  intro _
  apply Agrees.ite
  · have clause (param : Option Draft) : Agrees
        (do
          let body ← block quick
          return some (← node "CatchClause" start none [.single "param" param, .single "body" body]))
        (do
          let body ← block slow
          return some (← node "CatchClause" start none [.single "param" param, .single "body" body])) := by
      apply (block_agrees phrases).bind
      intro body
      exact (agrees_node "CatchClause" start none
        [.single "param" param, .single "body" body]).bind fun clause => agrees_pure (some clause)
    apply (agrees_eatPunct (by decide)).bind
    intro _
    apply Agrees.ite
    · apply bindingName_agrees.bind
      intro name
      apply (agrees_expectPunct (by decide)).bind
      intro _
      exact clause (some name)
    · exact clause none
  · exact agrees_pure none

private theorem tryStatement_agrees (other : ¬ cursor.MeetsArrow) :
    AgreesAt Cursor.MeetsArrow (tryStatement quick) (tryStatement slow) cursor := by
  apply agreesAt_opened other
  intro start
  apply (block_agrees phrases).bind
  intro body
  apply (handler_agrees phrases).bind
  intro handler
  apply (agrees_eatWord "finally").bind
  intro _
  apply Agrees.optional (block_agrees phrases)
  intro finalizer
  apply Agrees.ite
  · exact fun _ => agreesAt_failExpected _
  · exact agrees_node "TryStatement" start none
      [.single "block" body, .single "handler" handler, .single "finalizer" finalizer]

private theorem caseTest_agrees : Agrees (caseTest quick) (caseTest slow) := by
  apply (agrees_eatWord "case").bind
  intro _
  apply Agrees.ite
  · exact (expression_agrees phrases).bind fun test => agrees_pure (some test)
  · apply (agrees_eatWord "default").bind
    intro _
    exact .ite _ (agrees_pure none) fun _ => agreesAt_failExpected _

omit phrases in
private theorem atCaseEnd_agrees : Agrees atCaseEnd atCaseEnd := by
  apply (agrees_atWord "case").bind
  intro isCase
  apply (agrees_atWord "default").bind
  intro isDefault
  apply (agrees_atPunct "\x7d").bind
  intro closes
  exact agrees_pure (isCase || isDefault || closes)

private theorem switchCase_agrees : Agrees (switchCase quick) (switchCase slow) := by
  apply agrees_here.bind
  intro start
  apply (caseTest_agrees phrases).bind
  intro test
  apply (agrees_expectPunct (by decide)).bind
  intro _
  apply (agrees_many atCaseEnd_agrees (statementInBraces_agrees phrases)).bind
  intro consequent
  exact agrees_node "SwitchCase" start none [.single "test" test, .list "consequent" consequent]

private theorem switchStatement_agrees (other : ¬ cursor.MeetsArrow) :
    AgreesAt Cursor.MeetsArrow (switchStatement quick) (switchStatement slow) cursor := by
  apply agreesAt_opened other
  intro start
  apply (parenthesized_agrees phrases).bind
  intro discriminant
  apply (agrees_expectPunct (by decide)).bind
  intro _
  apply (agrees_many (agrees_eatPunct (by decide)) (switchCase_agrees phrases)).bind
  intro cases
  exact agrees_node "SwitchStatement" start none
    [.single "discriminant" discriminant, .list "cases" cases]

private theorem classMember_agrees : Agrees (classMember quick) (classMember slow) := by
  intro cursor
  apply agreesAt_look
  apply agreesAt_get
  -- What follows differs only in the text of the node.
  have behind (text : Option String) : Agrees
      (do
        let key ← propertyKey quick
        if ← atPunct "(" then
          method quick "ClassMethod" cursor.start text key
        else
          let value ← if ← eatPunct "=" then pure (some (← quick .assignment)) else pure none
          semicolon
          node "ClassProperty" cursor.start text [.single "key" key, .single "value" value])
      (do
        let key ← propertyKey slow
        if ← atPunct "(" then
          method slow "ClassMethod" cursor.start text key
        else
          let value ← if ← eatPunct "=" then pure (some (← slow .assignment)) else pure none
          semicolon
          node "ClassProperty" cursor.start text [.single "key" key, .single "value" value]) := by
    apply (propertyKey_agrees phrases).bind
    intro key
    apply (agrees_atPunct "(").bind
    intro _
    apply Agrees.ite
    · exact method_agrees phrases "ClassMethod" cursor.start text key
    · apply (agrees_eatPunct (by decide)).bind
      intro _
      apply Agrees.optional phrases.assignment
      intro value
      apply agrees_semicolon.bind
      intro _
      exact agrees_node "ClassProperty" cursor.start text [.single "key" key, .single "value" value]
  cases isStatic : cursor.atStatic with
  | true =>
    have word : cursor.next? = some (.word "static") :=
      Cursor.atWord_iff.mp (Bool.and_eq_true_iff.mp isStatic).1
    exact agreesAt_advance (Cursor.not_meetsArrow word (by simp)) (behind (some "static"))
  | false => exact behind none cursor

private theorem classItem_agrees : Agrees (classItem quick) (classItem slow) := by
  apply (agrees_eatPunct (by decide)).bind
  intro _
  apply Agrees.ite
  · exact agrees_pure none
  · exact (classMember_agrees phrases).bind fun member => agrees_pure (some member)

private theorem classBody_agrees : Agrees (classBody quick) (classBody slow) := by
  apply agrees_here.bind
  intro start
  apply (agrees_expectPunct (by decide)).bind
  intro _
  apply (agrees_many (agrees_eatPunct (by decide)) (classItem_agrees phrases)).bind
  intro items
  exact agrees_node "ClassBody" start none [.list "body" (items.filterMap id)]

private theorem classDeclaration_agrees (other : ¬ cursor.MeetsArrow) :
    AgreesAt Cursor.MeetsArrow (classDeclaration quick) (classDeclaration slow) cursor := by
  apply agreesAt_opened other
  intro start
  apply bindingName_agrees.bind
  intro id
  apply (agrees_eatWord "extends").bind
  intro _
  apply Agrees.optional (chain_agrees phrases)
  intro superClass
  apply (classBody_agrees phrases).bind
  intro body
  exact agrees_node "ClassDeclaration" start none
    [.single "id" id, .single "superClass" superClass, .single "body" body]

private theorem expressionStatement_agrees :
    Agrees (expressionStatement quick) (expressionStatement slow) := by
  apply agrees_here.bind
  intro start
  apply (expression_agrees phrases).bind
  intro inner
  apply agrees_semicolon.bind
  intro _
  exact agrees_node "ExpressionStatement" start none [.single "expression" inner]

/-- Statements are read alike. -/
theorem statement_agrees : Agrees (statement quick) (statement slow) := by
  intro cursor
  apply agreesAt_look
  apply agreesAt_look
  split <;> rename_i next
  · exact agreesAt_failExpected _
  · exact block_agrees phrases cursor
  · exact constant_agrees (Cursor.not_meetsArrow next (by simp)) "EmptyStatement"
  · exact function_agrees phrases (Cursor.not_meetsArrow next (by simp)) "FunctionDeclaration" true
  · exact classDeclaration_agrees phrases (Cursor.not_meetsArrow next (by simp))
  · exact variableDeclaration_agrees phrases cursor
  · exact variableDeclaration_agrees phrases cursor
  · apply agreesAt_get
    apply AgreesAt.ite
    · exact fun _ => variableDeclaration_agrees phrases cursor
    · exact fun _ => expressionStatement_agrees phrases cursor
  · exact ifStatement_agrees phrases (Cursor.not_meetsArrow next (by simp))
  · exact forStatement_agrees phrases (Cursor.not_meetsArrow next (by simp))
  · exact whileStatement_agrees phrases (Cursor.not_meetsArrow next (by simp))
  · exact doWhileStatement_agrees phrases (Cursor.not_meetsArrow next (by simp))
  · exact returnStatement_agrees phrases (Cursor.not_meetsArrow next (by simp))
  · exact throwStatement_agrees phrases (Cursor.not_meetsArrow next (by simp))
  · exact jumpStatement_agrees (Cursor.not_meetsArrow next (by simp)) "BreakStatement"
  · exact jumpStatement_agrees (Cursor.not_meetsArrow next (by simp)) "ContinueStatement"
  · exact tryStatement_agrees phrases (Cursor.not_meetsArrow next (by simp))
  · exact switchStatement_agrees phrases (Cursor.not_meetsArrow next (by simp))
  · exact agreesAt_failAt _ _
  · exact agreesAt_failAt _ _
  · exact expressionStatement_agrees phrases cursor

end Productions

end SyntaxNav.Script

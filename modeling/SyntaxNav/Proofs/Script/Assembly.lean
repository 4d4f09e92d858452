import SyntaxNav.Proofs.Script.Coverage

/-! # What readers are put together from

The readers of the grammar do few things by themselves: they look at the cursor, go past a token, fail at the
next one, and read one level deeper. `Assembled` says that a reader is put together from these by sequence.
Every production is, if the phrases inside it are. What the few steps have in common is then common to all
readers: it is proved by induction over `Assembled`, with one case for each step. So every reader stays behind
the tokens that it took, and if it fails, the error is at the next token.
-/

namespace SyntaxNav.Script

/-- Readers that are put together from looking at the cursor, going past a token, failing at the next one
and reading one level deeper. -/
inductive Assembled : {α : Type} → Reader α → Prop
  | pure {α : Type} (value : α) : Assembled (Pure.pure value : Reader α)
  | bind {α β : Type} {first : Reader α} {next : α → Reader β} :
      Assembled first → (∀ value, Assembled (next value)) → Assembled (first >>= next)
  | get : Assembled (MonadState.get : Reader Cursor)
  | advance : Assembled Script.advance
  | fail {α : Type} (fault : Fault) : Assembled (Script.fail fault : Reader α)
  | nested {α : Type} {reader : Reader α} : Assembled reader → Assembled (Script.nested reader)

/-- At a cursor, a reader does what an assembled reader does. -/
def AssembledAt {α : Type} (reader : Reader α) (cursor : Cursor) : Prop :=
  ∃ assembled, Assembled assembled ∧ reader cursor = assembled cursor

private theorem AssembledAt.behind_peek {α : Type} {next : Option TokenKind → Reader α} {cursor : Cursor}
    (rest : AssembledAt (next cursor.next?) cursor) : AssembledAt (peek >>= next) cursor :=
  rest

namespace Assembled

variable {α β γ : Type}

section Primitives

private theorem ite {test : Prop} [Decidable test] {first second : Reader α} (yes : Assembled first)
    (no : Assembled second) : Assembled (if test then first else second) := by
  split
  · exact yes
  · exact no

/-- A choice between two readers before a common rest. -/
theorem join {test : Prop} [Decidable test] {first second : Reader α} {next : α → Reader β}
    (yes : Assembled first) (no : Assembled second) (rest : ∀ value, Assembled (next value)) :
    Assembled (if test then first >>= next else second >>= next) :=
  .ite (.bind yes rest) (.bind no rest)

/-- A reader whose value is wrapped before the rest. -/
theorem wrap {first : Reader α} {wrapped : α → β} {next : β → Reader γ} (start : Assembled first)
    (rest : ∀ value, Assembled (next value)) :
    Assembled (first >>= fun value => Pure.pure (wrapped value) >>= next) :=
  .bind start fun _ => .bind (.pure _) rest

/-- A part that may be absent, before the rest. -/
theorem optional {test : Prop} [Decidable test] {part : Reader α} {next : Option α → Reader β}
    (present : Assembled part) (rest : ∀ value, Assembled (next value)) :
    Assembled (if test then part >>= fun value => Pure.pure (some value) >>= next
      else Pure.pure none >>= next) :=
  .ite (.wrap present rest) (.bind (.pure none) rest)

/-- Changing the result of an assembled reader keeps it assembled. -/
theorem map {change : α → β} {reader : Reader α} (inner : Assembled reader) :
    Assembled (do return change (← reader)) :=
  .bind inner fun _ => .pure _

private theorem look {see : Cursor → α} : Assembled (do return see (← MonadState.get)) :=
  .map .get

private theorem at_cursor {reader : Reader α} (assembled : Assembled reader) (cursor : Cursor) :
    AssembledAt reader cursor :=
  ⟨reader, assembled, rfl⟩

/-- What a reader does behind a look at the cursor matters only at that cursor. -/
theorem sees {next : Cursor → Reader α} (each : ∀ cursor, AssembledAt (next cursor) cursor) :
    Assembled (MonadState.get >>= next) := by
  choose reader assembled same using each
  have whole : (MonadState.get >>= next) = (MonadState.get >>= reader : Reader α) := funext same
  rw [whole]
  exact .bind .get assembled

private theorem keeps_start {next : Pos → Reader α}
    (each : ∀ cursor, AssembledAt (next cursor.start) cursor) :
    Assembled (Script.here >>= next) :=
  sees each

/-- An error at a position that is the start of the next token is an error at the cursor. -/
theorem failAt {pos : Pos} {fault : Fault} {cursor : Cursor} (start : pos = cursor.start) :
    AssembledAt (Script.failAt pos fault : Reader α) cursor :=
  ⟨Script.fail fault, .fail fault, by rw [start]; rfl⟩

theorem here : Assembled Script.here := .look

theorem peek : Assembled Script.peek := .look

theorem atPunct {punct : String} : Assembled (Script.atPunct punct) := .look

theorem atWord {word : String} : Assembled (Script.atWord word) := .look

theorem atEnd : Assembled Script.atEnd := .look

/-- Making a node reads nothing. -/
theorem node {kind : String} {start : Pos} {text : Option String} {fields : List (Field Draft)} :
    Assembled (Script.node kind start text fields) :=
  .look

/-- What was expected is said at the cursor. -/
theorem failExpected {wanted : String} : Assembled (Script.failExpected wanted : Reader α) :=
  .bind .get fun _ => .fail _

theorem eatPunct {punct : String} : Assembled (Script.eatPunct punct) :=
  .bind .atPunct fun _ => .ite (.map .advance) (.pure false)

theorem eatWord {word : String} : Assembled (Script.eatWord word) :=
  .bind .atWord fun _ => .ite (.map .advance) (.pure false)

theorem expectPunct {punct : String} : Assembled (Script.expectPunct punct) :=
  .bind .eatPunct fun _ => .ite .failExpected (.pure ())

/-- The end of a statement is read from parts that look, go on or fail at the cursor. -/
theorem semicolon : Assembled Script.semicolon := by
  refine .bind .eatPunct fun _ => .ite (.pure ()) ?_
  refine .bind .atPunct fun _ => .ite (.pure ()) ?_
  refine .bind .get fun cursor => ?_
  split
  · exact .pure ()
  · exact .ite .failExpected (.pure ())

end Primitives

section Repetition

variable {stop : Reader Bool} {item : Reader α} {extend : α → Reader (Option α)}

private theorem manyUpTo (stops : Assembled stop) (items : Assembled item) (limit : Nat) :
    Assembled (Script.manyUpTo stop item limit) := by
  induction limit with
  | zero => exact .fail .stalled
  | succ limit ih => exact .bind stops fun _ => .ite (.pure []) (.bind items fun _ => .map ih)

private theorem many (stops : Assembled stop) (items : Assembled item) : Assembled (Script.many stop item) :=
  .bind .get fun _ => .manyUpTo stops items _

private theorem listUpTo {close : String} (items : Assembled item) (limit : Nat) :
    Assembled (Script.listUpTo close item limit) := by
  induction limit with
  | zero => exact .fail .stalled
  | succ limit ih =>
    refine .bind .eatPunct fun _ => .ite (.pure []) (.bind items fun _ => ?_)
    exact .bind .eatPunct fun _ => .ite (.map ih) (.map .expectPunct)

private theorem list {close : String} (items : Assembled item) : Assembled (Script.list close item) :=
  .bind .get fun _ => .listUpTo items _

private theorem commaSeparated (items : Assembled item) : Assembled (Script.commaSeparated item) :=
  .bind items fun _ => .map (.many (.map .eatPunct) items)

private theorem growUpTo (extension : ∀ value, Assembled (extend value)) (limit : Nat) (value : α) :
    Assembled (Script.growUpTo extend limit value) := by
  induction limit generalizing value with
  | zero => exact .fail .stalled
  | succ limit ih =>
    refine .bind (extension value) fun extended => ?_
    cases extended with
    | none => exact .pure value
    | some larger => exact ih larger

private theorem grow (extension : ∀ value, Assembled (extend value)) (value : α) :
    Assembled (Script.grow extend value) :=
  .bind .get fun _ => .growUpTo extension _ value

end Repetition

section Names

private theorem bindingName : Assembled Script.bindingName := by
  refine .sees fun cursor => ?_
  split
  · exact failExpected.at_cursor cursor
  · rename_i token rest ahead
    have start : token.span.start = cursor.start := by rw [Cursor.start, ahead]
    split
    · exact (ite .failExpected (.bind .advance fun _ => .pure _)).at_cursor cursor
    · exact failAt start
    · exact failAt start
    · exact failExpected.at_cursor cursor

private theorem propertyName : Assembled Script.propertyName := by
  refine .bind .get fun cursor => ?_
  split
  · exact .failExpected
  · split
    · exact .map .advance
    · exact .failExpected

private theorem functionName {needed : Bool} : Assembled (Script.functionName needed) := by
  refine .bind .peek fun next => ?_
  split
  · exact .map .bindingName
  · exact .ite (.map .bindingName) (.pure none)

/-- Expressions with commas between them are assembled from what reads one of them. -/
theorem sequence {item : Reader Draft} (items : Assembled item) : Assembled (Script.sequence item) := by
  refine .bind .here fun start => .bind (.commaSeparated items) fun drafts => ?_
  split
  · exact .pure _
  · exact .node

private theorem literal {kind : String} {token : Token} : Assembled (Script.literal kind token) :=
  .map .advance

private theorem constant {kind : String} : Assembled (Script.constant kind) :=
  .bind .here fun _ => .bind .advance fun _ => .node

private theorem namedMember {kind : String} {start : Pos} {object : Draft} :
    Assembled (Script.namedMember kind start object) :=
  .bind .propertyName fun _ => .node

private theorem optionalMember {start : Pos} {object : Draft} :
    Assembled (Script.optionalMember start object) :=
  .bind .atPunct fun _ => .bind .atPunct fun _ => .ite (.fail _) .namedMember

/-- The error about a label behind a jump is at the label. -/
theorem noLabel : Assembled Script.noLabel := by
  refine .sees fun cursor => ?_
  split
  · rename_i ahead
    exact failAt (by rw [Cursor.start, ahead])
  · exact (pure ()).at_cursor cursor

private theorem jumpStatement {kind : String} : Assembled (Script.jumpStatement kind) := by
  refine .bind .here fun start => .bind .advance fun _ => .bind .noLabel fun _ => ?_
  exact .bind .semicolon fun _ => .node

theorem atCaseEnd : Assembled Script.atCaseEnd :=
  .bind .atWord fun _ => .bind .atWord fun _ => .map .atPunct

end Names

section Productions

variable {read : PhraseReader} (phrases : ∀ phrase, Assembled (read phrase))

include phrases

private theorem expression : Assembled (Script.expression read) := .sequence (phrases .assignment)

private theorem parenthesized : Assembled (Script.parenthesized read) :=
  .bind .expectPunct fun _ => .bind (.expression phrases) fun _ => .map .expectPunct

private theorem propertyKey : Assembled (Script.propertyKey read) := by
  refine .bind .get fun cursor => ?_
  split
  · exact .failExpected
  · split
    · exact .map .advance
    · exact .map .advance
    · exact .map .advance
    · exact .bind .advance fun _ => .bind (phrases .assignment) fun _ => .map .expectPunct
    · exact .failExpected

private theorem statementInBraces : Assembled (Script.statementInBraces read) :=
  .bind .atEnd fun _ => .ite .failExpected (phrases .statement)

private theorem block : Assembled (Script.block read) := by
  refine .bind .here fun start => .bind .expectPunct fun _ => ?_
  exact .bind (.many .eatPunct (.statementInBraces phrases)) fun _ => .node

theorem param : Assembled (Script.param read) := by
  refine .bind .here fun start => .bind .eatPunct fun _ => .ite ?_ ?_
  · exact .bind .bindingName fun _ => .node
  · refine .bind .bindingName fun left => .bind .eatPunct fun _ => .ite ?_ (.pure left)
    exact .bind (phrases .assignment) fun _ => .node

private theorem params : Assembled (Script.params read) :=
  .bind .expectPunct fun _ => .list (.param phrases)

private theorem function {kind : String} {needsName : Bool} :
    Assembled (Script.function read kind needsName) := by
  have rest (start : Pos) : Assembled (do
      let id ← Script.functionName needsName
      let parameters ← Script.params read
      let body ← Script.block read
      Script.node kind start none
        [.single "id" id, .list "params" parameters, .single "body" body]) :=
    .bind .functionName fun _ => .bind (.params phrases) fun _ => .bind (.block phrases) fun _ => .node
  refine .bind .here fun start => .bind .advance fun _ => .bind .atPunct fun _ => ?_
  exact .ite (.bind (.fail _) fun _ => rest start) (rest start)

private theorem method {kind : String} {start : Pos} {text : Option String} {key : Draft} :
    Assembled (Script.method read kind start text key) :=
  .bind (.params phrases) fun _ => .bind (.block phrases) fun _ => .node

theorem argument : Assembled (Script.argument read) := by
  refine .bind .here fun start => .bind .eatPunct fun _ => .ite ?_ (phrases .assignment)
  exact .bind (phrases .assignment) fun _ => .node

private theorem objectProperty {start : Pos} {keyToken : Option Token} {key : Draft} :
    Assembled (Script.objectProperty read start keyToken key) := by
  refine .bind .atPunct fun _ => .ite (.method phrases) (.bind .eatPunct fun _ => .ite ?_ ?_)
  · exact .bind (phrases .assignment) fun _ => .node
  · split
    · split
      · exact .ite .failExpected .node
      · exact .failExpected
    · exact .failExpected

theorem objectMember : Assembled (Script.objectMember read) := by
  refine .bind .here fun start => .bind .eatPunct fun _ => .ite ?_ ?_
  · exact .bind (phrases .assignment) fun _ => .node
  · exact .bind .get fun _ => .bind (.propertyKey phrases) fun _ => .objectProperty phrases

private theorem array : Assembled (Script.array read) := by
  refine .bind .here fun start => .bind .advance fun _ => ?_
  exact .bind (.list (.argument phrases)) fun _ => .node

private theorem object : Assembled (Script.object read) := by
  refine .bind .here fun start => .bind .advance fun _ => ?_
  exact .bind (.list (.objectMember phrases)) fun _ => .node

/-- A wrong token in place of an expression is reported where it stands. -/
theorem primary : Assembled (Script.primary read) := by
  refine .bind .get fun cursor => ?_
  split
  · exact .failExpected
  · split
    · exact .literal
    · exact .literal
    · exact .literal
    · exact .literal
    · exact .constant
    · exact .constant
    · exact .function phrases
    · exact .ite .failExpected .literal
    · exact .parenthesized phrases
    · exact .array phrases
    · exact .object phrases
    · exact .failExpected

private theorem computedMember {start : Pos} {object : Draft} :
    Assembled (Script.computedMember read start object) :=
  .bind (.expression phrases) fun _ => .bind .expectPunct fun _ => .node

private theorem memberOrCall {start : Pos} (inner : Draft) :
    Assembled (Script.memberOrCall read start inner) := by
  refine .bind .eatPunct fun _ => .ite (.map .namedMember) ?_
  refine .bind .eatPunct fun _ => .ite (.map .optionalMember) ?_
  refine .bind .eatPunct fun _ => .ite (.map (.computedMember phrases)) ?_
  refine .bind .eatPunct fun _ => .ite ?_ (.pure none)
  exact .bind (.list (.argument phrases)) fun _ => .map .node

/-- Members and calls are assembled around a primary expression. -/
theorem chain : Assembled (Script.chain read) := by
  refine .bind .here fun start => .bind .atWord fun _ => ?_
  exact .join (phrases .construction) (.primary phrases) (.grow (.memberOrCall phrases))

private theorem constructedMember {start : Pos} (inner : Draft) :
    Assembled (Script.constructedMember read start inner) := by
  refine .bind .eatPunct fun _ => .ite (.map .namedMember) ?_
  exact .bind .eatPunct fun _ => .ite (.map (.computedMember phrases)) (.pure none)

/-- What is constructed, with its arguments, is assembled like a chain. -/
theorem construction : Assembled (Script.construction read) := by
  refine .bind .here fun start => .bind .advance fun _ => .bind .atWord fun _ => ?_
  refine .join (.nested (phrases .construction)) (.primary phrases) fun inner => ?_
  refine .bind (.grow (.constructedMember phrases) inner) fun _ => .bind .eatPunct fun _ => ?_
  exact .join (.list (.argument phrases)) (.pure []) fun _ => .node

private theorem postfixed : Assembled (Script.postfixed read) := by
  refine .bind .here fun start => .bind (.chain phrases) fun inner => .bind .get fun cursor => ?_
  split
  · exact .pure inner
  · exact .bind .advance fun _ => .node

/-- An operand with operators in front is assembled from itself. -/
theorem unary : Assembled (Script.unary read) := by
  refine .bind .here fun start => .bind .peek fun next => ?_
  split
  · exact .postfixed phrases
  · exact .bind .advance fun _ => .bind (phrases .unary) fun _ => .node

private theorem operation {start : Pos} {least : Nat} {allowIn : Bool} (left : Draft) :
    Assembled (Script.operation read start least allowIn left) := by
  refine .bind .peek fun next => ?_
  split
  · exact .pure none
  · refine .ite (.pure none) (.bind .advance fun _ => ?_)
    exact .bind (phrases _) fun _ => .map .node

private theorem binary {least : Nat} {allowIn : Bool} : Assembled (Script.binary read least allowIn) :=
  .bind .here fun _ => .bind (phrases .unary) (.grow (.operation phrases))

/-- A conditional expression is assembled from its three parts. -/
theorem conditional : Assembled (Script.conditional read) := by
  refine .bind .here fun start => .bind (phrases (.binary 1 true)) fun test => ?_
  refine .bind .eatPunct fun _ => .ite ?_ (.pure test)
  refine .bind (phrases .assignment) fun _ => .bind .expectPunct fun _ => ?_
  exact .bind (phrases .assignment) fun _ => .node

private theorem assignmentTo {start : Pos} {left : Draft} :
    Assembled (Script.assignmentTo read start left) := by
  refine .bind .peek fun next => ?_
  split
  · exact .pure left
  · exact .bind .advance fun _ => .bind (phrases .assignment) fun _ => .node

/-- An arrow function is assembled from its parameters and its body. -/
theorem arrow : Assembled (Script.arrow read) := by
  have rest (start : Pos) (parameters : List Draft) : Assembled (do
      Script.expectPunct "=>"
      let body ← if ← Script.atPunct "\x7b" then Script.block read else read .assignment
      Script.node "ArrowFunctionExpression" start none
        [.list "params" parameters, .single "body" body]) :=
    .bind .expectPunct fun _ => .bind .atPunct fun _ =>
      .join (.block phrases) (phrases .assignment) fun _ => .node
  refine .bind .here fun start => .bind .atPunct fun _ => ?_
  exact .ite (.bind (.params phrases) (rest start)) (.wrap .bindingName (rest start))

private theorem assignmentOrConditional : Assembled (Script.assignmentOrConditional read) :=
  .bind .here fun _ => .bind (.conditional phrases) fun _ => .assignmentTo phrases

theorem assignment : Assembled (Script.assignment read) :=
  .bind .get fun _ => .ite (.arrow phrases) (.assignmentOrConditional phrases)

private theorem headExpression : Assembled (Script.headExpression read) :=
  .sequence (.bind .here fun _ => .bind (phrases (.binary 1 false)) fun _ => .assignmentTo phrases)

private theorem declarator : Assembled (Script.declarator read) := by
  refine .bind .here fun start => .bind .bindingName fun id => .bind .eatPunct fun _ => ?_
  exact .optional (phrases .assignment) fun _ => .node

private theorem declarators : Assembled (Script.declarators read) := by
  refine .bind .peek fun next => ?_
  split
  · exact .bind .advance fun _ => .map (.commaSeparated (.declarator phrases))
  · exact .bind .advance fun _ => .failExpected

private theorem variableDeclaration : Assembled (Script.variableDeclaration read) :=
  .bind .here fun _ => .bind (.declarators phrases) fun _ => .bind .semicolon fun _ => .node

private theorem ifStatement : Assembled (Script.ifStatement read) := by
  refine .bind .here fun start => .bind .advance fun _ => .bind (.parenthesized phrases) fun test => ?_
  refine .bind (phrases .statement) fun consequent => .bind .eatWord fun _ => ?_
  exact .optional (phrases .statement) fun _ => .node

private theorem loopInit : Assembled (Script.loopInit read) := by
  refine .bind .atPunct fun _ => .ite (.pure none) ?_
  refine .bind .atWord fun _ => .bind .atWord fun _ => .bind .atWord fun _ => .ite ?_ ?_
  · exact .bind .here fun _ => .bind (.declarators phrases) fun _ => .map .node
  · exact .map (.headExpression phrases)

private theorem expressionUnless {punct : String} : Assembled (Script.expressionUnless read punct) :=
  .bind .atPunct fun _ => .ite (.pure none) (.map (.expression phrases))

private theorem forStatement : Assembled (Script.forStatement read) := by
  have rest (start : Pos) (init : Option Draft) : Assembled (do
      Script.expectPunct ";"
      let test ← Script.expressionUnless read ";"
      Script.expectPunct ";"
      let update ← Script.expressionUnless read ")"
      Script.expectPunct ")"
      let body ← read .statement
      Script.node "ForStatement" start none [.single "init" init, .single "test" test,
        .single "update" update, .single "body" body]) := by
    refine .bind .expectPunct fun _ => .bind (.expressionUnless phrases) fun _ => ?_
    refine .bind .expectPunct fun _ => .bind (.expressionUnless phrases) fun _ => ?_
    exact .bind .expectPunct fun _ => .bind (phrases .statement) fun _ => .node
  refine .bind .here fun start => .bind .advance fun _ => .bind .expectPunct fun _ => ?_
  refine .bind (.loopInit phrases) fun init => .bind .atWord fun _ => .bind .atWord fun _ => ?_
  exact .ite (.bind (.fail _) fun _ => rest start init) (rest start init)

private theorem whileStatement : Assembled (Script.whileStatement read) := by
  refine .bind .here fun start => .bind .advance fun _ => .bind (.parenthesized phrases) fun test => ?_
  exact .bind (phrases .statement) fun _ => .node

private theorem doWhileStatement : Assembled (Script.doWhileStatement read) := by
  have rest (start : Pos) (body : Draft) : Assembled (do
      let test ← Script.parenthesized read
      discard (Script.eatPunct ";")
      Script.node "DoWhileStatement" start none [.single "test" test, .single "body" body]) :=
    .bind (.parenthesized phrases) fun _ => .bind (.map .eatPunct) fun _ => .node
  refine .bind .here fun start => .bind .advance fun _ => .bind (phrases .statement) fun body => ?_
  refine .bind .eatWord fun _ => ?_
  exact .ite (.bind .failExpected fun _ => rest start body) (rest start body)

private theorem returnedValue : Assembled (Script.returnedValue read) := by
  refine .bind .get fun cursor => ?_
  split
  · exact .pure none
  · exact .ite (.pure none) (.map (.expression phrases))

private theorem returnStatement : Assembled (Script.returnStatement read) := by
  refine .bind .here fun start => .bind .advance fun _ => ?_
  exact .bind (.returnedValue phrases) fun _ => .bind .semicolon fun _ => .node

private theorem throwStatement : Assembled (Script.throwStatement read) := by
  refine .bind .here fun start => .bind .advance fun _ => ?_
  exact .bind (.expression phrases) fun _ => .bind .semicolon fun _ => .node

private theorem handler : Assembled (Script.handler read) := by
  have rest (start : Pos) (param : Option Draft) : Assembled (do
      let body ← Script.block read
      return some (← Script.node "CatchClause" start none
        [.single "param" param, .single "body" body])) :=
    .bind (.block phrases) fun _ => .map .node
  refine .bind .here fun start => .bind .eatWord fun _ => .ite ?_ (.pure none)
  refine .bind .eatPunct fun _ => .ite ?_ (.bind (.pure none) (rest start))
  exact .bind .bindingName fun _ => .wrap .expectPunct (rest start)

private theorem tryStatement : Assembled (Script.tryStatement read) := by
  refine .bind .here fun start => .bind .advance fun _ => .bind (.block phrases) fun body => ?_
  refine .bind (.handler phrases) fun handler => .bind .eatWord fun _ => ?_
  exact .optional (.block phrases) fun _ => .ite (.bind .failExpected fun _ => .node) .node

private theorem caseTest : Assembled (Script.caseTest read) := by
  refine .bind .eatWord fun _ => .ite (.map (.expression phrases)) ?_
  exact .bind .eatWord fun _ => .ite (.pure none) .failExpected

private theorem switchCase : Assembled (Script.switchCase read) := by
  refine .bind .here fun start => .bind (.caseTest phrases) fun test => .bind .expectPunct fun _ => ?_
  exact .bind (.many .atCaseEnd (.statementInBraces phrases)) fun _ => .node

private theorem switchStatement : Assembled (Script.switchStatement read) := by
  refine .bind .here fun start => .bind .advance fun _ => .bind (.parenthesized phrases) fun _ => ?_
  exact .bind .expectPunct fun _ => .bind (.many .eatPunct (.switchCase phrases)) fun _ => .node

/-- Members of classes are assembled from keys, parameters, bodies and values. -/
theorem classMember : Assembled (Script.classMember read) := by
  have rest (start : Pos) (text : Option String) : Assembled (do
      let key ← Script.propertyKey read
      if ← Script.atPunct "(" then
        Script.method read "ClassMethod" start text key
      else
        let value ← if ← Script.eatPunct "=" then Pure.pure (some (← read .assignment))
          else Pure.pure none
        Script.semicolon
        Script.node "ClassProperty" start text [.single "key" key, .single "value" value]) := by
    refine .bind (.propertyKey phrases) fun key => .bind .atPunct fun _ => .ite (.method phrases) ?_
    refine .bind .eatPunct fun _ => .optional (phrases .assignment) fun _ => ?_
    exact .bind .semicolon fun _ => .node
  refine .bind .here fun start => .bind .get fun cursor => ?_
  exact .ite (.bind .advance fun _ => rest start _) (rest start _)

private theorem classItem : Assembled (Script.classItem read) :=
  .bind .eatPunct fun _ => .ite (.pure none) (.map (.classMember phrases))

private theorem classBody : Assembled (Script.classBody read) := by
  refine .bind .here fun start => .bind .expectPunct fun _ => ?_
  exact .bind (.many .eatPunct (.classItem phrases)) fun _ => .node

private theorem classDeclaration : Assembled (Script.classDeclaration read) := by
  refine .bind .here fun start => .bind .advance fun _ => .bind .bindingName fun id => ?_
  refine .bind .eatWord fun _ => .optional (.chain phrases) fun superClass => ?_
  exact .bind (.classBody phrases) fun _ => .node

private theorem expressionStatement : Assembled (Script.expressionStatement read) := by
  refine .bind .here fun start => .bind (.expression phrases) fun inner => ?_
  exact .bind .semicolon fun _ => .node

/-- The start of a statement is kept, and its errors are thrown there. That is still the start of the next
token, since nothing is read in between. -/
theorem statement : Assembled (Script.statement read) := by
  refine .keeps_start fun cursor => .behind_peek ?_
  split
  · exact failExpected.at_cursor cursor
  · exact (block phrases).at_cursor cursor
  · exact constant.at_cursor cursor
  · exact (function phrases).at_cursor cursor
  · exact (classDeclaration phrases).at_cursor cursor
  · exact (variableDeclaration phrases).at_cursor cursor
  · exact (variableDeclaration phrases).at_cursor cursor
  · refine (bind .get fun _ => ?_).at_cursor cursor
    exact .ite (.variableDeclaration phrases) (.expressionStatement phrases)
  · exact (ifStatement phrases).at_cursor cursor
  · exact (forStatement phrases).at_cursor cursor
  · exact (whileStatement phrases).at_cursor cursor
  · exact (doWhileStatement phrases).at_cursor cursor
  · exact (returnStatement phrases).at_cursor cursor
  · exact (throwStatement phrases).at_cursor cursor
  · exact jumpStatement.at_cursor cursor
  · exact jumpStatement.at_cursor cursor
  · exact (tryStatement phrases).at_cursor cursor
  · exact (switchStatement phrases).at_cursor cursor
  · exact failAt rfl
  · exact failAt rfl
  · exact (expressionStatement phrases).at_cursor cursor

private theorem production (phrase : Phrase) : Assembled (phrase.production read) := by
  cases phrase with
  | statement => exact .nested (.statement phrases)
  | assignment => exact .assignment phrases
  | binary least allowIn => exact .binary phrases
  | unary => exact .nested (.unary phrases)
  | construction => exact .construction phrases

/-- A program is assembled from its statements. -/
theorem program : Assembled (Script.program read) :=
  .bind (.many .atEnd (phrases .statement)) fun _ => .look

end Productions

/-- However often the grammar is unrolled, all of its readers are assembled. -/
theorem readWithin (limit : Nat) (phrase : Phrase) : Assembled (Phrase.readWithin limit phrase) := by
  induction limit generalizing phrase with
  | zero => exact .fail .stalled
  | succ limit ih => exact .production ih phrase

end Assembled

variable {α β : Type}

/-- A reader leaves its cursor behind the tokens that it took, also if it fails. Then the error is at the next
token. -/
structure EndsInPlace (reader : Reader α) : Prop where
  ok : ∀ cursor value after, reader cursor = .ok value after → ∃ taken, cursor.Passes taken after
  error : ∀ cursor error after, reader cursor = .error error after →
    (∃ taken, cursor.Passes taken after) ∧ error.pos = after.start

namespace EndsInPlace

private theorem bind {first : Reader α} {next : α → Reader β} (start : EndsInPlace first)
    (rest : ∀ value, EndsInPlace (next value)) : EndsInPlace (first >>= next) := by
  constructor
  · intro cursor value after success
    change EStateM.bind first next cursor = _ at success
    unfold EStateM.bind at success
    split at success
    · rename_i middleValue middle read
      obtain ⟨taken, passes⟩ := start.ok _ _ _ read
      obtain ⟨more, further⟩ := (rest middleValue).ok _ _ _ success
      exact ⟨taken ++ more, passes.append further⟩
    · cases success
  · intro cursor error after failure
    change EStateM.bind first next cursor = _ at failure
    unfold EStateM.bind at failure
    split at failure
    · rename_i middleValue middle read
      obtain ⟨taken, passes⟩ := start.ok _ _ _ read
      obtain ⟨⟨more, further⟩, place⟩ := (rest middleValue).error _ _ _ failure
      exact ⟨⟨taken ++ more, passes.append further⟩, place⟩
    · rename_i failed
      cases failure
      exact start.error _ _ _ failed

/-- A reader that only looks takes nothing. -/
theorem of_stays {reader : Reader α} (stays : ∀ cursor, ∃ value, reader cursor = .ok value cursor) :
    EndsInPlace reader := by
  constructor
  · intro cursor value after success
    obtain ⟨_, same⟩ := stays cursor
    cases same.symm.trans success
    exact ⟨[], .refl cursor⟩
  · intro cursor error after failure
    obtain ⟨_, same⟩ := stays cursor
    cases same.symm.trans failure

private theorem fail (fault : Fault) : EndsInPlace (Script.fail fault : Reader α) := by
  constructor
  · intro cursor value after success
    cases success
  · intro cursor error after failure
    cases failure
    exact ⟨⟨[], .refl cursor⟩, rfl⟩

private theorem advance : EndsInPlace Script.advance := by
  constructor
  · intro cursor value after success
    obtain rfl : cursor.advance = after := by cases success; rfl
    cases ahead : cursor.rest with
    | nil =>
      have stays : cursor.advance = cursor := by rw [Cursor.advance, ahead]
      exact ⟨[], stays.symm ▸ .refl cursor⟩
    | cons token rest => exact ⟨[token], .advance ahead⟩
  · intro cursor error after failure
    cases failure

/-- What was taken one level deeper is taken here, since the depth is restored. -/
theorem passes_of_deeper {cursor after : Cursor} {taken : List Token}
    (passes : ({ cursor with depth := cursor.depth + 1 } : Cursor).Passes taken after) :
    cursor.Passes taken { after with depth := after.depth - 1 } where
  rest := passes.rest
  prevEnd := passes.prevEnd
  sourceEnd := passes.sourceEnd
  depth := by rw [passes.depth, Nat.add_sub_cancel]

/-- A reader one level deeper ends in place if the reader does. -/
theorem nested {reader : Reader α} (inner : EndsInPlace reader) : EndsInPlace (Script.nested reader) := by
  constructor
  · intro cursor value after success
    rw [nested_apply] at success
    split at success
    · cases success
    · split at success
      · rename_i read
        cases success
        obtain ⟨taken, passes⟩ := inner.ok _ _ _ read
        exact ⟨taken, passes_of_deeper passes⟩
      · cases success
  · intro cursor error after failure
    rw [nested_apply] at failure
    split at failure
    · cases failure
      exact ⟨⟨[], .refl cursor⟩, rfl⟩
    · split at failure
      · cases failure
      · rename_i failed
        cases failure
        obtain ⟨⟨taken, passes⟩, place⟩ := inner.error _ _ _ failed
        exact ⟨⟨taken, passes_of_deeper passes⟩, place⟩

end EndsInPlace

/-- An assembled reader that fails leaves its cursor where the error is. -/
theorem Assembled.endsInPlace {reader : Reader α} (assembled : Assembled reader) :
    EndsInPlace reader := by
  induction assembled with
  | pure value => exact .of_stays fun _ => ⟨value, rfl⟩
  | bind _ _ first rest => exact first.bind rest
  | get => exact .of_stays fun cursor => ⟨cursor, rfl⟩
  | advance => exact .advance
  | fail fault => exact .fail fault
  | nested _ inner => exact inner.nested

end SyntaxNav.Script

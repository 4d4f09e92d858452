import SyntaxNav.Proofs.Script.ExpressionLockstep

/-! # Statements in lockstep

In every lockstep each production of a statement keeps up, if the phrases inside it do. A statement may end
behind a semicolon that is the last token at the first cursor. What has to follow it in a phrase around it,
such as a closing brace or the test of a loop, cannot be read there, so nothing is lost.

The second grammar may be unrolled more often than the first (`readWithin_keepsUp`).
-/

namespace SyntaxNav.Script

open Lockstep

variable {steps : Lockstep}

section Productions

variable {read other : PhraseReader} (phrases : PhrasesKeepUp steps read other)

include phrases

private theorem declarator_keepsUp : steps.Reads (declarator read) (declarator other) := by
  refine entering_here.bind fun start => bindingName_keepsUp.bind fun id => ?_
  have rest (init : Option Draft) : steps.Continues
      (node "VariableDeclarator" start none [.single "id" id, .single "init" init])
      (node "VariableDeclarator" start none [.single "id" id, .single "init" init]) :=
    inside_node _ start none _
  refine (inside_eatPunct (by decide)).bind fun equals => .ite _ ?_ ((KeepsUp.pure none).bind rest)
  exact phrases.assignment.continues.bind fun init => (KeepsUp.pure (some init)).bind rest

private theorem declarators_keepUp : steps.Reads (declarators read) (declarators other) := by
  refine keeps_peek (fun _ _ => id) fun cursor twin entering => ?_
  split
  · rename_i word next
    refine (advance_at entering next nofun).bind fun _ => ?_
    exact (reads_commaSeparated (declarator_keepsUp phrases)).continues.bind fun declarations =>
      .pure (word, declarations)
  · intro _ _ _
    simp

private theorem variableDeclaration_keepsUp :
    steps.Ends (variableDeclaration read) (variableDeclaration other) := by
  refine entering_here.bind fun start => (declarators_keepUp phrases).bind fun (word, declarations) => ?_
  exact closes_semicolon.bind fun _ => leaving_node _ start _ _

private theorem ifStatement_keepsUp :
    KeepsUp steps.AtToken (fun _ => steps.Leaving) (ifStatement read) (ifStatement other) := by
  refine (keeps_here fun _ _ => And.left).bind fun start => advance_past.bind fun _ => ?_
  refine (parenthesized_keepsUp phrases).continues.bind fun test => ?_
  refine phrases.statement.closes.bind fun consequent => ?_
  refine leaving_eatElse.choose ?_ ?_
  · refine phrases.statement.closes.bind fun alternate => (KeepsUp.pure (some alternate)).bind fun _ => ?_
    exact leaving_node _ start none _
  · exact (KeepsUp.pure none).bind fun _ => leaving_node _ start none _

private theorem loopInit_keepsUp : steps.Continues (loopInit read) (loopInit other) := by
  refine (inside_atPunct ";").bind fun ends => .ite _ (.pure none) ?_
  refine (inside_atWord "var").bind fun isVar => (inside_atWord "let").bind fun isLet => ?_
  refine (inside_atWord "const").bind fun isConst => .ite _ ?_ ?_
  · refine inside_here.bind fun start => ?_
    refine (declarators_keepUp phrases).continues.bind fun (word, declarations) => ?_
    exact (inside_node _ start _ _).bind fun init => .pure (some init)
  · exact (headExpression_keepsUp phrases).continues.bind fun init => .pure (some init)

/-- Behind the last token, neither the punctuator nor an expression is found. -/
theorem expressionUnless_keepsUp (punct : String) : KeepsUp steps.Leaving (fun _ => steps.Inside)
    (expressionUnless read punct) (expressionUnless other punct) := by
  apply leaving_of_stuck
  · refine (inside_atPunct punct).bind fun stops => .ite _ (.pure none) ?_
    exact (expression_keepsUp phrases).continues.bind fun inner => .pure (some inner)
  · intro cursor nothing
    have unmet : cursor.atPunct punct = false := by
      rw [Cursor.atPunct, Cursor.next?, nothing]
      rfl
    rw [expressionUnless, ensures_bind, ensures_atPunct, unmet]
    exact (expression_stuck phrases).bind _ cursor (Cursor.barred_of_nil nothing)

private theorem forStatement_keepsUp :
    KeepsUp steps.AtToken (fun _ => steps.Leaving) (forStatement read) (forStatement other) := by
  refine (keeps_here fun _ _ => And.left).bind fun start => advance_past.bind fun _ => ?_
  refine (reads_expectPunct (by decide)).continues.bind fun _ => ?_
  refine (loopInit_keepsUp phrases).bind fun init => ?_
  refine (inside_atWord "of").bind fun isOf => (inside_atWord "in").bind fun isIn => ?_
  refine .ite _ (.fail _) ?_
  refine closes_expectSemicolon.bind fun _ => (expressionUnless_keepsUp phrases ";").bind fun test => ?_
  refine closes_expectSemicolon.bind fun _ => ?_
  refine (expressionUnless_keepsUp phrases ")").bind fun update => ?_
  refine (reads_expectPunct (by decide)).continues.bind fun _ => ?_
  exact phrases.statement.closes.bind fun body => leaving_node _ start none _

private theorem whileStatement_keepsUp :
    KeepsUp steps.AtToken (fun _ => steps.Leaving) (whileStatement read) (whileStatement other) := by
  refine (keeps_here fun _ _ => And.left).bind fun start => advance_past.bind fun _ => ?_
  refine (parenthesized_keepsUp phrases).continues.bind fun test => ?_
  exact phrases.statement.closes.bind fun body => leaving_node _ start none _

private theorem doWhileStatement_keepsUp :
    KeepsUp steps.AtToken (fun _ => steps.Leaving) (doWhileStatement read)
      (doWhileStatement other) := by
  refine (keeps_here fun _ _ => And.left).bind fun start => advance_past.bind fun _ => ?_
  refine phrases.statement.closes.bind fun body => leaving_of_stuck ?_ ?_
  · refine (inside_eatWord "while").bind fun again => .ite _ (.failExpected _) ?_
    refine (parenthesized_keepsUp phrases).continues.bind fun test => ?_
    refine KeepsUp.bind (closes_eatSemicolon.bind fun _ => .pure ()) fun _ => ?_
    exact leaving_node _ start none _
  · intro cursor nothing
    simp [Cursor.atWord, Cursor.next?, nothing]

private theorem returnedValue_keepsUp : steps.Continues (returnedValue read) (returnedValue other) := by
  refine .get fun cursor twin inside => ?_
  rcases token_cases inside with ⟨first, second⟩ | ⟨token, rest, others, first, second⟩
  · rw [first, second]
    exact (KeepsUp.pure none).restrict inside
  · rw [first, second]
    refine .ite _ ((KeepsUp.pure none).restrict inside) ?_
    exact ((expression_keepsUp phrases).continues.restrict inside).bind fun value => .pure (some value)

private theorem returnStatement_keepsUp :
    KeepsUp steps.AtToken (fun _ => steps.Leaving) (returnStatement read) (returnStatement other) := by
  refine (keeps_here fun _ _ => And.left).bind fun start => advance_past.bind fun _ => ?_
  refine (returnedValue_keepsUp phrases).bind fun value => ?_
  exact closes_semicolon.bind fun _ => leaving_node _ start none _

private theorem throwStatement_keepsUp :
    KeepsUp steps.AtToken (fun _ => steps.Leaving) (throwStatement read) (throwStatement other) := by
  refine (keeps_here fun _ _ => And.left).bind fun start => advance_past.bind fun _ => ?_
  refine (expression_keepsUp phrases).continues.bind fun value => ?_
  exact closes_semicolon.bind fun _ => leaving_node _ start none _

omit phrases in
private theorem atLabel_eq {cursor twin : Cursor} (inside : steps.Inside cursor twin) :
    twin.atLabel = cursor.atLabel := by
  unfold Cursor.atLabel
  rcases token_cases inside with ⟨first, second⟩ | ⟨token, rest, others, first, second⟩
  · rw [first, second]
  · rw [first, second]
    obtain ⟨kind, span, newlineBefore⟩ := token
    cases kind <;> rfl

omit phrases in
private theorem noLabel_keepsUp : steps.Continues noLabel noLabel := by
  rw [noLabel_eq]
  refine .get fun cursor twin inside => ?_
  rw [atLabel_eq inside]
  exact .ite _ (.fail _) ((KeepsUp.give fun _ _ => id).restrict inside)

omit phrases in
private theorem jumpStatement_keepsUp (kind : String) :
    KeepsUp steps.AtToken (fun _ => steps.Leaving) (jumpStatement kind) (jumpStatement kind) := by
  refine (keeps_here fun _ _ => And.left).bind fun start => advance_past.bind fun _ => ?_
  refine noLabel_keepsUp.bind fun _ => ?_
  exact closes_semicolon.bind fun _ => leaving_node kind start none _

private theorem handler_keepsUp : steps.Continues (handler read) (handler other) := by
  refine inside_here.bind fun start => (inside_eatWord "catch").bind fun catches => ?_
  refine .ite _ ?_ (.pure none)
  -- With and without a parameter, a block follows.
  have rest (param : Option Draft) : steps.Continues
      (do
        let body ← block read
        return some (← node "CatchClause" start none [.single "param" param, .single "body" body]))
      (do
        let body ← block other
        return some (← node "CatchClause" start none
          [.single "param" param, .single "body" body])) := by
    refine (block_keepsUp phrases).continues.bind fun body => ?_
    exact (inside_node _ start none _).bind fun clause => .pure (some clause)
  refine (inside_eatPunct (by decide)).bind fun opens => .ite _ ?_ ((KeepsUp.pure none).bind rest)
  refine bindingName_keepsUp.continues.bind fun name => ?_
  refine (reads_expectPunct (by decide)).continues.bind fun _ => ?_
  exact (KeepsUp.pure (some name)).bind rest

private theorem tryStatement_keepsUp :
    KeepsUp steps.AtToken (fun _ => steps.Inside) (tryStatement read) (tryStatement other) := by
  refine (keeps_here fun _ _ => And.left).bind fun start => advance_past.bind fun _ => ?_
  refine (block_keepsUp phrases).continues.bind fun body => ?_
  refine (handler_keepsUp phrases).bind fun handler => ?_
  refine (inside_eatWord "finally").bind fun last => .ite _ ?_ ?_
  · refine (block_keepsUp phrases).continues.bind fun finalizer => ?_
    refine (KeepsUp.pure (some finalizer)).bind fun _ => ?_
    exact .ite _ (.failExpected _) (inside_node _ start none _)
  · exact (KeepsUp.pure none).bind fun _ => .ite _ (.failExpected _) (inside_node _ start none _)

private theorem caseTest_keepsUp : steps.Continues (caseTest read) (caseTest other) := by
  refine (inside_eatWord "case").bind fun isCase => .ite _ ?_ ?_
  · exact (expression_keepsUp phrases).continues.bind fun test => .pure (some test)
  · exact (inside_eatWord "default").bind fun _ => .ite _ (.pure none) (.failExpected _)

omit phrases in
private theorem atCaseEnd_keepsUp : steps.Continues atCaseEnd atCaseEnd :=
  (inside_atWord "case").bind fun isCase => (inside_atWord "default").bind fun isDefault =>
    (inside_atPunct "\x7d").bind fun closes => .pure (isCase || isDefault || closes)

omit phrases in
private theorem atCaseEnd_goesOn {cursor : Cursor} (nothing : cursor.rest = []) :
    Ensures atCaseEnd cursor fun stopped after => stopped = false ∧ after = cursor := by
  simp [atCaseEnd, Cursor.atWord, Cursor.atPunct, Cursor.next?, nothing]

private theorem switchCase_keepsUp : steps.Continues (switchCase read) (switchCase other) := by
  refine inside_here.bind fun start => (caseTest_keepsUp phrases).bind fun test => ?_
  refine (reads_expectPunct (by decide)).continues.bind fun _ => ?_
  refine KeepsUp.bind ?_ fun consequent => inside_node _ start none _
  exact continues_statements atCaseEnd_keepsUp (statementInBraces_keepsUp phrases).closes
    (fun _ => atCaseEnd_goesOn) fun _ => statementInBraces_stuck

private theorem switchStatement_keepsUp :
    KeepsUp steps.AtToken (fun _ => steps.Inside) (switchStatement read) (switchStatement other) := by
  refine (keeps_here fun _ _ => And.left).bind fun start => advance_past.bind fun _ => ?_
  refine (parenthesized_keepsUp phrases).continues.bind fun discriminant => ?_
  refine (reads_expectPunct (by decide)).continues.bind fun _ => ?_
  refine (continues_many (inside_eatPunct (by decide)) (switchCase_keepsUp phrases)).bind fun cases => ?_
  exact inside_node _ start none _

omit phrases in
private theorem atStatic_eq {cursor twin : Cursor} (entering : steps.Entering cursor twin) :
    twin.atStatic = cursor.atStatic := by
  unfold Cursor.atStatic
  rw [atWord_eq entering]
  cases word : cursor.atWord "static" with
  | false => rfl
  | true =>
    have other : cursor.atPunct ";" = false := by
      rw [Cursor.atPunct, Cursor.atWord_iff.mp word]
      rfl
    rw [steps.second entering other]

private theorem classMember_keepsUp : steps.Closes (classMember read) (classMember other) := by
  refine inside_here.bind fun start => .get fun cursor twin inside => ?_
  rw [atStatic_eq (steps.entering_of_inside inside)]
  -- What follows differs only in the text of the node.
  have rest (text : Option String) : steps.Closes
      (do
        let key ← propertyKey read
        if ← atPunct "(" then
          method read "ClassMethod" start text key
        else
          let value ← if ← eatPunct "=" then pure (some (← read .assignment)) else pure none
          semicolon
          node "ClassProperty" start text [.single "key" key, .single "value" value])
      (do
        let key ← propertyKey other
        if ← atPunct "(" then
          method other "ClassMethod" start text key
        else
          let value ← if ← eatPunct "=" then pure (some (← other .assignment)) else pure none
          semicolon
          node "ClassProperty" start text [.single "key" key, .single "value" value]) := by
    refine (propertyKey_keepsUp phrases).continues.bind fun key => ?_
    refine (inside_atPunct "(").bind fun opens => .ite _ (method_keepsUp phrases _ start text key).closes ?_
    have ending (value : Option Draft) : steps.Closes
        (do
          semicolon
          node "ClassProperty" start text [.single "key" key, .single "value" value])
        (do
          semicolon
          node "ClassProperty" start text [.single "key" key, .single "value" value]) :=
      closes_semicolon.bind fun _ => leaving_node _ start text _
    refine (inside_eatPunct (by decide)).bind fun equals => .ite _ ?_ ((KeepsUp.pure none).bind ending)
    exact phrases.assignment.continues.bind fun value => (KeepsUp.pure (some value)).bind ending
  cases isStatic : cursor.atStatic with
  | true =>
    have next := Cursor.atWord_iff.mp (Bool.and_eq_true_iff.mp isStatic).1
    exact (advance_at (steps.entering_of_inside inside) next nofun).bind fun _ => rest (some "static")
  | false => exact (rest none).restrict inside

private theorem classItem_keepsUp : steps.Closes (classItem read) (classItem other) :=
  inside_eatSemicolon.choose (.pure none)
    ((classMember_keepsUp phrases).bind fun member => .pure (some member))

omit phrases in
private theorem classItem_stuck {cursor : Cursor} (nothing : cursor.rest = []) :
    Ensures (classItem read) cursor fun _ _ => False := by
  have notStatic : cursor.atStatic = false := by
    rw [Cursor.atStatic, Cursor.atWord, Cursor.next?, nothing]
    rfl
  simp [classItem, classMember, propertyKey, Cursor.atPunct, Cursor.next?, nothing, notStatic]

private theorem classBody_keepsUp : steps.Reads (classBody read) (classBody other) := by
  refine entering_here.bind fun start => (reads_expectPunct (by decide)).bind fun _ => ?_
  refine KeepsUp.bind ?_ fun items => inside_node _ start none _
  exact continues_statements (inside_eatPunct (by decide)) (classItem_keepsUp phrases)
    (fun _ nothing => eatPunct_goesOn nothing _) fun _ => classItem_stuck

private theorem classDeclaration_keepsUp :
    KeepsUp steps.AtToken (fun _ => steps.Inside) (classDeclaration read)
      (classDeclaration other) := by
  refine (keeps_here fun _ _ => And.left).bind fun start => advance_past.bind fun _ => ?_
  refine bindingName_keepsUp.continues.bind fun id => ?_
  have rest (superClass : Option Draft) : steps.Continues
      (do
        let body ← classBody read
        node "ClassDeclaration" start none
          [.single "id" id, .single "superClass" superClass, .single "body" body])
      (do
        let body ← classBody other
        node "ClassDeclaration" start none
          [.single "id" id, .single "superClass" superClass, .single "body" body]) :=
    (classBody_keepsUp phrases).continues.bind fun body => inside_node _ start none _
  refine (inside_eatWord "extends").bind fun inherits => .ite _ ?_ ((KeepsUp.pure none).bind rest)
  exact (chain_keepsUp phrases).continues.bind fun superClass =>
    (KeepsUp.pure (some superClass)).bind rest

private theorem expressionStatement_keepsUp :
    steps.Ends (expressionStatement read) (expressionStatement other) := by
  refine entering_here.bind fun start => (expression_keepsUp phrases).bind fun inner => ?_
  exact closes_semicolon.bind fun _ => leaving_node _ start none _

omit phrases in
/-- The empty statement ends behind its only token. -/
theorem emptyStatement_keepsUp_at {cursor twin : Cursor} (entering : steps.Entering cursor twin)
    (next : cursor.atPunct ";" = true) :
    KeepsUp (At cursor twin) (fun _ => steps.Leaving) emptyStatement emptyStatement := by
  have starts : KeepsUp (At cursor twin) (fun _ => At cursor twin) here here :=
    keeps_here fun _ _ ⟨first, second⟩ => first ▸ second ▸ entering
  exact starts.bind fun start =>
    (advance_semicolon_at entering next).bind fun _ => leaving_node "EmptyStatement" start none []

omit phrases in
private theorem atLetDeclaration_eq {cursor twin : Cursor} (entering : steps.Entering cursor twin)
    (other : cursor.atPunct ";" = false) : twin.atLetDeclaration = cursor.atLetDeclaration := by
  rw [Cursor.atLetDeclaration, Cursor.atLetDeclaration, steps.second entering other]

private theorem statement_keepsUp : steps.Ends (statement read) (statement other) := by
  refine (keeps_here fun _ _ => id).bind fun start => ?_
  refine keeps_peek (fun _ _ => id) fun cursor twin entering => ?_
  have past {word : String} (next : cursor.next? = some (.word word)) : steps.AtToken cursor twin :=
    ⟨entering, _, next, nofun⟩
  have inside {reader other : Reader Draft}
      (reads : KeepsUp steps.AtToken (fun _ => steps.Inside) reader other) :
      KeepsUp steps.AtToken (fun _ => steps.Leaving) reader other :=
    reads.mono (fun _ _ => id) fun _ _ _ => steps.leaving_of_inside
  split
  · exact .failExpected _
  · exact (block_keepsUp phrases).ends.restrict entering
  · exact emptyStatement_keepsUp_at entering (Cursor.atPunct_iff.mpr ‹_›)
  · exact (inside (function_keepsUp phrases "FunctionDeclaration" true)).restrict (past ‹_›)
  · exact (inside (classDeclaration_keepsUp phrases)).restrict (past ‹_›)
  · exact (variableDeclaration_keepsUp phrases).restrict entering
  · exact (variableDeclaration_keepsUp phrases).restrict entering
  · rename_i next
    have other : cursor.atPunct ";" = false := by
      rw [Cursor.atPunct, next]
      rfl
    refine KeepsUp.get fun _ _ related => ?_
    obtain ⟨rfl, rfl⟩ := related
    rw [atLetDeclaration_eq entering other]
    refine .ite _ ?_ ?_
    · exact (variableDeclaration_keepsUp phrases).restrict entering
    · exact (expressionStatement_keepsUp phrases).restrict entering
  · exact (ifStatement_keepsUp phrases).restrict (past ‹_›)
  · exact (forStatement_keepsUp phrases).restrict (past ‹_›)
  · exact (whileStatement_keepsUp phrases).restrict (past ‹_›)
  · exact (doWhileStatement_keepsUp phrases).restrict (past ‹_›)
  · exact (returnStatement_keepsUp phrases).restrict (past ‹_›)
  · exact (throwStatement_keepsUp phrases).restrict (past ‹_›)
  · exact (jumpStatement_keepsUp "BreakStatement").restrict (past ‹_›)
  · exact (jumpStatement_keepsUp "ContinueStatement").restrict (past ‹_›)
  · exact (inside (tryStatement_keepsUp phrases)).restrict (past ‹_›)
  · exact (inside (switchStatement_keepsUp phrases)).restrict (past ‹_›)
  · exact .failAt _ _
  · exact .failAt _ _
  · exact (expressionStatement_keepsUp phrases).restrict entering

end Productions

/-- The grammar keeps up with itself, and with itself unrolled less often. -/
theorem readWithin_keepsUp {limit more : Nat} (enough : limit ≤ more) :
    PhrasesKeepUp steps (Phrase.readWithin limit) (Phrase.readWithin more) := by
  induction limit generalizing more with
  | zero =>
    exact {
      covers := readWithin_covers 0
      stuck := readWithin_stuck 0
      statement := .fail _
      assignment := .fail _
      binary := fun _ _ => .fail _
      unary := .fail _
      construction := .fail _ }
  | succ limit ih =>
    obtain ⟨more, rfl⟩ : ∃ fewer, more = fewer + 1 := ⟨more - 1, by omega⟩
    have phrases : PhrasesKeepUp steps (Phrase.readWithin limit) (Phrase.readWithin more) :=
      ih (by omega)
    exact {
      covers := readWithin_covers (limit + 1)
      stuck := readWithin_stuck (limit + 1)
      statement := ends_nested (statement_keepsUp phrases)
      assignment := assignment_keepsUp phrases
      binary := binary_keepsUp phrases
      unary := reads_nested (unary_keepsUp phrases)
      construction := construction_keepsUp phrases }

end SyntaxNav.Script

import SyntaxNav.Proofs.Script.FormedExpressions

/-! # Statements and programs are well formed

Every production for statements gives drafts of the forms of its category, if the phrases inside it do.
By induction on how often the grammar is unrolled all phrases do, so all statements of a program are
well formed.
-/

namespace SyntaxNav.Script

variable {cursor : Cursor} {read : PhraseReader}

/-- A statement that is not open is well formed wherever it ends. -/
theorem EndsFormed.of_closed {draft : Draft} {after : Cursor} (formed : Formed .statement (flat draft))
    (closed : isOpen (flat draft) = false) : EndsFormed draft after := by
  refine ⟨formed, ?_⟩
  intro isOpen
  rw [closed] at isOpen
  cases isOpen

section Openness

variable (test consequent body : Draft) (init condition update : Option Draft)

@[simp] theorem isOpen_if : isOpen (tree "IfStatement" none
    [.single "test" test, .single "consequent" consequent, .single "alternate" none]) = true := rfl

@[simp] theorem isOpen_ifElse (alternate : Draft) : isOpen (tree "IfStatement" none
    [.single "test" test, .single "consequent" consequent, .single "alternate" (some alternate)]) =
      isOpen alternate := rfl

@[simp] theorem isOpen_while : isOpen (tree "WhileStatement" none
    [.single "test" test, .single "body" body]) = isOpen body := rfl

@[simp] theorem isOpen_for : isOpen (tree "ForStatement" none
    [.single "init" init, .single "test" condition, .single "update" update, .single "body" body]) =
      isOpen body := by
  cases init <;> cases condition <;> cases update <;> rfl

end Openness

section Declarations

private theorem declarator_forms (phrases : PhrasesForm read) :
    FormsAt .declarator (declarator read) cursor := by
  simp only [FormsAt, declarator, ensures_bind, ensures_here, ensures_eatPunct, ensures_ite,
    ensures_pure, ensures_node, Bool.false_eq_true, not_true_eq_false, not_false_eq_true,
    false_implies, true_and, and_true, forall_const, flat_branch, List.map, Field.map, Option.map_some,
    Option.map_none]
  refine bindingName_forms.mono fun id next formedId => ?_
  constructor
  · intro _
    refine (phrases.assignment _).mono fun init _ formedInit => ?_
    apply Formed.declarator formedId
    rintro _ ⟨⟩
    exact formedInit
  · intro _
    exact .declarator formedId formed_of_none

/-- What a declaring word and the names behind it make. -/
theorem declarators_form (phrases : PhrasesForm read) {word : String}
    (next : cursor.next? = some (.word word)) (declares : word = "var" ∨ word = "let" ∨ word = "const") :
    Ensures (declarators read) cursor fun declared _ =>
      Formed .declaration
        (tree "VariableDeclaration" declared.1 [.list "declarations" (declared.2.map flat)]) := by
  simp only [declarators, ensures_bind, ensures_peek, next, ensures_advance, ensures_pure]
  refine (commaSeparated_forms fun _ => declarator_forms phrases).mono ?_
  rintro _ after ⟨first, rest, rfl, formed⟩
  exact .declaration declares formed.flat_mem

private theorem variableDeclaration_forms (phrases : PhrasesForm read) {word : String}
    (next : cursor.next? = some (.word word)) (declares : word = "var" ∨ word = "let" ∨ word = "const") :
    Ensures (variableDeclaration read) cursor EndsFormed := by
  simp only [variableDeclaration, ensures_bind, ensures_here]
  refine (declarators_form phrases next declares).mono fun declared middle formed => ?_
  intro _ after _
  rw [ensures_node]
  apply EndsFormed.of_closed
  · rw [flat_branch]
    exact .ofDeclaration formed
  · rw [flat_branch]
    rfl

end Declarations

section ControlFlow

variable (phrases : PhrasesForm read)

include phrases

private theorem ifStatement_forms : Ensures (ifStatement read) cursor EndsFormed := by
  simp only [ifStatement, ensures_bind, ensures_here, ensures_advance, ensures_eatWord, ensures_ite,
    ensures_pure, ensures_node, Bool.false_eq_true, not_true_eq_false, not_false_eq_true,
    false_implies, true_and, and_true, forall_const]
  refine (parenthesized_forms phrases).mono fun test middle formedTest => ?_
  refine (phrases.statement _).mono fun consequent next endsConsequent => ?_
  constructor
  · intro atElse
    -- An open consequent would have taken the word `else` that is next.
    have closed : isOpen (flat consequent) = false := by
      cases openness : isOpen (flat consequent) with
      | false => rfl
      | true =>
        have noElse := endsConsequent.followed openness
        rw [atElse] at noElse
        cases noElse
    refine (phrases.statement _).mono fun alternate after endsAlternate => ?_
    constructor
    · simp only [flat_branch, List.map, Field.map, Option.map_some]
      apply Formed.ifStatement formedTest endsConsequent.formed
      · rintro _ ⟨⟩
        exact endsAlternate.formed
      · exact fun _ => closed
    · simp only [flat_branch, List.map, Field.map, Option.map_some, isOpen_ifElse]
      exact endsAlternate.followed
  · intro noElse
    constructor
    · simp only [flat_branch, List.map, Field.map, Option.map_some, Option.map_none]
      apply Formed.ifStatement formedTest endsConsequent.formed formed_of_none
      rintro ⟨⟩
    · exact fun _ => noElse

private theorem loopInit_forms :
    Ensures (loopInit read) cursor fun init _ => ∃ category : Category,
      (category = .declaration ∨ category = .expression) ∧
        ∀ draft ∈ init.map flat, Formed category draft := by
  simp only [loopInit, ensures_bind, ensures_atPunct, ensures_ite, ensures_pure, ensures_atWord,
    ensures_here]
  constructor
  · exact fun _ => ⟨.expression, .inr rfl, formed_of_none⟩
  intro _
  constructor
  · intro declares
    obtain ⟨word, next, declaring⟩ : ∃ word, cursor.next? = some (.word word) ∧
        (word = "var" ∨ word = "let" ∨ word = "const") := by
      simp only [Bool.or_eq_true, Cursor.atWord_iff] at declares
      rcases declares with (next | next) | next
      · exact ⟨_, next, .inl rfl⟩
      · exact ⟨_, next, .inr (.inl rfl)⟩
      · exact ⟨_, next, .inr (.inr rfl)⟩
    refine (declarators_form phrases next declaring).mono fun declared after formed => ?_
    simp only [ensures_node, Option.map_some, flat_branch, List.map, Field.map]
    refine ⟨.declaration, .inl rfl, ?_⟩
    rintro _ ⟨⟩
    exact formed
  · intro _
    refine (headExpression_forms phrases).mono fun init after formed => ?_
    refine ⟨.expression, .inr rfl, ?_⟩
    rintro _ ⟨⟩
    exact formed

private theorem expressionUnless_forms (punct : String) :
    Ensures (expressionUnless read punct) cursor fun value _ =>
      ∀ draft ∈ value.map flat, Formed .expression draft := by
  simp only [expressionUnless, ensures_bind, ensures_atPunct, ensures_ite, ensures_pure]
  constructor
  · exact fun _ => formed_of_none
  · intro _
    refine (expression_forms phrases).mono fun value after formed => ?_
    rintro _ ⟨⟩
    exact formed

private theorem forStatement_forms : Ensures (forStatement read) cursor EndsFormed := by
  simp only [forStatement, ensures_bind, ensures_here, ensures_advance, ensures_expectPunct,
    ensures_atWord, ensures_ite, ensures_fail, ensures_node, implies_true, true_and]
  intro _
  refine (loopInit_forms phrases).mono ?_
  rintro init first ⟨category, known, formedInit⟩ _ _
  refine (expressionUnless_forms phrases ";").mono fun test second formedTest _ => ?_
  refine (expressionUnless_forms phrases ")").mono fun update last formedUpdate _ => ?_
  refine (phrases.statement _).mono fun body after endsBody => ?_
  constructor
  · simp only [flat_branch, List.map, Field.map, Option.map_some]
    exact .forStatement known formedInit formedTest formedUpdate endsBody.formed
  · simp only [flat_branch, List.map, Field.map, Option.map_some, isOpen_for]
    exact endsBody.followed

private theorem whileStatement_forms : Ensures (whileStatement read) cursor EndsFormed := by
  simp only [whileStatement, ensures_bind, ensures_here, ensures_advance, ensures_node]
  refine (parenthesized_forms phrases).mono fun test middle formedTest => ?_
  refine (phrases.statement _).mono fun body after endsBody => ?_
  constructor
  · simp only [flat_branch, List.map, Field.map, Option.map_some]
    exact .whileStatement formedTest endsBody.formed
  · simp only [flat_branch, List.map, Field.map, Option.map_some, isOpen_while]
    exact endsBody.followed

private theorem doWhileStatement_forms : Ensures (doWhileStatement read) cursor EndsFormed := by
  simp only [doWhileStatement, ensures_bind, ensures_here, ensures_advance, ensures_eatWord,
    ensures_ite, ensures_failExpected, ensures_discard, ensures_eatPunct, ensures_node, Bool.not_true,
    Bool.not_false, Bool.false_eq_true, not_true_eq_false, not_false_eq_true, false_implies,
    implies_true, true_and, and_true, forall_const]
  refine (phrases.statement _).mono fun body middle endsBody _ => ?_
  refine (parenthesized_forms phrases).mono fun test last formedTest => ?_
  have formed : Formed .statement (tree "DoWhileStatement" none
      [.single "test" (some (flat test)), .single "body" (some (flat body))]) :=
    .doWhileStatement formedTest endsBody.formed
  constructor
  · exact fun _ => .of_closed (by rw [flat_branch]; exact formed) (by rw [flat_branch]; rfl)
  · exact fun _ => .of_closed (by rw [flat_branch]; exact formed) (by rw [flat_branch]; rfl)

end ControlFlow

section Jumps

variable (phrases : PhrasesForm read)

private theorem jumpStatement_forms {kind : String} (formed : Formed .statement (tree kind none []))
    (closed : isOpen (tree kind none []) = false) :
    Ensures (jumpStatement kind) cursor EndsFormed := by
  simp only [jumpStatement, ensures_bind, ensures_here, ensures_advance, ensures_noLabel, ensures_node]
  intro _ _ after _
  apply EndsFormed.of_closed
  · rw [flat_branch]
    exact formed
  · rw [flat_branch]
    exact closed

include phrases

private theorem returnedValue_forms :
    Ensures (returnedValue read) cursor fun value _ =>
      ∀ draft ∈ value.map flat, Formed .expression draft := by
  simp only [returnedValue, ensures_bind, ensures_get]
  split
  · exact (ensures_pure _).mpr formed_of_none
  · simp only [ensures_ite, ensures_bind, ensures_pure]
    constructor
    · exact fun _ => formed_of_none
    · intro _
      refine (expression_forms phrases).mono fun value after formed => ?_
      rintro _ ⟨⟩
      exact formed

private theorem returnStatement_forms : Ensures (returnStatement read) cursor EndsFormed := by
  simp only [returnStatement, ensures_bind, ensures_here, ensures_advance, ensures_node]
  refine (returnedValue_forms phrases).mono fun value middle formed => ?_
  intro _ after _
  apply EndsFormed.of_closed
  · rw [flat_branch]
    exact .returnStatement formed
  · rw [flat_branch]
    rfl

private theorem throwStatement_forms : Ensures (throwStatement read) cursor EndsFormed := by
  simp only [throwStatement, ensures_bind, ensures_here, ensures_advance, ensures_node]
  refine (expression_forms phrases).mono fun value middle formed => ?_
  intro _ after _
  apply EndsFormed.of_closed
  · rw [flat_branch]
    exact .throwStatement formed
  · rw [flat_branch]
    rfl

private theorem handler_forms :
    Ensures (handler read) cursor fun clause _ =>
      ∀ draft ∈ clause.map flat, Formed .handler draft := by
  simp only [handler, ensures_bind, ensures_here, ensures_eatWord, ensures_ite, ensures_eatPunct,
    ensures_expectPunct, ensures_pure, ensures_node, Bool.false_eq_true, not_true_eq_false,
    not_false_eq_true, false_implies, true_and, and_true, forall_const, Option.map_some, Option.map_none,
    flat_branch, List.map, Field.map]
  constructor
  · intro _
    constructor
    · intro _
      refine bindingName_forms.mono fun param last formedParam _ => ?_
      refine (block_forms phrases).mono fun body after formedBody => ?_
      rintro _ ⟨⟩
      apply Formed.catchClause _ formedBody
      rintro _ ⟨⟩
      exact formedParam
    · intro _
      refine (block_forms phrases).mono fun body after formedBody => ?_
      rintro _ ⟨⟩
      exact .catchClause formed_of_none formedBody
  · exact fun _ => formed_of_none

private theorem tryStatement_forms : Ensures (tryStatement read) cursor EndsFormed := by
  simp only [tryStatement, ensures_bind, ensures_here, ensures_advance, ensures_eatWord, ensures_ite,
    ensures_pure, ensures_failExpected, ensures_node, Bool.false_eq_true, not_true_eq_false,
    not_false_eq_true, false_implies, implies_true, true_and, and_true, forall_const]
  refine (block_forms phrases).mono fun body middle formedBody => ?_
  refine (handler_forms phrases).mono fun clause next formedClause => ?_
  constructor
  · intro _
    refine (block_forms phrases).mono fun finalizer after formedFinalizer _ => ?_
    apply EndsFormed.of_closed
    · simp only [flat_branch, List.map, Field.map, Option.map_some]
      apply Formed.tryStatement formedBody formedClause _ (.inr rfl)
      rintro _ ⟨⟩
      exact formedFinalizer
    · rw [flat_branch]
      rfl
  · intro _ handled
    have hasHandler : clause.isSome = true := by
      cases clause with
      | none => exact absurd rfl handled
      | some clause => rfl
    apply EndsFormed.of_closed
    · simp only [flat_branch, List.map, Field.map, Option.map_some, Option.map_none]
      apply Formed.tryStatement formedBody formedClause
      · rintro _ ⟨⟩
      · rw [Option.isSome_map]
        exact .inl hasHandler
    · rw [flat_branch]
      rfl

end Jumps

section Selections

variable (phrases : PhrasesForm read)

include phrases

private theorem caseTest_forms :
    Ensures (caseTest read) cursor fun test _ =>
      ∀ draft ∈ test.map flat, Formed .expression draft := by
  simp only [caseTest, ensures_bind, ensures_eatWord, ensures_ite, ensures_pure, ensures_failExpected,
    Bool.false_eq_true, not_true_eq_false, not_false_eq_true, false_implies, implies_true, true_and,
    and_true, forall_const]
  constructor
  · intro _
    refine (expression_forms phrases).mono fun test after formed => ?_
    rintro _ ⟨⟩
    exact formed
  · exact fun _ _ => formed_of_none

private theorem switchCase_forms : FormsAt .clause (switchCase read) cursor := by
  simp only [FormsAt, switchCase, ensures_bind, ensures_here, ensures_expectPunct, ensures_node,
    flat_branch, List.map, Field.map]
  refine (caseTest_forms phrases).mono fun test middle formedTest _ => ?_
  refine (many_forms _ fun _ => statementInBraces_forms phrases).mono
    fun consequent after formedConsequent => ?_
  exact .switchCase formedTest formedConsequent.flat_mem

private theorem switchStatement_forms : Ensures (switchStatement read) cursor EndsFormed := by
  simp only [switchStatement, ensures_bind, ensures_here, ensures_advance, ensures_expectPunct,
    ensures_node]
  refine (parenthesized_forms phrases).mono fun discriminant middle formedDiscriminant _ => ?_
  refine (many_forms _ fun _ => switchCase_forms phrases).mono fun cases after formedCases => ?_
  apply EndsFormed.of_closed
  · rw [flat_branch]
    exact .switchStatement formedDiscriminant formedCases.flat_mem
  · rw [flat_branch]
    rfl

end Selections

section Classes

variable (phrases : PhrasesForm read)

include phrases

/-- What follows the key of a member: a method, or a value and the end of the member. -/
theorem memberBehindKey_forms (cursor : Cursor) (start : Pos) {text : Option String} {key : Draft}
    (known : text = none ∨ text = some "static") (formedKey : Formed .key (flat key)) :
    FormsAt .member (do
      if ← atPunct "(" then
        method read "ClassMethod" start text key
      else
        let value ← if ← eatPunct "=" then pure (some (← read .assignment)) else pure none
        semicolon
        node "ClassProperty" start text [.single "key" key, .single "value" value]) cursor := by
  simp only [FormsAt, ensures_bind, ensures_atPunct, ensures_ite, ensures_eatPunct, ensures_pure,
    ensures_node, Bool.false_eq_true, not_true_eq_false, not_false_eq_true, false_implies, true_and,
    and_true, forall_const, flat_branch, List.map, Field.map, Option.map_some, Option.map_none]
  constructor
  · intro _
    refine (method_forms phrases "ClassMethod" start text key).mono ?_
    rintro draft _ ⟨params, body, same, formedParams, formedBody⟩
    rw [same]
    exact .classMethod known formedKey formedParams formedBody
  intro _
  constructor
  · intro _
    refine (phrases.assignment _).mono fun value middle formedValue => ?_
    intro _ after _
    apply Formed.classProperty known formedKey
    rintro _ ⟨⟩
    exact formedValue
  · intro _ _ after _
    exact .classProperty known formedKey formed_of_none

private theorem classMember_forms : FormsAt .member (classMember read) cursor := by
  have behind (text : Option String) (known : text = none ∨ text = some "static") (key : Draft)
      (after : Cursor) (formedKey : Formed .key (flat key)) :=
    memberBehindKey_forms phrases after cursor.start known formedKey
  simp only [FormsAt, ensures_bind, ensures_atPunct, ensures_ite, ensures_pure] at behind
  simp only [FormsAt, classMember, ensures_bind, ensures_here, ensures_get, ensures_ite,
    ensures_advance, ensures_atPunct, ensures_pure]
  constructor
  · intro isStatic
    simp only [isStatic, ↓reduceIte]
    exact (propertyKey_forms phrases).mono (behind (some "static") (.inr rfl))
  · intro notStatic
    simp only [notStatic, Bool.false_eq_true, ↓reduceIte]
    exact (propertyKey_forms phrases).mono (behind none (.inl rfl))

private theorem classItem_forms :
    Ensures (classItem read) cursor fun item _ =>
      ∀ draft ∈ item, Formed .member (flat draft) := by
  simp only [classItem, ensures_bind, ensures_eatPunct, ensures_ite, ensures_pure, Bool.false_eq_true,
    not_true_eq_false, not_false_eq_true, false_implies, true_and, and_true, forall_const]
  constructor
  · rintro _ _ ⟨⟩
  · intro _
    refine (classMember_forms phrases).mono fun member after formed => ?_
    rintro _ ⟨⟩
    exact formed

private theorem classBody_forms :
    Ensures (classBody read) cursor fun draft _ => ∃ members,
      flat draft = tree "ClassBody" none [.list "body" members] ∧
        ∀ draft ∈ members, Formed .member draft := by
  simp only [classBody, ensures_bind, ensures_here, ensures_expectPunct, ensures_node, flat_branch,
    List.map, Field.map]
  intro _
  have items : Ensures (many (eatPunct "\x7d") (classItem read)) cursor.advance fun items _ =>
      AllFormed .member (items.filterMap id) := by
    apply ensures_many fun _ items _ => AllFormed .member (items.filterMap id)
    intro cursor stopped middle _
    constructor
    · exact fun _ => List.forall_mem_nil _
    · intro _
      refine (classItem_forms phrases).mono fun first next formed rest after others => ?_
      cases first with
      | none => exact others
      | some first => exact List.forall_mem_cons.mpr ⟨formed first rfl, others⟩
  refine items.mono fun items after formed => ?_
  exact ⟨_, rfl, formed.flat_mem⟩

private theorem classDeclaration_forms : Ensures (classDeclaration read) cursor EndsFormed := by
  simp only [classDeclaration, ensures_bind, ensures_here, ensures_advance, ensures_eatWord,
    ensures_ite, ensures_pure, ensures_node, Bool.false_eq_true, not_true_eq_false,
    not_false_eq_true, false_implies, true_and, and_true, forall_const]
  refine bindingName_forms.mono fun id next formedId => ?_
  constructor
  · intro _
    refine (chain_forms phrases).mono fun superClass middle formedSuper => ?_
    refine (classBody_forms phrases).mono ?_
    rintro body after ⟨members, same, formedMembers⟩
    apply EndsFormed.of_closed
    · simp only [flat_branch, List.map, Field.map, Option.map_some, same]
      apply Formed.classDeclaration formedId _ formedMembers
      rintro _ ⟨⟩
      exact formedSuper
    · rw [flat_branch]
      rfl
  · intro _
    refine (classBody_forms phrases).mono ?_
    rintro body after ⟨members, same, formedMembers⟩
    apply EndsFormed.of_closed
    · simp only [flat_branch, List.map, Field.map, Option.map_some, Option.map_none, same]
      exact .classDeclaration formedId formed_of_none formedMembers
    · rw [flat_branch]
      rfl

end Classes

section Grammar

private theorem functionDeclaration_forms (phrases : PhrasesForm read) :
    Ensures (function read "FunctionDeclaration" true) cursor EndsFormed := by
  refine (function_forms phrases "FunctionDeclaration" true).mono ?_
  rintro draft _ ⟨id, params, body, same, formedName, named, formedParams, formedBody⟩
  obtain ⟨id, rfl⟩ := Option.isSome_iff_exists.mp (named rfl)
  apply EndsFormed.of_closed
  · rw [same]
    exact .functionDeclaration (formedName id rfl) formedParams formedBody
  · rw [same]
    rfl

private theorem expressionStatement_forms (phrases : PhrasesForm read) :
    Ensures (expressionStatement read) cursor EndsFormed := by
  simp only [expressionStatement, ensures_bind, ensures_here, ensures_node]
  refine (expression_forms phrases).mono fun inner middle formed => ?_
  intro _ after _
  apply EndsFormed.of_closed
  · rw [flat_branch]
    exact .expressionStatement formed
  · rw [flat_branch]
    rfl

private theorem blockStatement_forms (phrases : PhrasesForm read) :
    Ensures (block read) cursor EndsFormed := by
  refine (block_forms phrases).mono fun body after formed => ?_
  apply EndsFormed.of_closed (.ofBlock formed)
  generalize flat body = block at formed
  cases formed
  rfl

private theorem statement_forms (phrases : PhrasesForm read) :
    Ensures (statement read) cursor EndsFormed := by
  simp only [statement, ensures_bind, ensures_here, ensures_peek]
  split <;> rename_i next
  · exact ensures_failExpected _
  · exact blockStatement_forms phrases
  · simp only [emptyStatement, constant, ensures_bind, ensures_here, ensures_advance, ensures_node]
    apply EndsFormed.of_closed
    · rw [flat_branch]
      exact .empty
    · rw [flat_branch]
      rfl
  · exact functionDeclaration_forms phrases
  · exact classDeclaration_forms phrases
  · exact variableDeclaration_forms phrases next (.inl rfl)
  · exact variableDeclaration_forms phrases next (.inr (.inr rfl))
  · simp only [ensures_bind, ensures_get, ensures_ite]
    constructor
    · exact fun _ => variableDeclaration_forms phrases next (.inr (.inl rfl))
    · exact fun _ => expressionStatement_forms phrases
  · exact ifStatement_forms phrases
  · exact forStatement_forms phrases
  · exact whileStatement_forms phrases
  · exact doWhileStatement_forms phrases
  · exact returnStatement_forms phrases
  · exact throwStatement_forms phrases
  · exact jumpStatement_forms .breakStatement rfl
  · exact jumpStatement_forms .continueStatement rfl
  · exact tryStatement_forms phrases
  · exact switchStatement_forms phrases
  · exact ensures_fail _
  · exact ensures_fail _
  · exact expressionStatement_forms phrases

/-- One unrolling of the grammar keeps the phrases well formed. -/
theorem production_forms (phrases : PhrasesForm read) :
    PhrasesForm fun phrase => phrase.production read := by
  constructor
  · intro cursor
    apply ensures_nested
    exact (statement_forms phrases).mono fun draft after ends => ⟨ends.formed, ends.followed⟩
  · intro phrase cursor other
    cases phrase with
    | statement => exact absurd rfl other
    | assignment => exact assignment_forms phrases
    | binary least allowIn => exact binary_forms phrases least allowIn
    | unary => exact ensures_nested (unary_forms phrases)
    | construction => exact construction_forms phrases

private theorem readWithin_forms (limit : Nat) : PhrasesForm (Phrase.readWithin limit) := by
  induction limit with
  | zero => exact ⟨fun _ => ensures_fail .stalled, fun _ _ _ => ensures_fail .stalled⟩
  | succ limit ih => exact production_forms ih

/-- A draft read from tokens is a program of well-formed statements. -/
theorem parseTokens_forms {tokens : List Token} {sourceEnd : Pos} {draft : Draft}
    (parsed : parseTokens tokens sourceEnd = .ok draft) :
    ∃ body, flat draft = tree "Program" none [.list "body" body] ∧
      ∀ draft ∈ body, Formed .statement draft := by
  have phrases := readWithin_forms (unrollings tokens.length)
  have programs : Ensures (program (Phrase.readWithin (unrollings tokens.length)))
      (.first tokens sourceEnd) fun draft _ =>
        ∃ body, flat draft = tree "Program" none [.list "body" body] ∧
          ∀ draft ∈ body, Formed .statement draft := by
    simp only [program, ensures_bind, ensures_get, make_draft, ensures_pure]
    have statements (cursor : Cursor) :
        FormsAt .statement (Phrase.readWithin (unrollings tokens.length) .statement) cursor :=
      (phrases.statement cursor).mono fun draft after ends => ends.formed
    refine (many_forms atEnd statements).mono fun body after formed => ?_
    rw [flat_branch]
    exact ⟨_, rfl, formed.flat_mem⟩
  unfold parseTokens at parsed
  split at parsed
  · rename_i read after success
    cases parsed
    exact programs _ _ success
  · cases parsed

end Grammar

end SyntaxNav.Script

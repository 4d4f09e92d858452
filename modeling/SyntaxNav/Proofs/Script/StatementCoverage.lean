import Mathlib.Data.List.Basic
import SyntaxNav.Proofs.Script.ExpressionCoverage

/-! # Statements and programs cover their tokens

Every production for statements covers the tokens it reads, if the phrases inside it do. By induction
on how often the grammar is unrolled all phrases do, so the body of a program covers all tokens of the
source.
-/

namespace SyntaxNav.Script

variable {cursor before : Cursor} {read : PhraseReader}

private theorem semicolon_covers : Ensures semicolon cursor fun _ after => cursor.Yields after [] := by
  simp only [semicolon, ensures_bind, ensures_eatPunct, ensures_ite, ensures_pure, ensures_atPunct,
    ensures_get, Bool.false_eq_true, not_true_eq_false, not_false_eq_true, false_implies, true_and,
    and_true, forall_const]
  refine ⟨fun ends => .mark (Cursor.atPunct_iff.mp ends) (by decide), fun _ => ⟨fun _ => .refl _, ?_⟩⟩
  intro _
  split
  · exact (ensures_pure _).mpr (.refl _)
  · simp only [ensures_ite, ensures_failExpected, ensures_pure, implies_true, true_and]
    intro _
    exact .refl _

section Declarations

private theorem declarator_covers (phrases : PhrasesCover read) : CoversAt (declarator read) cursor := by
  simp only [CoversAt, declarator, ensures_bind, ensures_here, ensures_eatPunct, ensures_ite,
    ensures_pure, ensures_node, Bool.false_eq_true, not_true_eq_false, not_false_eq_true,
    false_implies, true_and, and_true, forall_const]
  refine bindingName_covers.mono ?_
  intro id next yieldsId
  refine ⟨fun equals => (phrases.assignment _).mono ?_, fun _ => yieldsId.branch (by simp) rfl⟩
  intro init after yieldsInit
  have marked := Cursor.Yields.mark (Cursor.atPunct_iff.mp equals) (by decide)
  exact (yieldsId.append (marked.append yieldsInit)).branch (by simp) rfl

/-- The names that a declaring word declares, of which there is at least one. -/
theorem declarators_cover (phrases : PhrasesCover read) {word : String}
    (next : cursor.next? = some (.word word)) (isMark : TokenKind.isMark (.word word) = true) :
    Ensures (declarators read) cursor fun declared after =>
      cursor.Yields after declared.2 ∧ declared.2 ≠ [] := by
  simp only [declarators, ensures_bind, ensures_peek, next, ensures_advance, ensures_pure]
  refine (commaSeparated_covers fun _ => declarator_covers phrases).mono ?_
  rintro declarations after ⟨yields, someDeclaration⟩
  exact ⟨(Cursor.Yields.mark next isMark).append yields, someDeclaration⟩

private theorem declaration_branch {after : Cursor} {word : Option String} {declarations : List Draft}
    (yields : cursor.Yields after declarations) (someDeclaration : declarations ≠ []) :
    cursor.Yields after [.branch ⟨"VariableDeclaration", some ⟨cursor.start, after.prevEnd⟩, word⟩
      [.list "declarations" declarations]] := by
  obtain ⟨first, rest, rfl⟩ := List.exists_cons_of_ne_nil someDeclaration
  exact yields.branch (by simp) rfl

private theorem variableDeclaration_covers (phrases : PhrasesCover read) {word : String}
    (next : cursor.next? = some (.word word)) (isMark : TokenKind.isMark (.word word) = true) :
    CoversAt (variableDeclaration read) cursor := by
  simp only [CoversAt, variableDeclaration, ensures_bind, ensures_here]
  refine (declarators_cover phrases next isMark).mono ?_
  rintro ⟨word, declarations⟩ middle ⟨yields, someDeclaration⟩
  simp only [ensures_node]
  refine semicolon_covers.mono ?_
  intro _ after ended
  have read := yields.append ended
  rw [List.append_nil] at read
  exact declaration_branch read someDeclaration

end Declarations

section ControlFlow

private theorem ifStatement_covers (phrases : PhrasesCover read) (atIf : cursor.atWord "if" = true) :
    CoversAt (ifStatement read) cursor := by
  simp only [CoversAt, ifStatement, ensures_bind, ensures_here, ensures_advance, ensures_eatWord,
    ensures_ite, ensures_pure, ensures_node, Bool.false_eq_true, not_true_eq_false,
    not_false_eq_true, false_implies, true_and, and_true, forall_const]
  have marked := Cursor.Yields.mark (Cursor.atWord_iff.mp atIf) (by decide)
  refine (parenthesized_covers phrases).mono ?_
  intro test middle yieldsTest
  refine (phrases.statement _).mono ?_
  intro consequent next yieldsConsequent
  have read := marked.append (yieldsTest.append yieldsConsequent)
  refine ⟨fun atElse => (phrases.statement _).mono ?_, fun _ => read.branch (by simp) rfl⟩
  intro alternate after yieldsAlternate
  have parted := Cursor.Yields.mark (Cursor.atWord_iff.mp atElse) (by decide)
  exact (read.append (parted.append yieldsAlternate)).branch (by simp) rfl

private theorem loopInit_covers (phrases : PhrasesCover read) :
    Ensures (loopInit read) cursor fun init after => cursor.Yields after init.toList := by
  simp only [loopInit, ensures_bind, ensures_atPunct, ensures_ite, ensures_pure, ensures_atWord,
    ensures_here]
  refine ⟨fun _ => .refl cursor, fun _ => ⟨?_, fun _ => headExpression_covers phrases⟩⟩
  intro declares
  obtain ⟨word, next, isMark⟩ : ∃ word, cursor.next? = some (.word word) ∧
      TokenKind.isMark (.word word) = true := by
    simp only [Bool.or_eq_true, Cursor.atWord_iff] at declares
    rcases declares with (next | next) | next
    · exact ⟨_, next, by decide⟩
    · exact ⟨_, next, by decide⟩
    · exact ⟨_, next, by decide⟩
  refine (declarators_cover phrases next isMark).mono ?_
  rintro ⟨word, declarations⟩ after ⟨yields, someDeclaration⟩
  rw [ensures_node]
  exact declaration_branch yields someDeclaration

private theorem expressionUnless_covers (phrases : PhrasesCover read) (punct : String) :
    Ensures (expressionUnless read punct) cursor fun value after =>
      cursor.Yields after value.toList := by
  simp only [expressionUnless, ensures_bind, ensures_atPunct, ensures_ite, ensures_pure]
  exact ⟨fun _ => .refl cursor, fun _ => expression_covers phrases⟩

private theorem forStatement_covers (phrases : PhrasesCover read) (atFor : cursor.atWord "for" = true) :
    CoversAt (forStatement read) cursor := by
  simp only [CoversAt, forStatement, ensures_bind, ensures_here, ensures_advance,
    ensures_expectPunct, ensures_atWord, ensures_ite, ensures_fail, ensures_node, implies_true,
    true_and]
  intro opens
  refine (loopInit_covers phrases).mono ?_
  intro init first yieldsInit _ ends
  refine (expressionUnless_covers phrases ";").mono ?_
  intro test second yieldsTest ends'
  refine (expressionUnless_covers phrases ")").mono ?_
  intro update last yieldsUpdate closes
  refine (phrases.statement _).mono ?_
  intro body after yieldsBody
  have parted := Cursor.Yields.mark (Cursor.atPunct_iff.mp ends) (by decide)
  have parted' := Cursor.Yields.mark (Cursor.atPunct_iff.mp ends') (by decide)
  have head := Cursor.Yields.brackets (by decide) opens
    (yieldsInit.append (parted.append (yieldsTest.append (parted'.append yieldsUpdate)))) closes
  exact .branch_of_mark (Cursor.atWord_iff.mp atFor) (by decide) (head.append yieldsBody)
    (by simp) rfl

private theorem whileStatement_covers (phrases : PhrasesCover read) (atWhile : cursor.atWord "while" = true) :
    CoversAt (whileStatement read) cursor := by
  simp only [CoversAt, whileStatement, ensures_bind, ensures_here, ensures_advance, ensures_node]
  refine (parenthesized_covers phrases).mono ?_
  intro test middle yieldsTest
  refine (phrases.statement _).mono ?_
  intro body after yieldsBody
  exact .branch_of_mark (Cursor.atWord_iff.mp atWhile) (by decide) (yieldsTest.append yieldsBody)
    (by simp) rfl

private theorem doWhileStatement_covers (phrases : PhrasesCover read) (atDo : cursor.atWord "do" = true) :
    CoversAt (doWhileStatement read) cursor := by
  simp only [CoversAt, doWhileStatement, ensures_bind, ensures_here, ensures_advance,
    ensures_eatWord, ensures_ite, ensures_failExpected, ensures_node, Bool.not_true,
    Bool.not_false, Bool.false_eq_true, not_true_eq_false, not_false_eq_true, false_implies,
    implies_true, true_and, and_true, forall_const]
  have marked := Cursor.Yields.mark (Cursor.atWord_iff.mp atDo) (by decide)
  refine (phrases.statement _).mono ?_
  intro body middle yieldsBody atWhile
  refine (parenthesized_covers phrases).mono ?_
  intro test last yieldsTest
  have turns := Cursor.atWord_iff.mp atWhile
  have readBody := marked.append yieldsBody
  simp only [ensures_discard, ensures_eatPunct]
  refine ⟨fun ends => ?_, fun _ => readBody.loop turns (by decide) yieldsTest⟩
  exact readBody.loop turns (by decide) (yieldsTest.append (.mark (Cursor.atPunct_iff.mp ends) (by decide)))

end ControlFlow

section Jumps

private theorem returnedValue_covers (phrases : PhrasesCover read) :
    Ensures (returnedValue read) cursor fun value after => cursor.Yields after value.toList := by
  simp only [returnedValue, ensures_bind, ensures_get]
  split
  · exact (ensures_pure _).mpr (.refl cursor)
  · simp only [ensures_ite, ensures_bind, ensures_pure]
    exact ⟨fun _ => .refl cursor, fun _ => expression_covers phrases⟩

private theorem returnStatement_covers (phrases : PhrasesCover read)
    (atReturn : cursor.atWord "return" = true) : CoversAt (returnStatement read) cursor := by
  simp only [CoversAt, returnStatement, ensures_bind, ensures_here, ensures_advance, ensures_node]
  refine (returnedValue_covers phrases).mono ?_
  intro value middle yieldsValue
  refine semicolon_covers.mono ?_
  intro _ after ended
  exact .branch_of_mark (Cursor.atWord_iff.mp atReturn) (by decide) (yieldsValue.append ended)
    (by simp) rfl

private theorem throwStatement_covers (phrases : PhrasesCover read) (atThrow : cursor.atWord "throw" = true) :
    CoversAt (throwStatement read) cursor := by
  simp only [CoversAt, throwStatement, ensures_bind, ensures_here, ensures_advance, ensures_node]
  refine (expression_covers phrases).mono ?_
  intro value middle yieldsValue
  refine semicolon_covers.mono ?_
  intro _ after ended
  exact .branch_of_mark (Cursor.atWord_iff.mp atThrow) (by decide) (yieldsValue.append ended)
    (by simp) rfl

private theorem jumpStatement_covers {kind word : String} (atJump : cursor.atWord word = true)
    (isMark : TokenKind.isMark (.word word) = true) (orderly : isOrderly kind none [] = true) :
    CoversAt (jumpStatement kind) cursor := by
  simp only [CoversAt, jumpStatement, ensures_bind, ensures_here, ensures_advance, ensures_noLabel,
    ensures_node]
  intro _
  refine semicolon_covers.mono ?_
  intro _ after ended
  exact .branch_of_mark (Cursor.atWord_iff.mp atJump) isMark ended rfl orderly

/-- A block behind a word that marks it. -/
theorem markedBlock_covers (phrases : PhrasesCover read) {word : String}
    (atMark : cursor.atWord word = true) (isMark : TokenKind.isMark (.word word) = true) :
    Ensures (block read) cursor.advance fun body after => cursor.Yields after [body] := by
  refine (block_covers phrases).mono ?_
  intro body after yieldsBody
  exact (Cursor.Yields.mark (Cursor.atWord_iff.mp atMark) isMark).append yieldsBody

private theorem handler_covers (phrases : PhrasesCover read) :
    Ensures (handler read) cursor fun clause after => cursor.Yields after clause.toList := by
  simp only [handler, ensures_bind, ensures_here, ensures_eatWord, ensures_ite, ensures_eatPunct,
    ensures_expectPunct, ensures_pure, ensures_node, Bool.false_eq_true, not_true_eq_false,
    not_false_eq_true, false_implies, true_and, and_true, forall_const]
  refine ⟨fun atCatch => ⟨fun opens => bindingName_covers.mono ?_, fun _ => ?_⟩, fun _ => .refl cursor⟩
  · intro param last yieldsParam closes
    refine (block_covers phrases).mono ?_
    intro body after yieldsBody
    have bracketed := Cursor.Yields.brackets (by decide) opens yieldsParam closes
    exact .branch_of_mark (Cursor.atWord_iff.mp atCatch) (by decide) (bracketed.append yieldsBody)
      (by simp) rfl
  · refine (block_covers phrases).mono ?_
    intro body after yieldsBody
    exact .branch_of_mark (Cursor.atWord_iff.mp atCatch) (by decide) yieldsBody (by simp) rfl

private theorem tryStatement_covers (phrases : PhrasesCover read) (atTry : cursor.atWord "try" = true) :
    CoversAt (tryStatement read) cursor := by
  simp only [CoversAt, tryStatement, ensures_bind, ensures_here, ensures_advance, ensures_eatWord,
    ensures_ite, ensures_pure, ensures_failExpected, ensures_node, Bool.false_eq_true,
    not_true_eq_false, not_false_eq_true, false_implies, implies_true, true_and, and_true,
    forall_const]
  refine (markedBlock_covers phrases atTry (by decide)).mono ?_
  intro body middle yieldsBody
  refine (handler_covers phrases).mono ?_
  intro clause next yieldsClause
  refine ⟨fun atFinally => (markedBlock_covers phrases atFinally (by decide)).mono ?_, fun _ _ => ?_⟩
  · intro finalizer after yieldsFinalizer _
    exact (yieldsBody.append (yieldsClause.append yieldsFinalizer)).branch (by simp) rfl
  · exact (yieldsBody.append yieldsClause).branch (by simp) rfl

end Jumps

section Selections

private theorem caseTest_covers (phrases : PhrasesCover read) :
    Ensures (caseTest read) cursor fun test after =>
      ∃ word, cursor.atWord word = true ∧ TokenKind.isMark (.word word) = true ∧
        cursor.advance.Yields after test.toList := by
  simp only [caseTest, ensures_bind, ensures_eatWord, ensures_ite, ensures_pure,
    ensures_failExpected, Bool.false_eq_true, not_true_eq_false, not_false_eq_true, false_implies,
    implies_true, true_and, and_true, forall_const]
  refine ⟨fun atCase => (expression_covers phrases).mono ?_, fun _ atDefault => ?_⟩
  · intro test after yieldsTest
    exact ⟨"case", atCase, by decide, yieldsTest⟩
  · exact ⟨"default", atDefault, by decide, .refl _⟩

private theorem switchCase_covers (phrases : PhrasesCover read) : CoversAt (switchCase read) cursor := by
  simp only [CoversAt, switchCase, ensures_bind, ensures_here, ensures_expectPunct, ensures_node]
  refine (caseTest_covers phrases).mono ?_
  rintro test middle ⟨word, atMark, isMark, yieldsTest⟩ colon
  have parted := Cursor.Yields.mark (Cursor.atPunct_iff.mp colon) (by decide)
  refine (ensures_many (fun cursor drafts after => cursor.Yields after drafts) ?_ _).mono ?_
  · intro cursor
    simp only [atCaseEnd, ensures_bind, ensures_atWord, ensures_atPunct, ensures_pure]
    refine ⟨fun _ => .refl cursor, fun _ => (statementInBraces_covers phrases).mono ?_⟩
    intro first next yieldsFirst rest after yieldsRest
    exact yieldsFirst.append yieldsRest
  · intro consequent after yieldsConsequent
    exact .branch_of_mark (Cursor.atWord_iff.mp atMark) isMark
      (yieldsTest.append (parted.append yieldsConsequent)) (by simp) rfl

private theorem switchStatement_covers (phrases : PhrasesCover read)
    (atSwitch : cursor.atWord "switch" = true) : CoversAt (switchStatement read) cursor := by
  simp only [CoversAt, switchStatement, ensures_bind, ensures_here, ensures_advance,
    ensures_expectPunct, ensures_node]
  refine (parenthesized_covers phrases).mono ?_
  intro discriminant middle yieldsDiscriminant opens
  refine (many_covers (fun draft => [draft]) fun _ => switchCase_covers phrases).mono ?_
  rintro cases _ ⟨last, yieldsCases, closes, rfl⟩
  have bracketed := Cursor.Yields.brackets (by decide) opens yieldsCases closes
  exact .branch_of_mark (Cursor.atWord_iff.mp atSwitch) (by decide)
    (yieldsDiscriminant.append bracketed) (by simp) rfl

end Selections

section Classes

/-- What follows the key of a member: a method, or a value and the end of the member. -/
theorem memberBehindKey_covers (phrases : PhrasesCover read) {key : Draft} (text : Option String)
    (yieldsKey : before.Yields cursor [key])
    (orderly : isOrderly "ClassMethod" text ["key", "params", "body"] = true)
    (orderly' : isOrderly "ClassProperty" text ["key", "value"] = true) :
    (cursor.atPunct "(" = true → Ensures (method read "ClassMethod" before.start text key) cursor
        fun draft after => before.Yields after [draft]) ∧
      (cursor.atPunct "=" = true → Ensures (read .assignment) cursor.advance fun value middle =>
        Ensures semicolon middle fun _ after => before.Yields after
          [.branch ⟨"ClassProperty", some ⟨before.start, after.prevEnd⟩, text⟩
            [.single "key" key, .single "value" value]]) ∧
      (Ensures semicolon cursor fun _ after => before.Yields after
          [.branch ⟨"ClassProperty", some ⟨before.start, after.prevEnd⟩, text⟩
            [.single "key" key, .single "value" none]]) := by
  refine ⟨fun _ => method_covers phrases yieldsKey orderly, fun equals => ?_, ?_⟩
  · refine (phrases.assignment _).mono ?_
    intro value middle yieldsValue
    refine semicolon_covers.mono ?_
    intro _ after ended
    have marked := Cursor.Yields.mark (Cursor.atPunct_iff.mp equals) (by decide)
    exact (yieldsKey.append (marked.append (yieldsValue.append ended))).branch (by simp) orderly'
  · refine semicolon_covers.mono ?_
    intro _ after ended
    exact (yieldsKey.append ended).branch (by simp) orderly'

/-- A member of a class covers its tokens. -/
theorem classMember_covers (phrases : PhrasesCover read) : CoversAt (classMember read) cursor := by
  simp only [CoversAt, classMember, ensures_bind, ensures_here, ensures_get, ensures_ite,
    ensures_advance, ensures_atPunct, ensures_eatPunct, ensures_pure, ensures_node,
    Bool.false_eq_true, not_true_eq_false, not_false_eq_true, false_implies, true_and, and_true,
    forall_const]
  refine ⟨fun isStatic => ?_, fun notStatic => ?_⟩
  · have atStatic : cursor.atWord "static" = true := (Bool.and_eq_true_iff.mp isStatic).1
    have marked := Cursor.Yields.mark (Cursor.atWord_iff.mp atStatic) (by decide)
    refine (propertyKey_covers phrases).mono ?_
    intro key next yieldsKey
    simp only [isStatic, ↓reduceIte]
    obtain ⟨methods, valued, bare⟩ :=
      memberBehindKey_covers phrases (some "static") (marked.append yieldsKey) rfl rfl
    exact ⟨methods, fun _ => ⟨valued, fun _ => bare⟩⟩
  · refine (propertyKey_covers phrases).mono ?_
    intro key next yieldsKey
    simp only [notStatic, Bool.false_eq_true, ↓reduceIte]
    obtain ⟨methods, valued, bare⟩ :=
      memberBehindKey_covers phrases none yieldsKey rfl rfl
    exact ⟨methods, fun _ => ⟨valued, fun _ => bare⟩⟩

private theorem classItem_covers (phrases : PhrasesCover read) :
    Ensures (classItem read) cursor fun member after => cursor.Yields after member.toList := by
  simp only [classItem, ensures_bind, ensures_eatPunct, ensures_ite, ensures_pure,
    Bool.false_eq_true, not_true_eq_false, not_false_eq_true, false_implies, true_and, and_true,
    forall_const]
  exact ⟨fun ends => .mark (Cursor.atPunct_iff.mp ends) (by decide),
    fun _ => classMember_covers phrases⟩

private theorem classBody_covers (phrases : PhrasesCover read) : CoversAt (classBody read) cursor := by
  simp only [CoversAt, classBody, ensures_bind, ensures_here, ensures_expectPunct, ensures_node]
  intro opens
  refine (many_covers Option.toList fun _ => classItem_covers phrases).mono ?_
  rintro items _ ⟨last, yields, closes, rfl⟩
  have members : items.flatMap Option.toList = items.filterMap id := by
    rw [List.filterMap_eq_flatMap_toList]
    rfl
  exact .branch_of_brackets (by decide) opens yields closes (by simp [members]) rfl

private theorem classDeclaration_covers (phrases : PhrasesCover read)
    (atClass : cursor.atWord "class" = true) : CoversAt (classDeclaration read) cursor := by
  simp only [CoversAt, classDeclaration, ensures_bind, ensures_here, ensures_advance,
    ensures_eatWord, ensures_ite, ensures_pure, ensures_node, Bool.false_eq_true,
    not_true_eq_false, not_false_eq_true, false_implies, true_and, and_true, forall_const]
  refine bindingName_covers.mono ?_
  intro id next yieldsId
  refine ⟨fun extends_ => (chain_covers phrases).mono ?_, fun _ => (classBody_covers phrases).mono ?_⟩
  · intro superClass middle yieldsSuper
    refine (classBody_covers phrases).mono ?_
    intro body after yieldsBody
    have marked := Cursor.Yields.mark (Cursor.atWord_iff.mp extends_) (by decide)
    exact .branch_of_mark (Cursor.atWord_iff.mp atClass) (by decide)
      (yieldsId.append (marked.append (yieldsSuper.append yieldsBody))) (by simp) rfl
  · intro body after yieldsBody
    exact .branch_of_mark (Cursor.atWord_iff.mp atClass) (by decide) (yieldsId.append yieldsBody)
      (by simp) rfl

end Classes

section Grammar

private theorem expressionStatement_covers (phrases : PhrasesCover read) :
    CoversAt (expressionStatement read) cursor := by
  simp only [CoversAt, expressionStatement, ensures_bind, ensures_here, ensures_node]
  refine (expression_covers phrases).mono ?_
  intro inner middle yieldsInner
  refine semicolon_covers.mono ?_
  intro _ after ended
  exact (yieldsInner.append ended).branch (by simp) rfl

private theorem statement_covers (phrases : PhrasesCover read) : CoversAt (statement read) cursor := by
  simp only [CoversAt, statement, ensures_bind, ensures_here, ensures_peek]
  split <;> rename_i next
  · exact ensures_failExpected _
  · exact block_covers phrases
  · exact constant_covers next (by decide) rfl
  · exact function_covers phrases true (Cursor.atWord_iff.mpr next) rfl
  · exact classDeclaration_covers phrases (Cursor.atWord_iff.mpr next)
  · exact variableDeclaration_covers phrases next (by decide)
  · exact variableDeclaration_covers phrases next (by decide)
  · simp only [ensures_bind, ensures_get, ensures_ite]
    exact ⟨fun _ => variableDeclaration_covers phrases next (by decide),
      fun _ => expressionStatement_covers phrases⟩
  · exact ifStatement_covers phrases (Cursor.atWord_iff.mpr next)
  · exact forStatement_covers phrases (Cursor.atWord_iff.mpr next)
  · exact whileStatement_covers phrases (Cursor.atWord_iff.mpr next)
  · exact doWhileStatement_covers phrases (Cursor.atWord_iff.mpr next)
  · exact returnStatement_covers phrases (Cursor.atWord_iff.mpr next)
  · exact throwStatement_covers phrases (Cursor.atWord_iff.mpr next)
  · exact jumpStatement_covers (Cursor.atWord_iff.mpr next) (by decide) rfl
  · exact jumpStatement_covers (Cursor.atWord_iff.mpr next) (by decide) rfl
  · exact tryStatement_covers phrases (Cursor.atWord_iff.mpr next)
  · exact switchStatement_covers phrases (Cursor.atWord_iff.mpr next)
  · exact ensures_fail _
  · exact ensures_fail _
  · exact expressionStatement_covers phrases

/-- One unrolling of the grammar keeps the phrases covering. -/
theorem production_covers (phrases : PhrasesCover read) :
    PhrasesCover fun phrase => phrase.production read := by
  intro phrase cursor atNew
  cases phrase with
  | statement => exact nested_covers (statement_covers phrases)
  | assignment => exact assignment_covers phrases
  | binary least allowIn => exact binary_covers phrases least allowIn
  | unary => exact nested_covers (unary_covers phrases)
  | construction => exact construction_covers phrases (atNew rfl)

/-- Every phrase covers its tokens, however often the grammar is unrolled. -/
theorem readWithin_covers (limit : Nat) : PhrasesCover (Phrase.readWithin limit) := by
  induction limit with
  | zero => exact fun _ _ _ => ensures_fail .stalled
  | succ limit ih => exact production_covers ih

/-- The body of a program covers all tokens of the source. -/
theorem program_covers (phrases : PhrasesCover read) :
    Ensures (program read) cursor fun draft after => after.rest = [] ∧
      ∃ body, Covers cursor.rest body ∧ draft =
        .branch ⟨"Program", some ⟨.origin, cursor.sourceEnd⟩, none⟩ [.list "body" body] := by
  simp only [program, ensures_bind, ensures_get, make_draft, ensures_pure]
  refine (ensures_many (fun cursor drafts after => cursor.Yields after drafts ∧ after.rest = [])
    ?_ cursor).mono ?_
  · intro cursor
    simp only [ensures_atEnd]
    refine ⟨fun atEnd => ⟨.refl cursor, List.isEmpty_iff.mp atEnd⟩, fun _ => ?_⟩
    refine (phrases.statement cursor).mono ?_
    rintro first next yieldsFirst rest after ⟨yieldsRest, done⟩
    exact ⟨yieldsFirst.append yieldsRest, done⟩
  · rintro body after ⟨⟨tokens, passes, covers⟩, done⟩
    have all := passes.rest
    rw [done, List.append_nil] at all
    exact ⟨done, body, all ▸ covers, by rw [passes.sourceEnd]⟩

/-- A draft read from tokens is a program whose body covers them. -/
theorem parseTokens_covers {tokens : List Token} {sourceEnd : Pos} {draft : Draft}
    (parsed : parseTokens tokens sourceEnd = .ok draft) :
    ∃ body, Covers tokens body ∧ draft =
      .branch ⟨"Program", some ⟨.origin, sourceEnd⟩, none⟩ [.list "body" body] := by
  unfold parseTokens at parsed
  split at parsed
  · rename_i read after success
    cases parsed
    exact (program_covers (readWithin_covers _) _ _ success).2
  · cases parsed

end Grammar

end SyntaxNav.Script

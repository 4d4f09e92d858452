import SyntaxNav.Proofs.Script.MadeExpressions

/-! # Making statements

Each production of a statement mirrors itself, if the phrases inside it do. Only a loop with its test behind
its body makes its fields in another order. So the whole grammar is made as it is read, however often it is
unrolled (`readWithin_mirrors`).
-/

namespace SyntaxNav.Script

variable {builder : Builder}

section Productions

variable {read : PhraseReader} {make : Phrase → Maker NodeId} (phrases : PhrasesMirror read make)

include phrases

private theorem declarator_mirrors : Mirrors (declarator read) (declarator make) builder (Makes builder) := by
  refine .share .here fun start => bindingName_mirrors.bind fun id _ _ idMade => ?_
  refine .share (.eatPunct "=") fun equals => .ite _ ?_ ?_
  · refine (phrases _ _).bind fun init _ _ initMade => ?_
    exact node_mirrors start none (by decide) (.single (.some idMade) (.single (.some initMade) .nil))
  · exact node_mirrors start none (by decide) (.single (.some idMade) (.single .none .nil))

private theorem declarators_mirror :
    Mirrors (declarators read) (declarators make) builder fun declared made later =>
      made.1 = declared.1 ∧ Each Makes builder declared.2 made.2 later := by
  refine .share .peek fun next => ?_
  split
  · refine .share .advance fun _ => ?_
    exact (commaSeparated_mirrors (fun _ => declarator_mirrors phrases) builder).bind
      fun _ _ _ each => .pure ⟨rfl, each⟩
  · exact .share .advance fun _ => .failExpected _

private theorem variableDeclaration_mirrors :
    Mirrors (variableDeclaration read) (variableDeclaration make) builder (Makes builder) := by
  refine .share .here fun start => (declarators_mirror phrases).bind ?_
  rintro ⟨word, declarations⟩ ⟨_, numbers⟩ _ ⟨rfl, each⟩
  exact .share .semicolon fun _ => node_mirrors start _ (by decide) (.list each .nil)

private theorem ifStatement_mirrors :
    Mirrors (ifStatement read) (ifStatement make) builder (Makes builder) := by
  refine .share .here fun start => .share .advance fun _ => ?_
  refine (parenthesized_mirrors phrases).bind fun test _ _ testMade => ?_
  refine (phrases _ _).bind fun consequent _ _ consequentMade => ?_
  refine .share (.eatWord "else") fun otherwise => .ite _ ?_ ?_
  · refine (phrases _ _).bind fun alternate _ _ alternateMade => ?_
    exact node_mirrors start none (by decide)
      (.single (.some testMade) (.single (.some consequentMade) (.single (.some alternateMade) .nil)))
  · exact node_mirrors start none (by decide)
      (.single (.some testMade) (.single (.some consequentMade) (.single .none .nil)))

private theorem loopInit_mirrors : Mirrors (loopInit read) (loopInit make) builder (MakesOption builder) := by
  refine .share (.atPunct ";") fun ends => .ite _ (.pure .none) ?_
  refine .share (.atWord "var") fun isVar => .share (.atWord "let") fun isLet => ?_
  refine .share (.atWord "const") fun isConst => .ite _ ?_ ?_
  · refine .share .here fun start => (declarators_mirror phrases).bind ?_
    rintro ⟨word, declarations⟩ ⟨_, numbers⟩ _ ⟨rfl, each⟩
    exact (node_mirrors start _ (by decide) (.list each .nil)).bind fun _ _ _ made => .pure (.some made)
  · exact (headExpression_mirrors phrases).bind fun _ _ _ made => .pure (.some made)

private theorem expressionUnless_mirrors (punct : String) :
    Mirrors (expressionUnless read punct) (expressionUnless make punct) builder
      (MakesOption builder) := by
  refine .share (.atPunct punct) fun ends => .ite _ (.pure .none) ?_
  exact (expression_mirrors phrases).bind fun _ _ _ made => .pure (.some made)

private theorem forStatement_mirrors :
    Mirrors (forStatement read) (forStatement make) builder (Makes builder) := by
  refine .share .here fun start => .share .advance fun _ => .share (.expectPunct "(") fun _ => ?_
  refine (loopInit_mirrors phrases).bind fun init _ _ initMade => ?_
  refine .share (.atWord "of") fun isOf => .share (.atWord "in") fun isIn => .ite _ (.fail _) ?_
  refine .share (.expectPunct ";") fun _ => ?_
  refine (expressionUnless_mirrors phrases ";").bind fun test _ _ testMade => ?_
  refine .share (.expectPunct ";") fun _ => ?_
  refine (expressionUnless_mirrors phrases ")").bind fun update _ _ updateMade => ?_
  refine .share (.expectPunct ")") fun _ => (phrases _ _).bind fun body _ _ bodyMade => ?_
  exact node_mirrors start none (by decide)
    (.single initMade (.single testMade (.single updateMade (.single (.some bodyMade) .nil))))

private theorem whileStatement_mirrors :
    Mirrors (whileStatement read) (whileStatement make) builder (Makes builder) := by
  refine .share .here fun start => .share .advance fun _ => ?_
  refine (parenthesized_mirrors phrases).bind fun test _ _ testMade => ?_
  refine (phrases _ _).bind fun body _ _ bodyMade => ?_
  exact node_mirrors start none (by decide) (.single (.some testMade) (.single (.some bodyMade) .nil))

private theorem doWhileStatement_mirrors :
    Mirrors (doWhileStatement read) (doWhileStatement make) builder (Makes builder) := by
  refine .share .here fun start => .share .advance fun _ => ?_
  refine (phrases _ _).bind fun body _ _ bodyMade => .share (.eatWord "while") fun found => ?_
  refine .ite _ (.failExpected _) ?_
  refine (parenthesized_mirrors phrases).bind fun test _ _ testMade => ?_
  exact .share (.discard (.eatPunct ";")) fun _ => doWhile_mirrors start bodyMade testMade

private theorem returnedValue_mirrors :
    Mirrors (returnedValue read) (returnedValue make) builder (MakesOption builder) := by
  refine .share .get fun cursor => ?_
  split
  · exact .pure .none
  · refine .ite _ (.pure .none) ?_
    exact (expression_mirrors phrases).bind fun _ _ _ made => .pure (.some made)

private theorem returnStatement_mirrors :
    Mirrors (returnStatement read) (returnStatement make) builder (Makes builder) := by
  refine .share .here fun start => .share .advance fun _ => ?_
  refine (returnedValue_mirrors phrases).bind fun value _ _ made => .share .semicolon fun _ => ?_
  exact node_mirrors start none (by decide) (.single made .nil)

private theorem throwStatement_mirrors :
    Mirrors (throwStatement read) (throwStatement make) builder (Makes builder) := by
  refine .share .here fun start => .share .advance fun _ => ?_
  refine (expression_mirrors phrases).bind fun value _ _ made => .share .semicolon fun _ => ?_
  exact node_mirrors start none (by decide) (.single (.some made) .nil)

omit phrases in
private theorem jumpStatement_mirrors {kind : String} (forward : kind ≠ "DoWhileStatement") :
    Mirrors (jumpStatement kind) (jumpStatement kind) builder (Makes builder) := by
  refine .share .here fun start => .share .advance fun _ => .share .noLabel fun _ => ?_
  exact .share .semicolon fun _ => node_mirrors start none forward .nil

private theorem handler_mirrors : Mirrors (handler read) (handler make) builder (MakesOption builder) := by
  have rest (start : Pos) (param : Option Draft) (number : Option NodeId) (later : Builder)
      (paramMade : MakesOption builder param number later) :
      Mirrors
        (do
          let body ← block read
          return some (← node "CatchClause" start none [.single "param" param, .single "body" body]))
        (do
          let body ← block make
          return some (← node "CatchClause" start none [.single "param" number, .single "body" body]))
        later (MakesOption builder) := by
    refine (block_mirrors phrases).bind fun body _ _ bodyMade => ?_
    exact (node_mirrors start none (by decide) (.single paramMade (.single (.some bodyMade) .nil))).bind
      fun _ _ _ made => .pure (.some made)
  refine .share .here fun start => .share (.eatWord "catch") fun caught => .ite _ ?_ (.pure .none)
  refine .share (.eatPunct "(") fun named => .ite _ ?_ (rest start _ _ _ .none)
  refine bindingName_mirrors.bind fun name _ _ made => .share (.expectPunct ")") fun _ => ?_
  exact rest start _ _ _ (.some made)

private theorem tryStatement_mirrors :
    Mirrors (tryStatement read) (tryStatement make) builder (Makes builder) := by
  have rest {middle later : Builder} {body : Draft} {number : NodeId} {handler : Option Draft}
      {handlerNumber : Option NodeId} (start : Pos) (bodyMade : Makes builder body number middle)
      (handlerMade : MakesOption middle handler handlerNumber later)
      (finalizer : Option Draft) (finalizerNumber : Option NodeId) (last : Builder)
      (finalizerMade : MakesOption later finalizer finalizerNumber last) :
      Mirrors
        (do
          if handler.isNone && finalizer.isNone then
            failExpected "'catch' or 'finally'"
          node "TryStatement" start none
            [.single "block" body, .single "handler" handler, .single "finalizer" finalizer])
        (do
          if handlerNumber.isNone && finalizerNumber.isNone then
            failExpected "'catch' or 'finally'"
          node "TryStatement" start none
            [.single "block" number, .single "handler" handlerNumber,
              .single "finalizer" finalizerNumber])
        last (Makes builder) := by
    rw [handlerMade.isNone_eq, finalizerMade.isNone_eq]
    refine .ite _ (.share (.failExpected _) fun _ => ?_) ?_ <;>
      exact node_mirrors start none (by decide)
        (.single (.some bodyMade) (.single handlerMade (.single finalizerMade .nil)))
  refine .share .here fun start => .share .advance fun _ => ?_
  refine (block_mirrors phrases).bind fun body _ _ bodyMade => ?_
  refine (handler_mirrors phrases).bind fun handler _ _ handlerMade => ?_
  refine .share (.eatWord "finally") fun finishes => .ite _ ?_ (rest start bodyMade handlerMade _ _ _ .none)
  refine (block_mirrors phrases).bind fun finalizer _ _ made => ?_
  exact rest start bodyMade handlerMade _ _ _ (.some made)

private theorem caseTest_mirrors : Mirrors (caseTest read) (caseTest make) builder (MakesOption builder) := by
  refine .share (.eatWord "case") fun isCase => .ite _ ?_ ?_
  · exact (expression_mirrors phrases).bind fun _ _ _ made => .pure (.some made)
  · exact .share (.eatWord "default") fun isDefault => .ite _ (.pure .none) (.failExpected _)

omit phrases in
private theorem atCaseEnd_shares : Shares atCaseEnd atCaseEnd :=
  fun _ _ => rfl

private theorem switchCase_mirrors : Mirrors (switchCase read) (switchCase make) builder (Makes builder) := by
  refine .share .here fun start => (caseTest_mirrors phrases).bind fun test _ middle testMade => ?_
  refine .share (.expectPunct ":") fun _ => ?_
  refine (many_mirrors atCaseEnd_shares (fun _ => statementInBraces_mirrors phrases) middle).bind
    fun consequent _ _ each => ?_
  exact node_mirrors start none (by decide) (.single testMade (.list each .nil))

private theorem switchStatement_mirrors :
    Mirrors (switchStatement read) (switchStatement make) builder (Makes builder) := by
  refine .share .here fun start => .share .advance fun _ => ?_
  refine (parenthesized_mirrors phrases).bind fun discriminant _ middle made => ?_
  refine .share (.expectPunct _) fun _ => ?_
  refine (many_mirrors (.eatPunct _) (fun _ => switchCase_mirrors phrases) middle).bind
    fun cases _ _ each => ?_
  exact node_mirrors start none (by decide) (.single (.some made) (.list each .nil))

/-- A member of a class is made after its parts. -/
theorem classMember_mirrors : Mirrors (classMember read) (classMember make) builder (Makes builder) := by
  have rest (start : Pos) (text : Option String) :
      Mirrors
        (do
          let key ← propertyKey read
          if ← atPunct "(" then
            method read "ClassMethod" start text key
          else
            let value ← if ← eatPunct "=" then pure (some (← read .assignment)) else pure none
            semicolon
            node "ClassProperty" start text [.single "key" key, .single "value" value])
        (do
          let key ← propertyKey make
          if ← atPunct "(" then
            method make "ClassMethod" start text key
          else
            let value ← if ← eatPunct "=" then pure (some (← make .assignment)) else pure none
            semicolon
            node "ClassProperty" start text [.single "key" key, .single "value" value])
        builder (Makes builder) := by
    refine (propertyKey_mirrors phrases).bind fun key _ _ keyMade => .share (.atPunct "(") fun called => ?_
    refine .ite _ (method_mirrors phrases start text (by decide) keyMade) ?_
    refine .share (.eatPunct "=") fun equals => .ite _ ?_ ?_
    · refine (phrases _ _).bind fun value _ _ valueMade => .share .semicolon fun _ => ?_
      exact node_mirrors start text (by decide) (.single (.some keyMade) (.single (.some valueMade) .nil))
    · refine .share .semicolon fun _ => ?_
      exact node_mirrors start text (by decide) (.single (.some keyMade) (.single .none .nil))
  refine .share .here fun start => .share .get fun cursor => .ite _ ?_ (rest start _)
  exact .share .advance fun _ => rest start _

private theorem classItem_mirrors :
    Mirrors (classItem read) (classItem make) builder (MakesOption builder) := by
  refine .share (.eatPunct ";") fun nothing => .ite _ (.pure .none) ?_
  exact (classMember_mirrors phrases).bind fun _ _ _ made => .pure (.some made)

private theorem classBody_mirrors : Mirrors (classBody read) (classBody make) builder (Makes builder) := by
  refine .share .here fun start => .share (.expectPunct _) fun _ => ?_
  refine (many_mirrors (.eatPunct _) (fun _ => classItem_mirrors phrases) builder).bind
    fun items _ _ each => ?_
  exact node_mirrors start none (by decide) (.list each.filterMap .nil)

private theorem classDeclaration_mirrors :
    Mirrors (classDeclaration read) (classDeclaration make) builder (Makes builder) := by
  refine .share .here fun start => .share .advance fun _ => ?_
  refine bindingName_mirrors.bind fun id _ _ idMade => ?_
  refine .share (.eatWord "extends") fun inherits => .ite _ ?_ ?_
  · refine (chain_mirrors phrases).bind fun superClass _ _ superMade => ?_
    refine (classBody_mirrors phrases).bind fun body _ _ bodyMade => ?_
    exact node_mirrors start none (by decide)
      (.single (.some idMade) (.single (.some superMade) (.single (.some bodyMade) .nil)))
  · refine (classBody_mirrors phrases).bind fun body _ _ bodyMade => ?_
    exact node_mirrors start none (by decide)
      (.single (.some idMade) (.single .none (.single (.some bodyMade) .nil)))

private theorem expressionStatement_mirrors :
    Mirrors (expressionStatement read) (expressionStatement make) builder (Makes builder) := by
  refine .share .here fun start => (expression_mirrors phrases).bind fun inner _ _ made => ?_
  exact .share .semicolon fun _ => node_mirrors start none (by decide) (.single (.some made) .nil)

private theorem statement_mirrors : Mirrors (statement read) (statement make) builder (Makes builder) := by
  refine .share .here fun start => .share .peek fun next => ?_
  split
  · exact .failExpected _
  · exact block_mirrors phrases
  · exact constant_mirrors (by decide)
  · exact function_mirrors phrases true (by decide)
  · exact classDeclaration_mirrors phrases
  · exact variableDeclaration_mirrors phrases
  · exact variableDeclaration_mirrors phrases
  · refine .share .get fun cursor => ?_
    exact .ite _ (variableDeclaration_mirrors phrases) (expressionStatement_mirrors phrases)
  · exact ifStatement_mirrors phrases
  · exact forStatement_mirrors phrases
  · exact whileStatement_mirrors phrases
  · exact doWhileStatement_mirrors phrases
  · exact returnStatement_mirrors phrases
  · exact throwStatement_mirrors phrases
  · exact jumpStatement_mirrors (by decide)
  · exact jumpStatement_mirrors (by decide)
  · exact tryStatement_mirrors phrases
  · exact switchStatement_mirrors phrases
  · exact .failAt _ _
  · exact .failAt _ _
  · exact expressionStatement_mirrors phrases

end Productions

/-- A phrase is made as it is read, however often the grammar is unrolled. -/
theorem readWithin_mirrors (limit : Nat) :
    PhrasesMirror (Phrase.readWithin limit) (Phrase.readWithin limit) := by
  induction limit with
  | zero => exact fun _ _ => .fail _
  | succ limit ih =>
    intro phrase builder
    cases phrase with
    | statement => exact .nested (statement_mirrors ih)
    | assignment => exact assignment_mirrors ih
    | binary least allowIn => exact binary_mirrors ih least allowIn
    | unary => exact .nested (unary_mirrors ih)
    | construction => exact construction_mirrors ih

/-- A whole program is made as it is read. -/
theorem program_mirrors {read : PhraseReader} {make : Phrase → Maker NodeId}
    (phrases : PhrasesMirror read make) (builder : Builder) :
    Mirrors (program read) (program make) builder (Makes builder) := by
  refine (many_mirrors .atEnd (fun _ => phrases _ _) builder).bind fun body _ _ each => ?_
  exact .share .get fun cursor => make_mirrors (by simp) (.list each .nil)

end SyntaxNav.Script

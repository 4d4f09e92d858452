import SyntaxNav.Proofs.Script.FormedStatements
import SyntaxNav.Proofs.Script.RereadExpressions

/-! # Statements are read back

What is written for each form of statement, clause and class member is read back, if what is written for
its parts is. A statement may be followed by any token that does not continue it: the word `finally` never
follows a statement that was written, and the word `else` follows none that is open.
-/

namespace SyntaxNav.Script

open Phrase (readWithin)

def statementStarts : List TokenKind :=
  [.punct "\x7b", .punct ";", .punct "(", .word "function", .word "class", .word "var", .word "let",
    .word "const", .word "if", .word "for", .word "while", .word "do", .word "return", .word "throw",
    .word "break", .word "continue", .word "try", .word "switch"]

def isStatementStart (kind : TokenKind) : Bool :=
  statementStarts.contains kind

/-- What is written for a statement is read back in front of what does not continue it. -/
structure Stated (draft : Draft) : Prop where
  starts : Starts (pieceOf draft).closed isStatementStart
  reads : ∀ limit rest, 5 * (pieceOf draft).closed.length ≤ limit → rest.head? ≠ some (.word "finally") →
    (isOpen draft = true → rest.head? ≠ some (.word "else")) →
    Rereads (readWithin limit .statement) (pieceOf draft).closed draft rest

section Ends

variable {kind : String} {text : Option String} {fields : List (Field Draft)}

/-- Some statements are written with a semicolon behind them. -/
theorem closed_semicolon (closed : closedKinds.contains kind = true) :
    (pieceOf (tree kind text fields)).closed = tokensOf (tree kind text fields) ++ [.punct ";"] :=
  if_pos closed

/-- The other statements are written as they are. -/
theorem closed_plain (plain : closedKinds.contains kind = false) :
    (pieceOf (tree kind text fields)).closed = tokensOf (tree kind text fields) :=
  if_neg (Bool.eq_false_iff.mp plain)

end Ends

/-- A statement is read back if the reader of statements reads it back one level deeper. -/
theorem Stated.of_statement {draft : Draft} {kinds : List TokenKind}
    (writes : (pieceOf draft).closed = kinds) (starts : Starts kinds isStatementStart)
    (reads : ∀ limit rest, 5 * kinds.length ≤ limit + 1 → rest.head? ≠ some (.word "finally") →
      (isOpen draft = true → rest.head? ≠ some (.word "else")) →
      Rereads (statement (readWithin limit)) kinds draft rest) : Stated draft := by
  subst writes
  refine ⟨starts, ?_⟩
  intro limit rest enough noFinally noElse
  have size := starts.length_pos
  obtain ⟨limit, rfl⟩ : ∃ inner, limit = inner + 1 := ⟨limit - 1, by omega⟩
  exact (reads limit rest enough noFinally noElse).nested

section Blocks

variable {items : List Draft} {limit depth : Nat} {ending : List TokenKind} {stop : Reader Bool}
  {item : Reader Draft}

/-- Statements are read back up to their end. -/
theorem gives_statements (after : List TokenKind) (each : ∀ draft ∈ items, Stated draft)
    (goes : ∀ kinds, Starts kinds isStatementStart → Gives stop (.over kinds depth)
      fun stopped middle => stopped = false ∧ middle = .over kinds depth)
    (reads : ∀ draft kinds rest, Starts kinds isStatementStart →
      Rereads (readWithin limit .statement) kinds draft rest → Rereads item kinds draft rest)
    (stops : Gives stop (.over ending depth) fun stopped middle =>
      stopped = true ∧ middle = .over after depth)
    (noFinally : ending.head? ≠ some (.word "finally")) (noElse : ending.head? ≠ some (.word "else"))
    (enough : 5 * (items.flatMap fun draft => (pieceOf draft).closed).length ≤ limit)
    {holds : List Draft → Cursor → Prop} (holding : holds items (.over after depth)) :
    Gives (many stop item)
      (.over ((items.flatMap fun draft => (pieceOf draft).closed) ++ ending) depth) holds := by
  have repeats : Repeats stop item [] (fun draft => (pieceOf draft).closed)
      (fun rest => rest.head? ≠ some (.word "finally") ∧ rest.head? ≠ some (.word "else"))
      items depth := by
    constructor
    · intro draft member rest
      exact goes _ ((each draft member).starts.append rest)
    · rintro draft member rest ⟨noFinally, noElse⟩
      have shorter := length_le_flatMap (fun draft => (pieceOf draft).closed) member
      apply reads draft _ _ (each draft member).starts
      exact (each draft member).reads limit rest (by omega) noFinally fun _ => noElse
    · intro draft member rest
      have starts := (each draft member).starts.append rest
      exact ⟨starts.head?_ne (by decide), starts.head?_ne (by decide)⟩
  have again := repeats.many ending after ⟨noFinally, noElse⟩
    (fun draft member => (each draft member).starts.ne_nil) stops
  apply again.mono
  rintro _ _ ⟨rfl, rfl⟩
  exact holding

private theorem statementInBraces_reread {read : PhraseReader} {draft : Draft} {kinds rest : List TokenKind}
    (starts : Starts kinds isStatementStart) (reads : Rereads (read .statement) kinds draft rest) :
    Rereads (statementInBraces read) kinds draft rest := by
  intro depth
  have someToken : (kinds ++ rest).isEmpty = false := by
    obtain ⟨first, more, rfl, -⟩ := starts
    rfl
  simp only [statementInBraces, gives_bind, gives_atEnd, someToken, Bool.false_eq_true, ↓reduceIte]
  exact reads depth

/-- A block is read back if its statements are. -/
theorem block_blocked (each : ∀ draft ∈ items, Stated draft) :
    Blocked (tree "BlockStatement" none [.list "body" items]) := by
  refine ⟨rfl, ⟨_, tokensOf_block items⟩, ?_⟩
  intro limit rest enough depth
  rw [tokensOf_block] at enough ⊢
  rw [length_braces] at enough
  simp only [block, braces, gives_bind, gives_here, List.cons_append, gives_expectPunct,
    List.append_assoc, List.nil_append]
  apply gives_statements rest each _ fun _ _ _ => statementInBraces_reread
  · simp
  · simp
  · simp
  · omega
  · simp
  · intro kinds starts
    have going : kinds.head? ≠ some (.punct "\x7d") := starts.head?_ne (by decide)
    simp [going]

/-- A block is a statement. -/
theorem Blocked.stated {draft : Draft} (blocked : Blocked draft) : Stated draft := by
  obtain ⟨inner, writes⟩ := blocked.braces
  have same : (pieceOf draft).closed = tokensOf draft := by
    apply if_neg
    rw [pieceOf_kind, blocked.kind]
    decide
  apply Stated.of_statement same
  · rw [writes]
    exact .cons (by decide)
  · intro limit rest enough _ _
    have reads := blocked.reads limit rest (by omega)
    rw [writes] at reads ⊢
    exact reads

end Blocks

section Declarations

variable {id body : Draft} {init : Option Draft} {params items : List Draft}

theorem empty_stated : Stated (tree "EmptyStatement" none []) := by
  have writes : (pieceOf (tree "EmptyStatement" none [])).closed = [.punct ";"] := by
    rw [closed_plain (by decide), tokensOf_statement rfl, statementTokens]
  apply Stated.of_statement writes (.cons (by decide))
  exact fun _ _ _ _ _ _ => ⟨rfl, rfl⟩

/-- A declaration of a function is read back. -/
theorem functionDeclaration_stated (named : Named id)
    (each : ∀ draft ∈ params, Item param (tokensOf draft) draft) (blocked : Blocked body) :
    Stated (tree "FunctionDeclaration" none
      [.single "id" id, .list "params" params, .single "body" body]) := by
  apply Stated.of_statement ((closed_plain (by decide)).trans (tokensOf_functionDeclaration _ _ _))
    (.cons (by decide))
  intro limit rest enough _ _
  simp only [List.length_cons, List.length_append, length_parens] at enough
  have names : ∀ draft ∈ some id, Named draft := by
    rintro _ ⟨⟩
    exact named
  have reads : Rereads (function (readWithin limit) "FunctionDeclaration" true) _ _ rest :=
    function_reread names (fun _ => rfl) each blocked (by omega) rest
  rw [flatMap_some] at reads
  exact reads

/-- A name with its initial value is read back. -/
theorem declarator_item (named : Named id) (expressed : ∀ draft ∈ init, Expressed draft) :
    Item declarator (tokensOf (tree "VariableDeclarator" none [.single "id" id, .single "init" init]))
      (tree "VariableDeclarator" none [.single "id" id, .single "init" init]) := by
  rw [tokensOf_declarator]
  refine ⟨named.starts.append _, ?_⟩
  intro limit close rest enough ends depth
  simp only [declarator, gives_bind, gives_here, List.append_assoc]
  apply named.gives
  cases init with
  | none =>
    have noValue : ∀ close ∈ itemEnds, close ≠ "=" := by decide
    simp [noValue close ends]
  | some value =>
    have operand := (expressed value rfl).operand
    simp only [flatMap_some, List.length_append, List.length_cons] at enough
    simp only [flatMap_some, gives_eatPunct, List.cons_append, List.head?_cons, ↓reduceIte, List.tail_cons,
      gives_bind]
    apply (operand.assignment (by omega) (itemEnds_expressionEnds close ends)).gives
    simp

/-- What is written for a declaration of variables is read back in front of a semicolon. -/
structure Declared (draft : Draft) : Prop where
  shape : ∃ word declarations, draft = tree "VariableDeclaration" (some word)
      [.list "declarations" declarations] ∧
    (word = "var" ∨ word = "let" ∨ word = "const") ∧
    (∃ name more, tokensOf draft = .word word :: .word name :: more) ∧
    ∀ limit rest, 5 * (tokensOf draft).length ≤ limit + 5 →
      Rereads (declarators (readWithin limit)) (tokensOf draft) (word, declarations)
        (.punct ";" :: rest)

/-- A declaration of variables is read back up to its semicolon. -/
theorem declaration_declared {word : String} {first : Draft} {others : List Draft}
    (declares : word = "var" ∨ word = "let" ∨ word = "const")
    (starts : ∃ name more, tokensOf first = .word name :: more)
    (each : ∀ draft ∈ first :: others, Item declarator (tokensOf draft) draft) :
    Declared (tree "VariableDeclaration" word [.list "declarations" (first :: others)]) := by
  refine ⟨⟨word, first :: others, rfl, declares, ?_, ?_⟩⟩
  · obtain ⟨name, more, same⟩ := starts
    rw [tokensOf_declaration, List.map_cons, commas_cons, same]
    exact ⟨name, _, rfl⟩
  · intro limit rest enough depth
    rw [tokensOf_declaration] at enough ⊢
    rw [List.length_cons] at enough
    have reads : Rereads (commaSeparated (declarator (readWithin limit)))
        (commas ((first :: others).map tokensOf)) (first :: others) (.punct ";" :: rest) := by
      apply commaSeparated_gives (by decide)
      intro draft member next ends rest
      have shorter := length_le_commas tokensOf member
      have known : ∀ next ∈ [",", ";"], next ∈ itemEnds := by decide
      exact (each draft member).reads limit next rest (by omega) (known next ends)
    simp only [declarators, gives_bind, gives_peek, List.cons_append, List.head?_cons, gives_advance]
    apply reads.gives
    simp

/-- A declaration of variables is a statement. -/
theorem Declared.stated {draft : Draft} (declared : Declared draft) : Stated draft := by
  obtain ⟨word, declarations, rfl, declares, ⟨name, more, writes⟩, reads⟩ := declared.shape
  have declaration (limit depth : Nat) (rest : List TokenKind)
      (enough : 5 * (tokensOf (tree "VariableDeclaration" (some word)
        [.list "declarations" declarations]) ++ [TokenKind.punct ";"]).length ≤ limit + 1) :
      Gives (variableDeclaration (readWithin limit)) (.over (tokensOf (tree "VariableDeclaration"
        (some word) [.list "declarations" declarations]) ++ (.punct ";" :: rest)) depth)
        fun again after => again = tree "VariableDeclaration" (some word)
          [.list "declarations" declarations] ∧ after = .over rest depth := by
    rw [List.length_append, List.length_singleton] at enough
    simp only [variableDeclaration, gives_bind, gives_here]
    apply (reads limit rest (by omega)).gives
    simp
  apply Stated.of_statement (closed_semicolon (by decide))
  · rw [writes]
    apply Starts.cons
    rcases declares with rfl | rfl | rfl <;> decide
  · intro limit rest enough _ _ depth
    have reads := declaration limit depth rest enough
    rw [writes] at reads
    rw [List.append_assoc, writes]
    rcases declares with rfl | rfl | rfl
    all_goals exact reads

end Declarations

section ControlFlow

variable {test consequent body draft : Draft} {alternate init condition update : Option Draft}

/-- A conditional statement is read back; one with an alternative needs a consequent that could not take
it. -/
theorem if_stated (expressed : Expressed test) (stated : Stated consequent)
    (statedElse : ∀ draft ∈ alternate, Stated draft)
    (closed : alternate.isSome = true → isOpen consequent = false) :
    Stated (tree "IfStatement" none
      [.single "test" test, .single "consequent" consequent, .single "alternate" alternate]) := by
  apply Stated.of_statement ((closed_plain (by decide)).trans (tokensOf_if _ _ _))
    (.cons (by decide))
  intro limit rest enough noFinally noElse depth
  simp only [List.length_cons, List.length_append, length_parens] at enough
  apply Gives.of_eq (ifStatement (readWithin limit)) (by rfl)
  simp only [ifStatement, gives_bind, gives_here, List.cons_append, List.append_assoc, gives_advance]
  apply (expressed.operand.parenthesized (by omega)).gives
  cases alternate with
  | none =>
    rw [isOpen_if] at noElse
    simp only [Option.toList_none, List.flatMap_nil, List.nil_append]
    apply (stated.reads limit rest (by omega) noFinally fun _ => noElse rfl).gives
    simp [noElse rfl]
  | some alternate =>
    rw [isOpen_ifElse] at noElse
    have statedElse := statedElse alternate rfl
    simp only [flatMap_some, List.length_cons] at enough
    simp only [flatMap_some, List.cons_append]
    -- The consequent is not open, so the word behind it is left for this statement.
    have reads := stated.reads limit (.word "else" :: ((pieceOf alternate).closed ++ rest)) (by omega)
      (by simp) (by simp [closed rfl])
    apply reads.gives
    simp only [gives_eatWord, List.head?_cons, ↓reduceIte, List.tail_cons, gives_bind]
    apply (statedElse.reads limit rest (by omega) noFinally noElse).gives
    simp

/-- A loop with its test in front is read back. -/
theorem while_stated (expressed : Expressed test) (stated : Stated body) :
    Stated (tree "WhileStatement" none [.single "test" test, .single "body" body]) := by
  apply Stated.of_statement ((closed_plain (by decide)).trans (tokensOf_while _ _))
    (.cons (by decide))
  intro limit rest enough noFinally noElse depth
  simp only [List.length_cons, List.length_append, length_parens] at enough
  rw [isOpen_while] at noElse
  apply Gives.of_eq (whileStatement (readWithin limit)) (by rfl)
  simp only [whileStatement, gives_bind, gives_here, List.cons_append, List.append_assoc, gives_advance]
  apply (expressed.operand.parenthesized (by omega)).gives
  apply (stated.reads limit rest (by omega) noFinally noElse).gives
  simp

/-- A loop with its test behind is read back. -/
theorem doWhile_stated (expressed : Expressed test) (stated : Stated body) :
    Stated (tree "DoWhileStatement" none [.single "test" test, .single "body" body]) := by
  have writes : (pieceOf (tree "DoWhileStatement" none
      [.single "test" test, .single "body" body])).closed = .word "do" :: ((pieceOf body).closed ++
        .word "while" :: (parens (pieceOf test).operand ++ [.punct ";"])) := by
    rw [closed_semicolon (by decide), tokensOf_doWhile]
    simp
  apply Stated.of_statement writes (.cons (by decide))
  intro limit rest enough noFinally noElse depth
  simp only [List.length_cons, List.length_append, length_parens] at enough
  apply Gives.of_eq (doWhileStatement (readWithin limit)) (by rfl)
  simp only [doWhileStatement, gives_bind, gives_here, List.cons_append, List.append_assoc,
    gives_advance]
  have reads := stated.reads limit
    (.word "while" :: (parens (pieceOf test).operand ++ .punct ";" :: rest)) (by omega) (by simp) (by simp)
  apply reads.gives
  simp only [gives_eatWord, List.head?_cons, ↓reduceIte, List.tail_cons, Bool.not_true,
    Bool.false_eq_true, gives_bind]
  apply (expressed.operand.parenthesized (by omega)).gives
  simp

/-- What a loop may start with: a declaration, or an expression in parentheses. -/
structure LoopStart (draft : Draft) : Prop where
  starts : Starts (pieceOf draft).loopInit isStatementStart
  notEmpty : (pieceOf draft).loopInit.head? ≠ some (.punct ";")
  reads : ∀ limit rest, 5 * (pieceOf draft).loopInit.length ≤ limit + 2 →
    Rereads (loopInit (readWithin limit)) (pieceOf draft).loopInit (some draft) (.punct ";" :: rest)

/-- A loop may start with a declaration. -/
theorem Declared.loopStart (declared : Declared draft) : LoopStart draft := by
  obtain ⟨word, declarations, rfl, declares, ⟨name, more, writes⟩, reads⟩ := declared.shape
  have same : (pieceOf (tree "VariableDeclaration" (some word)
      [.list "declarations" declarations])).loopInit = tokensOf (tree "VariableDeclaration" (some word)
      [.list "declarations" declarations]) := if_pos rfl
  have declaring : (word = "var" ∨ word = "let") ∨ word = "const" := by
    rwa [or_assoc]
  refine ⟨?_, ?_, ?_⟩
  · rw [same, writes]
    apply Starts.cons
    rcases declares with rfl | rfl | rfl <;> decide
  · rw [same, writes]
    simp
  · intro limit rest enough depth
    rw [same] at enough ⊢
    have reads := reads limit rest (by omega)
    rw [writes] at reads ⊢
    simp only [loopInit, gives_bind, gives_atPunct, gives_atWord, List.cons_append, List.head?_cons,
      Option.some.injEq, reduceCtorEq, decide_false, Bool.false_eq_true, ↓reduceIte,
      TokenKind.word.injEq, Bool.or_eq_true, decide_eq_true_eq, declaring, gives_here]
    apply reads.gives
    simp

/-- A loop may start with an expression. -/
theorem Expressed.loopStart (formed : Formed .expression draft) (expressed : Expressed draft) :
    LoopStart draft := by
  have same := formed.loopInit_of_expression
  have operand : Operand (parens (tokensOf draft)) draft :=
    expressed.enclosed.operand formed.paired
  refine ⟨?_, ?_, ?_⟩
  · rw [same]
    exact .cons (by decide)
  · rw [same]
    simp [parens]
  · intro limit rest enough depth
    rw [same] at enough ⊢
    have item : Rereads (headExpression (readWithin limit)) (parens (tokensOf draft)) draft
        (.punct ";" :: rest) := by
      apply rereads_sequence _ (by decide)
      intro depth
      have ends : assignmentOperator? (.punct ";") = none := by decide
      simp only [gives_bind, gives_here]
      apply (operand.binary (by omega) (by decide) (by decide) 1 false).gives
      simp [assignmentTo, ends]
    have opens : (parens (tokensOf draft) ++ .punct ";" :: rest).head? = some (.punct "(") := rfl
    simp only [loopInit, gives_bind, gives_atPunct, gives_atWord, opens, Option.some.injEq,
      TokenKind.punct.injEq, String.reduceEq, reduceCtorEq, decide_false, Bool.or_self,
      Bool.false_eq_true, ↓reduceIte]
    apply item.gives
    simp

private theorem expressionUnless_reread {value : Option Draft} (expressed : ∀ draft ∈ value, Expressed draft)
    {close : String} (ends : close ∈ expressionEnds) (closes : close ≠ ",")
    (apart : isOperandStart (.punct close) = false) {limit : Nat}
    (enough : 5 * (value.toList.flatMap fun draft => (pieceOf draft).operand).length ≤ limit + 2)
    (rest : List TokenKind) :
    Rereads (expressionUnless (readWithin limit) close)
      (value.toList.flatMap fun draft => (pieceOf draft).operand) value (.punct close :: rest) := by
  intro depth
  cases value with
  | none => simp [expressionUnless]
  | some draft =>
    have operand := (expressed draft rfl).operand
    have someToken : ((pieceOf draft).operand ++ .punct close :: rest).head? ≠ some (.punct close) :=
      (operand.starts.append _).head?_ne apart
    rw [flatMap_some] at enough ⊢
    simp only [expressionUnless, gives_bind, gives_atPunct, someToken, decide_false, Bool.false_eq_true,
      ↓reduceIte]
    apply (operand.expression enough ends closes).gives
    simp

private theorem loopInit_reread (start : ∀ draft ∈ init, LoopStart draft) {limit : Nat}
    (enough : 5 * (init.toList.flatMap fun draft => (pieceOf draft).loopInit).length ≤ limit + 2)
    (rest : List TokenKind) :
    Rereads (loopInit (readWithin limit))
      (init.toList.flatMap fun draft => (pieceOf draft).loopInit) init (.punct ";" :: rest) := by
  cases init with
  | none =>
    intro depth
    simp [loopInit]
  | some draft =>
    rw [flatMap_some] at enough ⊢
    exact (start draft rfl).reads limit rest enough

/-- A loop with three parts in its head is read back, whichever of them are missing. -/
theorem for_stated (start : ∀ draft ∈ init, LoopStart draft)
    (expressedTest : ∀ draft ∈ condition, Expressed draft)
    (expressedUpdate : ∀ draft ∈ update, Expressed draft) (stated : Stated body) :
    Stated (tree "ForStatement" none [.single "init" init, .single "test" condition,
      .single "update" update, .single "body" body]) := by
  apply Stated.of_statement ((closed_plain (by decide)).trans (tokensOf_for _ _ _ _))
    (.cons (by decide))
  intro limit rest enough noFinally noElse depth
  simp only [List.length_cons, List.length_append, length_parens] at enough
  rw [isOpen_for] at noElse
  apply Gives.of_eq (forStatement (readWithin limit)) (by rfl)
  simp only [forStatement, parens, gives_bind, gives_here, List.cons_append, List.append_assoc,
    List.nil_append, gives_advance, gives_expectPunct]
  apply (loopInit_reread start (by omega) _).gives
  simp only [gives_atWord, List.head?_cons, Option.some.injEq, reduceCtorEq, decide_false, Bool.or_self,
    Bool.false_eq_true, ↓reduceIte, gives_bind, gives_expectPunct]
  apply (expressionUnless_reread expressedTest (by decide) (by decide) (by decide) (by omega) _).gives
  simp only [gives_expectPunct]
  apply (expressionUnless_reread expressedUpdate (by decide) (by decide) (by decide) (by omega) _).gives
  simp only [gives_expectPunct]
  apply (stated.reads limit rest (by omega) noFinally noElse).gives
  simp

end ControlFlow

section Jumps

variable {argument body draft : Draft} {value param handler finalizer : Option Draft}

private theorem returnedValue_reread (expressed : ∀ draft ∈ value, Expressed draft) {limit : Nat}
    (enough : 5 * (value.toList.flatMap fun draft => (pieceOf draft).operand).length ≤ limit + 2)
    (rest : List TokenKind) :
    Rereads (returnedValue (readWithin limit))
      (value.toList.flatMap fun draft => (pieceOf draft).operand) value (.punct ";" :: rest) := by
  intro depth
  cases value with
  | none => exact ⟨rfl, rfl⟩
  | some draft =>
    have operand := (expressed draft rfl).operand
    rw [flatMap_some] at enough ⊢
    apply Gives.of_eq (do return some (← expression (readWithin limit)))
    · obtain ⟨kind, more, same, starts⟩ := operand.starts
      have going : ¬(false || decide (kind = .punct ";") || decide (kind = .punct "\x7d")) = true := by
        simp only [Bool.false_or, Bool.or_eq_true, decide_eq_true_eq]
        rintro (rfl | rfl) <;> exact absurd starts (by decide)
      rw [same]
      change (if (false || decide (kind = .punct ";") || decide (kind = .punct "\x7d")) = true then
        (pure none : Reader (Option Draft)) else (do return some (← expression (readWithin limit)))) _ = _
      rw [if_neg going]
    · simp only [gives_bind, gives_pure]
      apply (operand.expression enough (by decide) (by decide)).gives
      simp

/-- The end of a function's run is read back, with or without a value. -/
theorem return_stated (expressed : ∀ draft ∈ value, Expressed draft) :
    Stated (tree "ReturnStatement" none [.single "argument" value]) := by
  have writes : (pieceOf (tree "ReturnStatement" none [.single "argument" value])).closed =
      .word "return" :: ((value.toList.flatMap fun draft => (pieceOf draft).operand) ++
        [.punct ";"]) := by
    rw [closed_semicolon (by decide), tokensOf_return]
    simp
  apply Stated.of_statement writes (.cons (by decide))
  intro limit rest enough _ _ depth
  simp only [List.length_cons, List.length_append] at enough
  apply Gives.of_eq (returnStatement (readWithin limit)) (by rfl)
  simp only [returnStatement, gives_bind, gives_here, List.cons_append, List.append_assoc,
    List.nil_append, gives_advance]
  apply (returnedValue_reread expressed (by omega) rest).gives
  simp

theorem throw_stated (expressed : Expressed argument) :
    Stated (tree "ThrowStatement" none [.single "argument" argument]) := by
  have writes : (pieceOf (tree "ThrowStatement" none [.single "argument" argument])).closed =
      .word "throw" :: ((pieceOf argument).operand ++ [.punct ";"]) := by
    rw [closed_semicolon (by decide), tokensOf_throw]
    simp
  apply Stated.of_statement writes (.cons (by decide))
  intro limit rest enough _ _ depth
  simp only [List.length_cons, List.length_append] at enough
  apply Gives.of_eq (throwStatement (readWithin limit)) (by rfl)
  simp only [throwStatement, gives_bind, gives_here, List.cons_append, List.append_assoc,
    List.nil_append, gives_advance]
  apply (expressed.operand.expression (by omega) (by decide) (by decide)).gives
  simp

/-- An expression is read back as a statement from between parentheses. -/
theorem expressionStatement_stated (formed : Formed .expression draft) (expressed : Expressed draft) :
    Stated (tree "ExpressionStatement" none [.single "expression" draft]) := by
  have writes : (pieceOf (tree "ExpressionStatement" none [.single "expression" draft])).closed =
      parens (tokensOf draft) ++ [.punct ";"] := by
    rw [closed_semicolon (by decide), tokensOf_expressionStatement]
  have operand : Operand (parens (tokensOf draft)) draft :=
    expressed.enclosed.operand formed.paired
  apply Stated.of_statement writes (.cons (by decide))
  intro limit rest enough _ _ depth
  simp only [List.length_append, List.length_singleton] at enough
  rw [List.append_assoc]
  apply Gives.of_eq (expressionStatement (readWithin limit)) (by rfl)
  simp only [expressionStatement, gives_bind, gives_here, List.cons_append, List.nil_append]
  apply (operand.expression (by omega) (by decide) (by decide)).gives
  simp

theorem break_stated : Stated (tree "BreakStatement" none []) := by
  have writes : (pieceOf (tree "BreakStatement" none [])).closed = [.word "break", .punct ";"] := by
    rw [closed_semicolon (by decide), tokensOf_statement rfl, statementTokens]
    rfl
  apply Stated.of_statement writes (.cons (by decide))
  exact fun _ _ _ _ _ _ => ⟨rfl, rfl⟩

theorem continue_stated : Stated (tree "ContinueStatement" none []) := by
  have writes : (pieceOf (tree "ContinueStatement" none [])).closed =
      [.word "continue", .punct ";"] := by
    rw [closed_semicolon (by decide), tokensOf_statement rfl, statementTokens]
    rfl
  apply Stated.of_statement writes (.cons (by decide))
  exact fun _ _ _ _ _ _ => ⟨rfl, rfl⟩

/-- What is written for a handler is read back. -/
structure Handled (draft : Draft) : Prop where
  starts : ∃ more, tokensOf draft = .word "catch" :: more
  reads : ∀ limit rest, 5 * (tokensOf draft).length ≤ limit →
    Rereads (Script.handler (readWithin limit)) (tokensOf draft) (some draft) rest

/-- A handler is read back, with or without a name. -/
theorem catch_handled (named : ∀ draft ∈ param, Named draft) (blocked : Blocked body) :
    Handled (tree "CatchClause" none [.single "param" param, .single "body" body]) := by
  refine ⟨⟨_, tokensOf_catchClause _ _⟩, ?_⟩
  intro limit rest enough depth
  rw [tokensOf_catchClause] at enough ⊢
  simp only [List.length_cons, List.length_append] at enough
  simp only [Script.handler, gives_bind, gives_here, gives_eatWord, List.cons_append, List.head?_cons,
    ↓reduceIte, List.tail_cons, List.append_assoc]
  cases param with
  | none =>
    obtain ⟨inner, writes⟩ := blocked.braces
    have unnamed : (tokensOf body ++ rest).head? ≠ some (.punct "(") := by
      rw [writes]
      simp [braces]
    simp only [Option.toList_none, List.flatMap_nil, List.nil_append, gives_eatPunct, unnamed,
      ↓reduceIte, Bool.false_eq_true, gives_bind, gives_pure]
    apply (blocked.reads limit rest (by omega)).gives
    simp
  | some name =>
    have named := named name rfl
    simp only [flatMap_some, parens, gives_eatPunct, List.cons_append, List.head?_cons, ↓reduceIte,
      List.tail_cons, List.append_assoc, List.nil_append, gives_bind]
    apply named.gives
    simp only [gives_expectPunct, gives_pure]
    apply (blocked.reads limit rest (by omega)).gives
    simp

private theorem handler_reread (handled : ∀ draft ∈ handler, Handled draft) {limit : Nat}
    (enough : 5 * (handler.toList.flatMap tokensOf).length ≤ limit) {rest : List TokenKind}
    (noCatch : handler = none → rest.head? ≠ some (.word "catch")) :
    Rereads (Script.handler (readWithin limit)) (handler.toList.flatMap tokensOf) handler rest := by
  cases handler with
  | none =>
    intro depth
    simp [Script.handler, noCatch rfl]
  | some draft =>
    rw [flatMap_some] at enough ⊢
    exact (handled draft rfl).reads limit rest enough

/-- A block with a handler, a finalizer or both is read back. -/
theorem try_stated (blocked : Blocked body) (handled : ∀ draft ∈ handler, Handled draft)
    (blockedFinally : ∀ draft ∈ finalizer, Blocked draft)
    (ends : handler.isSome = true ∨ finalizer.isSome = true) :
    Stated (tree "TryStatement" none
      [.single "block" body, .single "handler" handler, .single "finalizer" finalizer]) := by
  apply Stated.of_statement ((closed_plain (by decide)).trans (tokensOf_try _ _ _)) (.cons (by decide))
  intro limit rest enough noFinally noElse depth
  simp only [List.length_cons, List.length_append] at enough
  apply Gives.of_eq (tryStatement (readWithin limit)) (by rfl)
  simp only [tryStatement, gives_bind, gives_here, List.cons_append, List.append_assoc, gives_advance]
  apply (blocked.reads limit _ (by omega)).gives
  cases finalizer with
  | none =>
    -- Without a last block there is a handler, so it does not matter which word follows.
    have someHandler : handler ≠ none := by
      rintro rfl
      simp at ends
    simp only [Option.toList_none, List.flatMap_nil, List.nil_append]
    apply (handler_reread handled (by omega) fun missing => absurd missing someHandler).gives
    simp [noFinally, someHandler]
  | some finalizer =>
    have blockedFinally := blockedFinally finalizer rfl
    simp only [flatMap_some, List.length_cons] at enough
    simp only [flatMap_some, List.cons_append]
    apply (handler_reread handled (by omega) fun _ => by simp).gives
    simp only [gives_eatWord, List.head?_cons, ↓reduceIte, List.tail_cons, gives_bind]
    apply (blockedFinally.reads limit rest (by omega)).gives
    simp

end Jumps

section Selections

variable {discriminant : Draft} {test : Option Draft} {items : List Draft}

def isCaseEnd (kind : TokenKind) : Bool :=
  [.word "case", .word "default", .punct "\x7d"].contains kind

def isCaseStart (kind : TokenKind) : Bool :=
  [.word "case", .word "default"].contains kind

/-- What is written for a case of a selection is read back in front of the next case or the end. -/
structure Selected (draft : Draft) : Prop where
  starts : Starts (tokensOf draft) isCaseStart
  reads : ∀ limit rest, 5 * (tokensOf draft).length ≤ limit → Starts rest isCaseEnd →
    Rereads (switchCase (readWithin limit)) (tokensOf draft) draft rest

private theorem caseTest_reread (expressed : ∀ draft ∈ test, Expressed draft) {limit : Nat}
    (enough : 5 * (test.elim [.word "default"] fun value => .word "case" ::
      (pieceOf value).operand).length ≤ limit) (rest : List TokenKind) :
    Rereads (caseTest (readWithin limit)) (test.elim [.word "default"] fun value => .word "case" ::
      (pieceOf value).operand) test (.punct ":" :: rest) := by
  intro depth
  cases test with
  | none => simp [caseTest]
  | some value =>
    have operand := (expressed value rfl).operand
    simp only [Option.elim_some, List.length_cons] at enough
    simp only [caseTest, Option.elim_some, gives_bind, gives_eatWord, List.cons_append, List.head?_cons,
      ↓reduceIte, List.tail_cons]
    apply (operand.expression (by omega) (by decide) (by decide)).gives
    simp

private theorem atCaseEnd_stops {rest : List TokenKind} (ends : Starts rest isCaseEnd) (depth : Nat) :
    Gives atCaseEnd (.over rest depth) fun stopped middle =>
      stopped = true ∧ middle = .over rest depth := by
  obtain ⟨kind, more, rfl, known⟩ := ends
  have known := List.contains_iff_mem.mp known
  simp only [List.mem_cons, List.not_mem_nil, or_false] at known
  rcases known with rfl | rfl | rfl <;> simp [atCaseEnd]

/-- A case is read back, with its statements. -/
theorem case_selected (expressed : ∀ draft ∈ test, Expressed draft) (each : ∀ draft ∈ items, Stated draft) :
    Selected (tree "SwitchCase" none [.single "test" test, .list "consequent" items]) := by
  refine ⟨?_, ?_⟩
  · rw [tokensOf_switchCase]
    cases test <;> exact .cons (by decide)
  · intro limit rest enough ends depth
    rw [tokensOf_switchCase] at enough ⊢
    simp only [List.length_append, List.length_cons] at enough
    simp only [switchCase, gives_bind, gives_here, List.append_assoc, List.cons_append]
    apply (caseTest_reread expressed (by omega) _).gives
    simp only [gives_expectPunct]
    apply gives_statements rest each _ (fun _ _ _ => statementInBraces_reread) (atCaseEnd_stops ends depth)
    · exact ends.head?_ne (by decide)
    · exact ends.head?_ne (by decide)
    · omega
    · simp
    · intro kinds starts
      have noCase : kinds.head? ≠ some (.word "case") := starts.head?_ne (by decide)
      have noDefault : kinds.head? ≠ some (.word "default") := starts.head?_ne (by decide)
      have noEnd : kinds.head? ≠ some (.punct "\x7d") := starts.head?_ne (by decide)
      simp [atCaseEnd, noCase, noDefault, noEnd]

/-- A selection is read back, with its cases. -/
theorem switch_stated (expressed : Expressed discriminant) (each : ∀ draft ∈ items, Selected draft) :
    Stated (tree "SwitchStatement" none
      [.single "discriminant" discriminant, .list "cases" items]) := by
  apply Stated.of_statement ((closed_plain (by decide)).trans (tokensOf_switch _ _)) (.cons (by decide))
  intro limit rest enough _ _ depth
  simp only [List.length_cons, List.length_append, length_parens, length_braces] at enough
  apply Gives.of_eq (switchStatement (readWithin limit)) (by rfl)
  simp only [switchStatement, braces, gives_bind, gives_here, List.cons_append, List.append_assoc,
    List.nil_append, gives_advance]
  apply (expressed.operand.parenthesized (by omega)).gives
  simp only [gives_expectPunct]
  have repeats : Repeats (eatPunct "\x7d") (switchCase (readWithin limit)) [] tokensOf
      (fun rest => Starts rest isCaseEnd) items depth := by
    constructor
    · intro draft member rest
      have going : (tokensOf draft ++ rest).head? ≠ some (.punct "\x7d") :=
        ((each draft member).starts.append rest).head?_ne (by decide)
      simp only [List.nil_append, gives_eatPunct, going, ↓reduceIte, and_self]
    · intro draft member rest ends
      have shorter := length_le_flatMap tokensOf member
      exact (each draft member).reads limit rest (by omega) ends
    · intro draft member rest
      apply ((each draft member).starts.append rest).mono
      intro kind starts
      have known := List.contains_iff_mem.mp starts
      have all : ∀ kind ∈ [TokenKind.word "case", .word "default"], isCaseEnd kind = true := by decide
      exact all kind known
  have again := repeats.many (.punct "\x7d" :: rest) rest (.cons (by decide))
    (fun draft member => (each draft member).starts.ne_nil) (by simp)
  apply again.mono
  rintro _ _ ⟨rfl, rfl⟩
  simp

end Selections

end SyntaxNav.Script

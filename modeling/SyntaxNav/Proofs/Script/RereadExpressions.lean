import SyntaxNav.Proofs.Script.RereadParts

/-! # Expressions are read back

What is written for each form of compound expression is read back in front of a closing parenthesis, if
what is written for its parts is. Each form is read at one level of the grammar, by primary expressions,
chains, operators, conditionals, assignments or sequences, and climbs to whole expressions from there.
-/

namespace SyntaxNav.Script

open Phrase (readWithin)

section Primaries

def isPrimaryStart (kind : TokenKind) : Bool :=
  [.word "function", .punct "[", .punct "\x7b"].contains kind

private theorem leadingOperator?_primaryStart {kind : TokenKind} (starts : isPrimaryStart kind = true) :
    leadingOperator? kind = none := by
  have all : ∀ kind ∈ [TokenKind.word "function", .punct "[", .punct "\x7b"],
      leadingOperator? kind = none := by decide
  exact all kind (List.contains_iff_mem.mp starts)

variable {body : Draft} {params items : List Draft} {id : Option Draft}

/-- A function in parentheses is read back. -/
theorem function_enclosed (named : ∀ draft ∈ id, Named draft)
    (each : ∀ draft ∈ params, Item param (tokensOf draft) draft) (blocked : Blocked body) :
    Enclosed (tree "FunctionExpression" none
      [.single "id" id, .list "params" params, .single "body" body]) := by
  intro limit rest enough
  rw [tokensOf_function] at enough ⊢
  simp only [List.length_cons, List.length_append, length_parens] at enough
  obtain ⟨limit, rfl⟩ : ∃ inner, limit = inner + 3 := ⟨limit - 3, by omega⟩
  have starts : Starts (.word "function" :: (id.toList.flatMap tokensOf ++
      (parens (commas (params.map tokensOf)) ++ tokensOf body))) isPrimaryStart := .cons rfl
  apply climb_primary (fun _ => rfl) _ starts (by decide) fun _ => leadingOperator?_primaryStart
  exact function_reread named (by simp) each blocked (by omega) _

/-- An array in parentheses is read back. -/
theorem array_enclosed
    (each : ∀ draft ∈ items, Item argument (pieceOf draft).argument draft) :
    Enclosed (tree "ArrayExpression" none [.list "elements" items]) := by
  intro limit rest enough
  rw [tokensOf_array] at enough ⊢
  rw [length_brackets] at enough
  obtain ⟨limit, rfl⟩ : ∃ inner, limit = inner + 3 := ⟨limit - 3, by omega⟩
  have starts : Starts (brackets (commas (items.map fun draft => (pieceOf draft).argument)))
      isPrimaryStart := .cons rfl
  apply climb_primary (fun _ => rfl) _ starts (by decide) fun _ => leadingOperator?_primaryStart
  intro depth
  apply Gives.of_eq (array (readWithin limit)) (by rfl)
  simp only [array, brackets, gives_bind, gives_here, List.cons_append, List.append_assoc,
    List.nil_append, gives_advance]
  apply gives_items each (by decide) (by decide) (by omega)
  simp

/-- An object in parentheses is read back. -/
theorem object_enclosed (each : ∀ draft ∈ items, Item objectMember (tokensOf draft) draft) :
    Enclosed (tree "ObjectExpression" none [.list "properties" items]) := by
  intro limit rest enough
  rw [tokensOf_object] at enough ⊢
  rw [length_braces] at enough
  obtain ⟨limit, rfl⟩ : ∃ inner, limit = inner + 3 := ⟨limit - 3, by omega⟩
  have starts : Starts (braces (commas (items.map tokensOf))) isPrimaryStart := .cons rfl
  apply climb_primary (fun _ => rfl) _ starts (by decide) fun _ => leadingOperator?_primaryStart
  intro depth
  apply Gives.of_eq (object (readWithin limit)) (by rfl)
  simp only [object, braces, gives_bind, gives_here, List.cons_append, List.append_assoc,
    List.nil_append, gives_advance]
  apply gives_items each (by decide) (by decide) (by omega)
  simp

end Primaries

section Chains

variable {object property callee draft : Draft} {arguments : List Draft} {link : List TokenKind}

/-- A member or a call is read back from its object and the link behind it. -/
theorem enclosed_of_link (expressed : Expressed object)
    (writes : tokensOf draft = (pieceOf object).operand ++ link)
    (starts : Starts link fun kind => kind ≠ .punct "=>")
    (reads : ∀ limit rest, 5 * link.length ≤ limit →
      Rereads (memberOrCall (readWithin limit) .origin object) link (some draft) rest) :
    Enclosed draft := by
  intro limit rest enough
  have operand := expressed.operand
  have size := operand.starts.length_pos
  rw [writes] at enough ⊢
  rw [List.length_append] at enough
  obtain ⟨limit, rfl⟩ : ∃ inner, limit = inner + 3 := ⟨limit - 3, by omega⟩
  apply climb_chain _ _ (operand.starts.append link) fun _ => leadingOperator?_operandStart
  · intro depth
    rw [List.append_assoc]
    exact operand.noArrow _ depth ((starts.append _).head?_ne (by simp))
  · intro depth
    have primary : ((pieceOf object).operand ++ (link ++ .punct ")" :: rest)).head? ≠
        some (.word "new") := (operand.starts.append _).head?_ne (by decide)
    simp only [chain, gives_bind, gives_here, gives_atWord, List.append_assoc, primary, decide_false,
      Bool.false_eq_true, ↓reduceIte]
    apply (operand.reads limit _ (by omega)).gives
    apply grow_once (reads limit _ (by omega)) (memberOrCall_ends (by decide)) starts.ne_nil
    exact ⟨rfl, rfl⟩

/-- A member by name in parentheses is read back. -/
theorem named_enclosed (expressed : Expressed object) (word : String) :
    Enclosed (tree "MemberExpression" none
      [.single "object" object, .single "property" (atom "Identifier" word)]) := by
  apply enclosed_of_link expressed (tokensOf_named object word) (.cons (by decide))
  intro limit rest enough depth
  simp [memberOrCall, namedMember, gives_propertyName]

theorem optional_enclosed (expressed : Expressed object) (word : String) :
    Enclosed (tree "OptionalMemberExpression" none
      [.single "object" object, .single "property" (atom "Identifier" word)]) := by
  apply enclosed_of_link expressed (tokensOf_optional object word) (.cons (by decide))
  intro limit rest enough depth
  simp [memberOrCall, optionalMember, namedMember, gives_propertyName]

/-- A computed member in parentheses is read back. -/
theorem computed_enclosed (expressed : Expressed object) (expressedProperty : Expressed property) :
    Enclosed (tree "MemberExpression" "computed"
      [.single "object" object, .single "property" property]) := by
  apply enclosed_of_link expressed (tokensOf_computed object property) (.cons (by decide))
  intro limit rest enough depth
  rw [length_brackets] at enough
  simp only [memberOrCall, computedMember, brackets, gives_bind, gives_eatPunct, List.cons_append,
    List.head?_cons, Option.some.injEq, TokenKind.punct.injEq, String.reduceEq, ↓reduceIte,
    Bool.false_eq_true, List.tail_cons, List.append_assoc, List.nil_append]
  apply (expressedProperty.operand.expression (by omega) (by decide) (by decide)).gives
  simp

/-- A call in parentheses is read back. -/
theorem call_enclosed (expressed : Expressed callee)
    (each : ∀ draft ∈ arguments, Item argument (pieceOf draft).argument draft) :
    Enclosed (tree "CallExpression" none
      [.single "callee" callee, .list "arguments" arguments]) := by
  apply enclosed_of_link expressed (tokensOf_call callee arguments) (.cons (by decide))
  intro limit rest enough depth
  rw [length_parens] at enough
  simp only [memberOrCall, parens, gives_bind, gives_eatPunct, List.cons_append, List.head?_cons,
    List.append_assoc, List.nil_append, Option.some.injEq, TokenKind.punct.injEq, String.reduceEq,
    ↓reduceIte, Bool.false_eq_true, List.tail_cons]
  apply gives_items each (by decide) (by decide) (by omega)
  simp

/-- A construction in parentheses is read back, always with its arguments. -/
theorem construction_enclosed (expressed : Expressed callee)
    (each : ∀ draft ∈ arguments, Item argument (pieceOf draft).argument draft) :
    Enclosed (tree "NewExpression" none
      [.single "callee" callee, .list "arguments" arguments]) := by
  intro limit rest enough
  have operand := expressed.operand
  rw [tokensOf_construction] at enough ⊢
  simp only [List.length_cons, List.length_append, length_parens] at enough
  obtain ⟨limit, rfl⟩ : ∃ inner, limit = inner + 4 := ⟨limit - 4, by omega⟩
  have starts : Starts (.word "new" :: ((pieceOf callee).operand ++
      parens (commas (arguments.map fun draft => (pieceOf draft).argument))))
      fun kind => kind = .word "new" := .cons (by decide)
  apply climb_chain (fun _ => rfl) _ starts (by simp [leadingOperator?])
  intro depth
  -- The arguments belong to the construction: what is constructed takes no parenthesis as a call.
  have primary : ((pieceOf callee).operand ++ .punct "(" :: (commas (arguments.map fun draft =>
      (pieceOf draft).argument) ++ .punct ")" :: .punct ")" :: rest)).head? ≠ some (.word "new") :=
    (operand.starts.append _).head?_ne (by decide)
  simp only [chain, gives_bind, gives_here, gives_atWord, parens, List.cons_append, List.head?_cons,
    decide_true, ↓reduceIte, List.append_assoc, List.nil_append]
  apply Gives.of_eq (construction (readWithin limit)) (by rfl)
  simp only [construction, gives_bind, gives_here, gives_advance, gives_atWord, primary, decide_false,
    Bool.false_eq_true, ↓reduceIte]
  apply (operand.reads limit _ (by omega)).gives
  apply grow_none (constructedMember_ends rfl)
  simp only [gives_eatPunct, List.head?_cons, ↓reduceIte, List.tail_cons, gives_bind]
  apply gives_items each (by decide) (by decide) (by omega)
  simp only [gives_node]
  apply grow_none (memberOrCall_ends (by decide))
  exact ⟨rfl, rfl⟩

end Chains

section Operators

variable {argument left right test consequent alternate body : Draft} {params items : List Draft}

/-- An operator in front of an operand, in parentheses, is read back. -/
theorem leading_enclosed {kind operator : String}
    (known : leadingOperator? (spell operator) = some (kind, operator))
    (expressed : Expressed argument) :
    Enclosed (tree kind operator [.single "argument" argument]) := by
  intro limit rest enough
  rw [tokensOf_leading argument operator (leadingKind known)] at enough ⊢
  rw [List.length_cons] at enough
  have size := expressed.operand.starts.length_pos
  obtain ⟨limit, rfl⟩ : ∃ inner, limit = inner + 3 := ⟨limit - 3, by omega⟩
  apply climb_unary
  · intro depth
    unfold leadingOperator? at known
    split at known <;> cases known <;> rfl
  · intro depth
    simp only [unary, gives_bind, gives_here, gives_peek, List.cons_append, List.head?_cons,
      Option.bind_some, known, gives_advance]
    apply (expressed.operand.unary (by omega) (by decide)).gives
    simp

/-- What follows from the spelling of an operator between operands. -/
theorem operator_facts {operator : Operator}
    (known : Operator.ofToken? (spell operator.text) = some operator) :
    extendsOperand (spell operator.text) = false ∧ spell operator.text ≠ .punct "=>" ∧
      1 ≤ operator.precedence := by
  obtain ⟨text, spelled, known⟩ := Option.bind_eq_some_iff.mp known
  obtain ⟨precedence, known, same⟩ := Option.bind_eq_some_iff.mp known
  cases same
  unfold Operator.precedence? at known
  split at known <;> first | (cases known; decide) | cases known

/-- An operation in parentheses is read back, whatever operators are in its operands. -/
theorem operation_enclosed {operator : Operator}
    (known : Operator.ofToken? (spell operator.text) = some operator)
    (expressedLeft : Expressed left) (expressedRight : Expressed right) :
    Enclosed (tree operator.nodeKind operator.text [.single "left" left, .single "right" right]) := by
  intro limit rest enough
  rw [tokensOf_operation left right operator.text ((operationKind operator).imp_right .inl)] at enough ⊢
  simp only [List.length_append, List.length_cons] at enough
  obtain ⟨alone, noArrow, precedence⟩ := operator_facts known
  obtain ⟨limit, rfl⟩ : ∃ inner, limit = inner + 2 := ⟨limit - 2, by omega⟩
  apply climb_binary
  · intro depth
    rw [List.append_assoc]
    exact expressedLeft.operand.noArrow _ depth (by simpa using noArrow)
  · intro depth
    have once : Rereads (operation (readWithin limit) .origin 1 true left)
        (spell operator.text :: (pieceOf right).operand)
        (some (tree operator.nodeKind operator.text [.single "left" left, .single "right" right]))
        (.punct ")" :: rest) := by
      intro depth
      have enters : ¬ operator.precedence < 1 := by omega
      simp only [operation, gives_bind, gives_peek, List.cons_append, List.head?_cons, Option.bind_some,
        known, enters, decide_false, Bool.not_true, Bool.and_false, Bool.or_self, Bool.false_eq_true,
        ↓reduceIte, gives_advance]
      apply (expressedRight.operand.binary (by omega) (by decide) (by decide) _ _).gives
      simp
    have noMore (draft : Draft) :
        Rereads (operation (readWithin limit) .origin 1 true draft) [] none (.punct ")" :: rest) := by
      intro depth
      have ends : Operator.ofToken? (.punct ")") = none := by decide
      simp [operation, ends]
    simp only [binary, gives_bind, gives_here, List.append_assoc]
    apply (expressedLeft.operand.unary (by omega) alone).gives
    apply grow_once once (noMore _) (by simp)
    exact ⟨rfl, rfl⟩

/-- A conditional expression in parentheses is read back. -/
theorem conditional_enclosed (expressedTest : Expressed test)
    (expressedConsequent : Expressed consequent) (expressedAlternate : Expressed alternate) :
    Enclosed (tree "ConditionalExpression" none
      [.single "test" test, .single "consequent" consequent, .single "alternate" alternate]) := by
  intro limit rest enough
  rw [tokensOf_conditional] at enough ⊢
  simp only [List.length_append, List.length_cons] at enough
  obtain ⟨limit, rfl⟩ : ∃ inner, limit = inner + 1 := ⟨limit - 1, by omega⟩
  apply climb_conditional
  · intro depth
    rw [List.append_assoc]
    exact expressedTest.operand.noArrow _ depth (by simp)
  · intro depth
    have ends : assignmentOperator? (.punct ")") = none := by decide
    simp only [assignmentOrConditional, conditional, gives_bind, gives_here, List.append_assoc,
      List.cons_append]
    apply (expressedTest.operand.binary (by omega) (by decide) (by decide) 1 true).gives
    simp only [gives_eatPunct, List.head?_cons, ↓reduceIte, List.tail_cons, gives_bind]
    apply (expressedConsequent.operand.assignment (by omega) (by decide)).gives
    simp only [gives_expectPunct]
    apply (expressedAlternate.operand.assignment (by omega) (by decide)).gives
    simp [assignmentTo, ends]

private theorem assigning_facts {operator : String}
    (known : assignmentOperator? (spell operator) = some operator) :
    extendsOperand (spell operator) = false ∧ Operator.ofToken? (spell operator) = none ∧
      spell operator ≠ .punct "=>" ∧ spell operator ≠ .punct "?" := by
  have all : ∀ text ∈ assignmentOperators,
      extendsOperand (spell text) = false ∧ Operator.ofToken? (spell text) = none ∧
        spell text ≠ .punct "=>" ∧ spell text ≠ .punct "?" := by decide
  unfold assignmentOperator? at known
  split at known
  · split at known
    · rename_i listed
      cases known
      exact all _ (List.contains_iff_mem.mp listed)
    · cases known
  · cases known

/-- An assignment in parentheses is read back. -/
theorem assignment_enclosed {operator : String}
    (known : assignmentOperator? (spell operator) = some operator)
    (expressedLeft : Expressed left) (expressedRight : Expressed right) :
    Enclosed (tree "AssignmentExpression" operator [.single "left" left, .single "right" right]) := by
  intro limit rest enough
  rw [tokensOf_operation left right operator (.inr (.inr rfl))] at enough ⊢
  simp only [List.length_append, List.length_cons] at enough
  obtain ⟨alone, noOperator, noArrow, noMark⟩ := assigning_facts known
  obtain ⟨limit, rfl⟩ : ∃ inner, limit = inner + 1 := ⟨limit - 1, by omega⟩
  apply climb_conditional
  · intro depth
    rw [List.append_assoc]
    exact expressedLeft.operand.noArrow _ depth (by simpa using noArrow)
  · intro depth
    simp only [assignmentOrConditional, conditional, gives_bind, gives_here, List.append_assoc,
      List.cons_append]
    apply (expressedLeft.operand.binary (by omega) alone noOperator 1 true).gives
    simp only [gives_eatPunct, List.head?_cons, Option.some.injEq, noMark, ↓reduceIte,
      Bool.false_eq_true, gives_pure, assignmentTo, gives_bind, gives_peek, Option.bind_some, known,
      gives_advance]
    apply (expressedRight.operand.assignment (by omega) (by decide)).gives
    simp

/-- An arrow function in parentheses is read back; looking ahead finds its arrow, as its parameters are
balanced. -/
theorem arrow_enclosed (each : ∀ draft ∈ params, Item param (tokensOf draft) draft)
    {fine : TokenKind → Prop} (balanced : Balanced fine (commas (params.map tokensOf)))
    (reads : Blocked body ∨ Formed .expression body ∧ Expressed body) :
    Enclosed (tree "ArrowFunctionExpression" none
      [.list "params" params, .single "body" body]) := by
  intro limit rest enough
  rw [tokensOf_arrow] at enough ⊢
  simp only [List.length_append, List.length_cons, length_parens] at enough
  obtain ⟨limit, rfl⟩ : ∃ inner, limit = inner + 1 := ⟨limit - 1, by omega⟩
  apply climb_assignment
  intro depth
  have isArrow : (Cursor.over (parens (commas (params.map tokensOf)) ++
      .punct "=>" :: ((pieceOf body).arrowBody ++ .punct ")" :: rest)) depth).atArrow = true := by
    rw [balanced.atArrow_parens]
    rfl
  have opens : (parens (commas (params.map tokensOf)) ++
      .punct "=>" :: ((pieceOf body).arrowBody ++ .punct ")" :: rest)).head? = some (.punct "(") := rfl
  simp only [assignment, arrow, gives_bind, gives_get, gives_here, gives_atPunct, List.append_assoc,
    List.cons_append, isArrow, opens, decide_true, ↓reduceIte]
  apply (params_reread each (by omega) _).gives
  simp only [gives_expectPunct]
  -- An object as the body stands in parentheses, so a brace always starts a block.
  rcases reads with blocked | ⟨formed, expressed⟩
  · have same : (pieceOf body).arrowBody = tokensOf body := if_pos blocked.kind
    obtain ⟨inner, written⟩ := blocked.braces
    have braced : (tokensOf body ++ .punct ")" :: rest).head? = some (.punct "\x7b") := by
      rw [written]
      rfl
    rw [same] at enough ⊢
    simp only [gives_atPunct, braced, decide_true, ↓reduceIte, gives_bind]
    apply (blocked.reads limit _ (by omega)).gives
    simp
  · have unbraced : ((pieceOf body).operand ++ .punct ")" :: rest).head? ≠ some (.punct "\x7b") :=
      (expressed.operand.starts.append _).head?_ne (by decide)
    rw [formed.arrowBody_of_expression] at enough ⊢
    simp only [gives_atPunct, unbraced, decide_false, Bool.false_eq_true, ↓reduceIte, gives_bind]
    apply (expressed.operand.assignment (by omega) (by decide)).gives
    simp

/-- A sequence in parentheses is read back. -/
theorem sequence_enclosed {first second : Draft} {others : List Draft}
    (each : ∀ draft ∈ first :: second :: others, Expressed draft) :
    Enclosed (tree "SequenceExpression" none
      [.list "expressions" (first :: second :: others)]) := by
  intro limit rest enough depth
  rw [tokensOf_sequence] at enough ⊢
  have reads : Rereads (commaSeparated (readWithin limit .assignment))
      (commas ((first :: second :: others).map fun draft => (pieceOf draft).operand))
      (first :: second :: others) (.punct ")" :: rest) := by
    apply commaSeparated_gives (by decide)
    intro draft member next ends rest
    have shorter := length_le_commas (fun draft => (pieceOf draft).operand) member
    have known : ∀ next ∈ [",", ")"], next ∈ expressionEnds := by decide
    exact (each draft member).operand.assignment (by omega) (known next ends)
  simp only [expression, sequence, gives_bind, gives_here]
  apply reads.gives
  simp

end Operators

end SyntaxNav.Script

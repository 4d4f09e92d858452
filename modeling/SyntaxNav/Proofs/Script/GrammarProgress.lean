import SyntaxNav.Proofs.Script.Progress

/-! # The grammar settles

A phrase is read behind a further token, or it is one of at most five that start at the same token, each
of a lower rank than the one around it. So five unrollings for each token are enough: no script is read
to the limit, and every phrase that is read takes a token.
-/

namespace SyntaxNav.Script

variable {α : Type} {cursor : Cursor}

/-- A reader takes a token, or fails for a reason in the script. -/
abbrev Progresses (reader : Reader α) (cursor : Cursor) : Prop :=
  Settles reader cursor fun _ after => after.remaining < cursor.remaining

/-- Among the phrases that start at the same token, the outer ones have the higher rank. -/
def Phrase.rank : Phrase → Nat
  | .construction => 0
  | .unary => 1
  | .binary _ _ => 2
  | .assignment => 3
  | .statement => 4

/-- Phrases progress that have so few tokens before them and so low a rank. -/
def PhrasesProgress (read : PhraseReader) (bound : Nat) : Prop :=
  ∀ phrase cursor, 5 * cursor.remaining + phrase.rank < bound → Progresses (read phrase) cursor

namespace PhrasesProgress

variable {read : PhraseReader} {bound : Nat} (phrases : PhrasesProgress read bound)

include phrases

theorem statement (room : 5 * cursor.remaining + 4 < bound) : Progresses (read .statement) cursor :=
  phrases .statement cursor room

theorem assignment (room : 5 * cursor.remaining + 3 < bound) : Progresses (read .assignment) cursor :=
  phrases .assignment cursor room

private theorem binary {least : Nat} {allowIn : Bool} (room : 5 * cursor.remaining + 2 < bound) :
    Progresses (read (.binary least allowIn)) cursor :=
  phrases (.binary least allowIn) cursor room

theorem unary (room : 5 * cursor.remaining + 1 < bound) : Progresses (read .unary) cursor :=
  phrases .unary cursor room

theorem construction (room : 5 * cursor.remaining < bound) : Progresses (read .construction) cursor :=
  phrases .construction cursor room

end PhrasesProgress

private theorem nested_progresses {reader : Reader α}
    (progresses : Progresses reader { cursor with depth := cursor.depth + 1 }) :
    Progresses (nested reader) cursor :=
  settles_nested progresses

section Names

private theorem bindingName_progresses : Progresses bindingName cursor := by
  simp only [Progresses, bindingName, settles_bind, settles_get]
  split
  · exact settles_failExpected _
  · rename_i token rest ahead
    split
    · simp only [settles_ite, settles_failExpected, settles_bind, settles_advance, implies_true, true_and]
      exact fun _ => Cursor.advance_of_rest ahead
    all_goals simp

private theorem propertyName_progresses : Progresses propertyName cursor := by
  simp only [Progresses, propertyName, settles_bind, settles_get]
  split
  · exact settles_failExpected _
  · rename_i token rest ahead
    split
    · exact Cursor.advance_of_rest ahead
    · exact settles_failExpected _

variable {read : PhraseReader} {bound : Nat}

private theorem propertyKey_progresses (phrases : PhrasesProgress read bound)
    (room : 5 * cursor.remaining ≤ bound) : Progresses (propertyKey read) cursor := by
  simp only [Progresses, propertyKey, settles_bind, settles_get]
  split
  · exact settles_failExpected _
  · rename_i token rest ahead
    have shorter := Cursor.advance_of_rest ahead
    split
    · exact shorter
    · exact shorter
    · exact shorter
    · simp only [settles_bind, settles_advance, settles_pure]
      refine (phrases.assignment (by omega)).mono ?_
      intro key last progress
      refine settles_expectPunct ?_
      intro after closed
      omega
    · exact settles_failExpected _

end Names

section Sequences

variable {read : PhraseReader} {bound : Nat}

private theorem sequence_progresses {item : Reader Draft}
    (progresses : ∀ middle, middle.remaining ≤ cursor.remaining → Progresses item middle) :
    Progresses (sequence item) cursor := by
  simp only [Progresses, sequence, settles_bind, settles_here]
  refine (settles_commaSeparated progresses).mono ?_
  intro items after shorter
  split
  · exact shorter
  · exact shorter

private theorem expression_progresses (phrases : PhrasesProgress read bound)
    (room : 5 * cursor.remaining + 3 < bound) : Progresses (expression read) cursor := by
  refine sequence_progresses ?_
  intro middle shorter
  exact phrases.assignment (by omega)

private theorem parenthesized_progresses (phrases : PhrasesProgress read bound)
    (room : 5 * cursor.remaining ≤ bound) : Progresses (parenthesized read) cursor := by
  simp only [Progresses, parenthesized, settles_bind, settles_pure]
  refine settles_expectPunct ?_
  intro inner opened
  refine (expression_progresses phrases (by omega)).mono ?_
  intro draft last progress
  refine settles_expectPunct ?_
  intro after closed
  omega

end Sequences

section Functions

variable {read : PhraseReader} {bound : Nat}

private theorem statementInBraces_progresses (phrases : PhrasesProgress read bound)
    (room : 5 * cursor.remaining + 4 < bound) : Progresses (statementInBraces read) cursor := by
  simp only [Progresses, statementInBraces, settles_bind, settles_atEnd, settles_ite,
    settles_failExpected, implies_true, true_and]
  exact fun _ => phrases.statement room

/-- Items up to a closing punctuator settle if each item takes a token. -/
theorem settles_manyUntil {close : String} {item : Reader α}
    (progresses : ∀ middle, middle.remaining ≤ cursor.remaining → Progresses item middle) :
    Settles (many (eatPunct close) item) cursor fun _ after => after.remaining ≤ cursor.remaining := by
  refine settles_many ?_
  intro middle shorter
  refine settles_eatPunct ?_ ⟨Nat.le_refl _, fun _ => progresses middle shorter⟩
  intro after taken
  exact ⟨Nat.le_of_lt taken, nofun⟩

private theorem block_progresses (phrases : PhrasesProgress read bound)
    (room : 5 * cursor.remaining ≤ bound) :
    Progresses (block read) cursor := by
  simp only [Progresses, block, settles_bind, settles_here, settles_node]
  refine settles_expectPunct ?_
  intro inner opened
  refine (settles_manyUntil ?_).mono fun body after shorter => by omega
  intro middle shorter
  exact statementInBraces_progresses phrases (by omega)

theorem param_progresses (phrases : PhrasesProgress read bound) (room : 5 * cursor.remaining ≤ bound) :
    Progresses (param read) cursor := by
  simp only [Progresses, param, settles_bind, settles_here]
  apply settles_ifPunct
  · intro next dots
    simp only [settles_bind, settles_node]
    exact bindingName_progresses.mono fun argument after progress => by omega
  · simp only [settles_bind]
    refine bindingName_progresses.mono ?_
    intro left next progress
    apply settles_ifPunct
    · intro middle equals
      simp only [settles_bind, settles_node]
      exact (phrases.assignment (by omega)).mono fun right after further => by omega
    · exact progress

private theorem params_progress (phrases : PhrasesProgress read bound) (room : 5 * cursor.remaining ≤ bound) :
    Progresses (params read) cursor := by
  simp only [Progresses, params, settles_bind]
  refine settles_expectPunct ?_
  intro inner opened
  refine (settles_list ?_).mono fun parameters after shorter => by omega
  intro middle shorter
  exact param_progresses phrases (by omega)

private theorem functionName_settles (needed : Bool) :
    Settles (functionName needed) cursor fun _ after => after.remaining ≤ cursor.remaining := by
  simp only [functionName, settles_bind, settles_peek]
  have named : Settles bindingName cursor fun _ after => after.remaining ≤ cursor.remaining :=
    bindingName_progresses.mono fun name after progress => Nat.le_of_lt progress
  split
  · simpa only [settles_bind, settles_pure] using named
  · simp only [settles_ite, settles_bind, settles_pure, Nat.le_refl, implies_true, and_true]
    exact fun _ => named

/-- Parameters and a body. -/
theorem paramsAndBlock_settle (phrases : PhrasesProgress read bound)
    (room : 5 * cursor.remaining ≤ bound) {holds : List Draft → Draft → Cursor → Prop}
    (behind : ∀ parameters body after, after.remaining < cursor.remaining →
      holds parameters body after) :
    Settles (params read) cursor fun parameters middle =>
      Settles (block read) middle (holds parameters) := by
  refine (params_progress phrases room).mono ?_
  intro parameters middle progress
  refine (block_progresses phrases (by omega)).mono ?_
  intro body after further
  exact behind parameters body after (by omega)

private theorem function_progresses (phrases : PhrasesProgress read bound) (kind : String) (needsName : Bool)
    (room : 5 * cursor.remaining ≤ bound) : Progresses (function read kind needsName) cursor := by
  have shorter := cursor.advance_le
  simp only [Progresses, function, settles_bind, settles_here, settles_advance, settles_atPunct,
    settles_ite, settles_fail, ne_eq, reduceCtorEq, not_false_eq_true, implies_true, true_and,
    settles_node]
  intro _
  refine (functionName_settles needsName).mono ?_
  intro name middle named
  refine paramsAndBlock_settle phrases (by omega) ?_
  intro parameters body after further
  omega

private theorem method_progresses (phrases : PhrasesProgress read bound) {kind : String} {start : Pos}
    {text : Option String} {key : Draft} (room : 5 * cursor.remaining ≤ bound) :
    Progresses (method read kind start text key) cursor := by
  simp only [Progresses, method, settles_bind, settles_node]
  exact paramsAndBlock_settle phrases room fun _ _ _ shorter => shorter

end Functions

section Objects

variable {read : PhraseReader} {bound : Nat}

theorem argument_progresses (phrases : PhrasesProgress read bound)
    (room : 5 * cursor.remaining + 3 < bound) : Progresses (argument read) cursor := by
  simp only [Progresses, argument, settles_bind, settles_here]
  refine settles_ifPunct ?_ (phrases.assignment room)
  intro inner dots
  simp only [settles_bind, settles_node]
  exact (phrases.assignment (by omega)).mono fun draft after progress => by omega

private theorem objectProperty_settles (phrases : PhrasesProgress read bound) {start : Pos}
    {keyToken : Option Token} {key : Draft} (room : 5 * cursor.remaining ≤ bound) :
    Settles (objectProperty read start keyToken key) cursor fun _ after =>
      after.remaining ≤ cursor.remaining := by
  simp only [objectProperty, settles_bind, settles_atPunct]
  split
  · exact (method_progresses phrases room).mono fun draft after progress => Nat.le_of_lt progress
  simp only [settles_bind]
  apply settles_ifPunct
  · intro inner colon
    simp only [settles_bind, settles_node]
    exact (phrases.assignment (by omega)).mono fun value after progress => by omega
  · split
    · split
      · simp
      · exact settles_failExpected _
    · exact settles_failExpected _

theorem objectMember_progresses (phrases : PhrasesProgress read bound)
    (room : 5 * cursor.remaining ≤ bound) : Progresses (objectMember read) cursor := by
  simp only [Progresses, objectMember, settles_bind, settles_here]
  apply settles_ifPunct
  · intro inner dots
    simp only [settles_bind, settles_node]
    exact (phrases.assignment (by omega)).mono fun draft after progress => by omega
  · simp only [settles_bind, settles_get]
    refine (propertyKey_progresses phrases room).mono ?_
    intro key middle progress
    exact (objectProperty_settles phrases (by omega)).mono fun draft after shorter => by omega

private theorem literal_progresses {kind : String} {token : Token} {rest : List Token}
    (ahead : cursor.rest = token :: rest) : Progresses (literal kind token) cursor :=
  Cursor.advance_of_rest ahead

private theorem constant_progresses {kind : String} {token : Token} {rest : List Token}
    (ahead : cursor.rest = token :: rest) : Progresses (constant kind) cursor :=
  Cursor.advance_of_rest ahead

private theorem array_progresses (phrases : PhrasesProgress read bound) {token : Token} {rest : List Token}
    (ahead : cursor.rest = token :: rest) (room : 5 * cursor.remaining ≤ bound) :
    Progresses (array read) cursor := by
  have shorter := Cursor.advance_of_rest ahead
  simp only [Progresses, array, settles_bind, settles_here, settles_advance, settles_node]
  refine (settles_list ?_).mono fun elements after closed => by omega
  intro middle inside
  exact argument_progresses phrases (by omega)

private theorem object_progresses (phrases : PhrasesProgress read bound) {token : Token} {rest : List Token}
    (ahead : cursor.rest = token :: rest) (room : 5 * cursor.remaining ≤ bound) :
    Progresses (object read) cursor := by
  have shorter := Cursor.advance_of_rest ahead
  simp only [Progresses, object, settles_bind, settles_here, settles_advance, settles_node]
  refine (settles_list ?_).mono fun properties after closed => by omega
  intro middle inside
  exact objectMember_progresses phrases (by omega)

/-- A primary expression takes a token. -/
theorem primary_progresses (phrases : PhrasesProgress read bound) (room : 5 * cursor.remaining ≤ bound) :
    Progresses (primary read) cursor := by
  simp only [Progresses, primary, settles_bind, settles_get]
  split
  · exact settles_failExpected _
  · rename_i token rest ahead
    split
    · exact literal_progresses ahead
    · exact literal_progresses ahead
    · exact literal_progresses ahead
    · exact literal_progresses ahead
    · exact constant_progresses ahead
    · exact constant_progresses ahead
    · exact function_progresses phrases _ _ room
    · simp only [settles_ite, settles_failExpected, implies_true, true_and]
      exact fun _ => literal_progresses ahead
    · exact parenthesized_progresses phrases room
    · exact array_progresses phrases ahead room
    · exact object_progresses phrases ahead room
    · exact settles_failExpected _

end Objects

section Chains

variable {read : PhraseReader} {bound : Nat} {start : Pos} {inner : Draft}

private theorem namedMember_progresses {kind : String} : Progresses
    (namedMember kind start inner) cursor := by
  simp only [Progresses, namedMember, settles_bind, settles_node]
  exact propertyName_progresses

private theorem optionalMember_progresses : Progresses (optionalMember start inner) cursor := by
  simp only [Progresses, optionalMember, settles_bind, settles_atPunct, settles_ite, settles_fail, ne_eq,
    reduceCtorEq, not_false_eq_true, implies_true, true_and]
  exact fun _ => namedMember_progresses

private theorem computedMember_progresses (phrases : PhrasesProgress read bound)
    (room : 5 * cursor.remaining + 3 < bound) : Progresses (computedMember read start inner) cursor := by
  simp only [Progresses, computedMember, settles_bind, settles_node]
  refine (expression_progresses phrases room).mono ?_
  intro property last progress
  refine settles_expectPunct ?_
  intro after closed
  omega

private theorem arguments_progress (phrases : PhrasesProgress read bound)
    (room : 5 * cursor.remaining + 3 < bound) : Progresses (list ")" (argument read)) cursor := by
  refine settles_list ?_
  intro middle shorter
  exact argument_progresses phrases (by omega)

private theorem memberOrCall_settles (phrases : PhrasesProgress read bound)
    (room : 5 * cursor.remaining ≤ bound) :
    Settles (memberOrCall read start inner) cursor fun extended after =>
      after.remaining + (if extended.isSome then 1 else 0) ≤ cursor.remaining := by
  simp only [memberOrCall, settles_bind]
  apply settles_ifPunct
  · intro middle point
    simp only [settles_bind, settles_pure, Option.isSome_some, ↓reduceIte]
    exact namedMember_progresses.mono fun member after progress => by omega
  simp only [settles_bind]
  apply settles_ifPunct
  · intro middle mark
    simp only [settles_bind, settles_pure, Option.isSome_some, ↓reduceIte]
    exact optionalMember_progresses.mono fun member after progress => by omega
  simp only [settles_bind]
  apply settles_ifPunct
  · intro middle bracket
    simp only [settles_bind, settles_pure, Option.isSome_some, ↓reduceIte]
    exact (computedMember_progresses phrases (by omega)).mono fun member after progress => by omega
  simp only [settles_bind]
  apply settles_ifPunct
  · intro middle opened
    simp only [settles_bind, settles_pure, Option.isSome_some, ↓reduceIte, settles_node]
    exact (arguments_progress phrases (by omega)).mono fun arguments after progress => by omega
  · simp

private theorem chain_progresses (phrases : PhrasesProgress read bound)
    (room : 5 * cursor.remaining < bound) :
    Progresses (chain read) cursor := by
  simp only [Progresses, chain, settles_bind, settles_here, settles_atWord, settles_ite]
  have grown (inner : Draft) (next : Cursor) (progress : next.remaining < cursor.remaining) :
      Settles (grow (memberOrCall read cursor.start) inner) next fun _ after =>
        after.remaining < cursor.remaining := by
    refine (settles_grow ?_).mono fun draft after shorter => by omega
    intro inner middle shorter
    exact memberOrCall_settles phrases (by omega)
  refine ⟨fun _ => ?_, fun _ => ?_⟩
  · exact (phrases.construction room).mono grown
  · exact (primary_progresses phrases (by omega)).mono grown

private theorem constructedMember_settles (phrases : PhrasesProgress read bound)
    (room : 5 * cursor.remaining ≤ bound) :
    Settles (constructedMember read start inner) cursor fun extended after =>
      after.remaining + (if extended.isSome then 1 else 0) ≤ cursor.remaining := by
  simp only [constructedMember, settles_bind]
  apply settles_ifPunct
  · intro middle point
    simp only [settles_bind, settles_pure, Option.isSome_some, ↓reduceIte]
    exact namedMember_progresses.mono fun member after progress => by omega
  simp only [settles_bind]
  apply settles_ifPunct
  · intro middle bracket
    simp only [settles_bind, settles_pure, Option.isSome_some, ↓reduceIte]
    exact (computedMember_progresses phrases (by omega)).mono fun member after progress => by omega
  · simp

private theorem construction_progresses (phrases : PhrasesProgress read bound)
    (room : 5 * cursor.remaining ≤ bound) : Progresses (construction read) cursor := by
  have shorter := cursor.advance_le
  simp only [Progresses, construction, settles_bind, settles_here, settles_advance, settles_atWord]
  have constructed (inner : Draft) (next : Cursor)
      (progress : next.remaining < cursor.advance.remaining) :
      Settles (do
        let callee ← grow (constructedMember read cursor.start) inner
        let arguments ← if ← eatPunct "(" then list ")" (argument read) else pure []
        node "NewExpression" cursor.start none [.single "callee" callee, .list "arguments" arguments])
        next fun _ after => after.remaining < cursor.remaining := by
    simp only [settles_bind]
    refine (settles_grow ?_).mono ?_
    · intro inner middle further
      exact constructedMember_settles phrases (by omega)
    · intro callee middle further
      apply settles_ifPunct
      · intro after opened
        simp only [settles_bind, settles_node]
        exact (arguments_progress phrases (by omega)).mono fun arguments after closed => by omega
      · simp only [settles_bind, settles_pure, settles_node]
        omega
  split <;> rename_i atNew
  · have taken : cursor.advance.remaining < cursor.remaining := by
      cases ahead : cursor.rest with
      | nil => simp [Cursor.atWord, Cursor.next?, Cursor.advance, ahead] at atNew
      | cons token rest => exact Cursor.advance_of_rest ahead
    have room : 5 * cursor.advance.remaining < bound := by omega
    rw [settles_bind]
    exact (nested_progresses (phrases.construction room)).mono constructed
  · rw [settles_bind]
    exact (primary_progresses phrases (by omega)).mono constructed

end Chains

section Operators

variable {read : PhraseReader} {bound : Nat} {start : Pos} {left : Draft}

private theorem postfixed_progresses (phrases : PhrasesProgress read bound)
    (room : 5 * cursor.remaining < bound) : Progresses (postfixed read) cursor := by
  simp only [Progresses, postfixed, settles_bind, settles_here, settles_get]
  refine (chain_progresses phrases room).mono ?_
  intro inner next progress
  have shorter := next.advance_le
  split
  · exact progress
  · simp only [settles_bind, settles_advance, settles_node]
    omega

private theorem unary_progresses (phrases : PhrasesProgress read bound)
    (room : 5 * cursor.remaining < bound) :
    Progresses (unary read) cursor := by
  simp only [Progresses, unary, settles_bind, settles_here, settles_peek]
  split
  · exact postfixed_progresses phrases room
  · rename_i kind operator leading
    obtain ⟨mark, ahead, -⟩ := Option.bind_eq_some_iff.mp leading
    have shorter := Cursor.advance_of_next? ahead
    simp only [settles_bind, settles_advance, settles_node]
    exact (phrases.unary (by omega)).mono fun inner after progress => by omega

private theorem operation_settles (phrases : PhrasesProgress read bound) (least : Nat) (allowIn : Bool)
    (room : 5 * cursor.remaining ≤ bound) :
    Settles (operation read start least allowIn left) cursor fun extended after =>
      after.remaining + (if extended.isSome then 1 else 0) ≤ cursor.remaining := by
  simp only [operation, settles_bind, settles_peek]
  split
  · simp
  · rename_i operator isOperator
    obtain ⟨mark, ahead, -⟩ := Option.bind_eq_some_iff.mp isOperator
    have shorter := Cursor.advance_of_next? ahead
    simp only [settles_ite, settles_pure, settles_bind, settles_advance, settles_node,
      Option.isSome_none, Option.isSome_some, Bool.false_eq_true, ↓reduceIte, Nat.add_zero, Nat.le_refl,
      implies_true, true_and]
    intro _
    exact (phrases.binary (by omega)).mono fun right after progress => by omega

private theorem binary_progresses (phrases : PhrasesProgress read bound) (least : Nat) (allowIn : Bool)
    (room : 5 * cursor.remaining + 1 < bound) : Progresses (binary read least allowIn) cursor := by
  simp only [Progresses, binary, settles_bind, settles_here]
  refine (phrases.unary room).mono ?_
  intro first next progress
  refine (settles_grow ?_).mono fun draft after shorter => by omega
  intro left middle shorter
  exact operation_settles phrases least allowIn (by omega)

private theorem conditional_progresses (phrases : PhrasesProgress read bound)
    (room : 5 * cursor.remaining + 2 < bound) : Progresses (conditional read) cursor := by
  simp only [Progresses, conditional, settles_bind, settles_here]
  refine (phrases.binary room).mono ?_
  intro test next progress
  refine settles_ifPunct ?_ progress
  intro inner question
  simp only [settles_bind, settles_node]
  refine (phrases.assignment (by omega)).mono ?_
  intro consequent last further
  refine settles_expectPunct ?_
  intro behind colon
  exact (phrases.assignment (by omega)).mono fun alternate after final => by omega

private theorem assignmentTo_settles (phrases : PhrasesProgress read bound)
    (room : 5 * cursor.remaining ≤ bound) :
    Settles (assignmentTo read start left) cursor fun _ after => after.remaining ≤ cursor.remaining := by
  simp only [assignmentTo, settles_bind, settles_peek]
  split
  · exact Nat.le_refl _
  · rename_i operator assigns
    obtain ⟨mark, ahead, -⟩ := Option.bind_eq_some_iff.mp assigns
    have shorter := Cursor.advance_of_next? ahead
    simp only [settles_bind, settles_advance, settles_node]
    exact (phrases.assignment (by omega)).mono fun right after progress => by omega

/-- An arrow function takes a token. -/
theorem arrow_progresses (phrases : PhrasesProgress read bound) (room : 5 * cursor.remaining ≤ bound) :
    Progresses (arrow read) cursor := by
  simp only [Progresses, arrow, settles_bind, settles_here, settles_atPunct, settles_ite, settles_pure,
    settles_node]
  have behind (parameters : List Draft) (next : Cursor) (progress : next.remaining < cursor.remaining) :
      Settles (expectPunct "=>") next fun _ middle =>
        (middle.atPunct "\x7b" = true → Settles (block read) middle fun _ after =>
          after.remaining < cursor.remaining) ∧
        (¬ middle.atPunct "\x7b" = true → Settles (read .assignment) middle fun _ after =>
          after.remaining < cursor.remaining) := by
    refine settles_expectPunct ?_
    intro middle arrow
    refine ⟨fun _ => ?_, fun _ => ?_⟩
    · exact (block_progresses phrases (by omega)).mono fun body after further => by omega
    · exact (phrases.assignment (by omega)).mono fun body after further => by omega
  refine ⟨fun _ => ?_, fun _ => ?_⟩
  · exact (params_progress phrases room).mono behind
  · exact bindingName_progresses.mono fun parameter => behind [parameter]

/-- An assignment or a conditional expression takes a token. -/
theorem assignmentOrConditional_progresses (phrases : PhrasesProgress read bound)
    (room : 5 * cursor.remaining + 2 < bound) :
    Progresses (assignmentOrConditional read) cursor := by
  simp only [Progresses, assignmentOrConditional, settles_bind, settles_here]
  refine (conditional_progresses phrases room).mono ?_
  intro left next progress
  exact (assignmentTo_settles phrases (by omega)).mono fun draft after shorter => by omega

private theorem assignment_progresses (phrases : PhrasesProgress read bound)
    (room : 5 * cursor.remaining + 2 < bound) : Progresses (assignment read) cursor := by
  simp only [Progresses, assignment, settles_bind, settles_get, settles_ite]
  exact ⟨fun _ => arrow_progresses phrases (by omega),
    fun _ => assignmentOrConditional_progresses phrases room⟩

private theorem headExpression_progresses (phrases : PhrasesProgress read bound)
    (room : 5 * cursor.remaining + 2 < bound) : Progresses (headExpression read) cursor := by
  refine sequence_progresses ?_
  intro middle shorter
  simp only [Progresses, settles_bind, settles_here]
  refine (phrases.binary (by omega)).mono ?_
  intro left next progress
  exact (assignmentTo_settles phrases (by omega)).mono fun draft after shorter => by omega

end Operators

section Statements

variable {read : PhraseReader} {bound : Nat}

private theorem declarator_progresses (phrases : PhrasesProgress read bound)
    (room : 5 * cursor.remaining ≤ bound) : Progresses (declarator read) cursor := by
  simp only [Progresses, declarator, settles_bind, settles_here]
  refine bindingName_progresses.mono ?_
  intro id next progress
  apply settles_ifPunct
  · intro middle equals
    simp only [settles_bind, settles_pure, settles_node]
    exact (phrases.assignment (by omega)).mono fun init after further => by omega
  · simpa using progress

private theorem declarators_progress (phrases : PhrasesProgress read bound)
    (room : 5 * cursor.remaining ≤ bound) : Progresses (declarators read) cursor := by
  have shorter := cursor.advance_le
  simp only [Progresses, declarators, settles_bind, settles_peek]
  split
  · simp only [settles_bind, settles_advance, settles_pure]
    refine (settles_commaSeparated ?_).mono fun declarations after progress => by omega
    intro middle inside
    exact declarator_progresses phrases (by omega)
  · simp only [settles_bind, settles_advance, settles_failExpected]

private theorem variableDeclaration_progresses (phrases : PhrasesProgress read bound)
    (room : 5 * cursor.remaining ≤ bound) : Progresses (variableDeclaration read) cursor := by
  simp only [Progresses, variableDeclaration, settles_bind, settles_here]
  refine (declarators_progress phrases room).mono ?_
  rintro ⟨word, declarations⟩ next progress
  simp only [settles_node]
  refine settles_semicolon ?_
  intro after ended
  omega

private theorem ifStatement_progresses (phrases : PhrasesProgress read bound)
    (room : 5 * cursor.remaining ≤ bound) : Progresses (ifStatement read) cursor := by
  have shorter := cursor.advance_le
  simp only [Progresses, ifStatement, settles_bind, settles_here, settles_advance]
  refine (parenthesized_progresses phrases (by omega)).mono ?_
  intro test middle tested
  refine (phrases.statement (by omega)).mono ?_
  intro consequent next progress
  apply settles_ifWord
  · intro inner atElse
    simp only [settles_bind, settles_pure, settles_node]
    exact (phrases.statement (by omega)).mono fun alternate after further => by omega
  · simp only [settles_bind, settles_pure, settles_node]
    omega

private theorem loopInit_settles (phrases : PhrasesProgress read bound)
    (room : 5 * cursor.remaining + 3 < bound) :
    Settles (loopInit read) cursor fun _ after => after.remaining ≤ cursor.remaining := by
  simp only [loopInit, settles_bind, settles_atPunct, settles_ite, settles_pure, settles_atWord,
    settles_here, Nat.le_refl, implies_true, true_and]
  refine fun _ => ⟨fun _ => ?_, fun _ => ?_⟩
  · refine (declarators_progress phrases (by omega)).mono ?_
    rintro ⟨word, declarations⟩ after progress
    simp only [settles_node]
    omega
  · exact (headExpression_progresses phrases (by omega)).mono fun init after progress =>
      Nat.le_of_lt progress

private theorem expressionUnless_settles (phrases : PhrasesProgress read bound) (punct : String)
    (room : 5 * cursor.remaining + 3 < bound) :
    Settles (expressionUnless read punct) cursor fun _ after =>
      after.remaining ≤ cursor.remaining := by
  simp only [expressionUnless, settles_bind, settles_atPunct, settles_ite, settles_pure, Nat.le_refl,
    implies_true, true_and]
  intro _
  exact (expression_progresses phrases room).mono fun value after progress => Nat.le_of_lt progress

private theorem forStatement_progresses (phrases : PhrasesProgress read bound)
    (room : 5 * cursor.remaining ≤ bound) : Progresses (forStatement read) cursor := by
  have shorter := cursor.advance_le
  simp only [Progresses, forStatement, settles_bind, settles_here, settles_advance]
  refine settles_expectPunct ?_
  intro opened first
  refine (loopInit_settles phrases (by omega)).mono ?_
  intro init second begun
  simp only [settles_atWord, settles_ite, settles_bind, settles_fail, ne_eq, reduceCtorEq,
    not_false_eq_true, implies_true, true_and]
  refine fun _ => settles_expectPunct ?_
  intro third ended
  refine (expressionUnless_settles phrases ";" (by omega)).mono ?_
  intro test fourth tested
  refine settles_expectPunct ?_
  intro fifth ended'
  refine (expressionUnless_settles phrases ")" (by omega)).mono ?_
  intro update sixth updated
  refine settles_expectPunct ?_
  intro seventh closed
  simp only [settles_node]
  exact (phrases.statement (by omega)).mono fun body after progress => by omega

private theorem whileStatement_progresses (phrases : PhrasesProgress read bound)
    (room : 5 * cursor.remaining ≤ bound) : Progresses (whileStatement read) cursor := by
  have shorter := cursor.advance_le
  simp only [Progresses, whileStatement, settles_bind, settles_here, settles_advance, settles_node]
  refine (parenthesized_progresses phrases (by omega)).mono ?_
  intro test middle tested
  exact (phrases.statement (by omega)).mono fun body after progress => by omega

/-- The body of a loop is the one phrase that may stand right behind a word, so the word has to be
there. -/
theorem doWhileStatement_progresses (phrases : PhrasesProgress read bound) {kind : TokenKind}
    (next : cursor.next? = some kind) (room : 5 * cursor.remaining ≤ bound) :
    Progresses (doWhileStatement read) cursor := by
  have shorter := Cursor.advance_of_next? next
  simp only [Progresses, doWhileStatement, settles_bind, settles_here, settles_advance]
  refine (phrases.statement (by omega)).mono ?_
  intro body middle progress
  refine settles_eatWord ?_ (by simp)
  intro inner atWhile
  simp only [Bool.not_true, Bool.false_eq_true, ↓reduceIte, settles_bind, settles_discard,
    settles_node]
  refine (parenthesized_progresses phrases (by omega)).mono ?_
  intro test last tested
  refine settles_eatPunct ?_ ?_
  · intro after ended
    omega
  · omega

private theorem returnedValue_settles (phrases : PhrasesProgress read bound)
    (room : 5 * cursor.remaining + 3 < bound) :
    Settles (returnedValue read) cursor fun _ after => after.remaining ≤ cursor.remaining := by
  simp only [returnedValue, settles_bind, settles_get]
  split
  · exact Nat.le_refl _
  · simp only [settles_ite, settles_pure, Nat.le_refl, implies_true, settles_bind, true_and]
    intro _
    exact (expression_progresses phrases room).mono fun value after progress => Nat.le_of_lt progress

private theorem returnStatement_progresses (phrases : PhrasesProgress read bound) {kind : TokenKind}
    (next : cursor.next? = some kind) (room : 5 * cursor.remaining ≤ bound) :
    Progresses (returnStatement read) cursor := by
  have shorter := Cursor.advance_of_next? next
  simp only [Progresses, returnStatement, settles_bind, settles_here, settles_advance, settles_node]
  refine (returnedValue_settles phrases (by omega)).mono ?_
  intro value middle returned
  refine settles_semicolon ?_
  intro after ended
  omega

private theorem throwStatement_progresses (phrases : PhrasesProgress read bound) {kind : TokenKind}
    (next : cursor.next? = some kind) (room : 5 * cursor.remaining ≤ bound) :
    Progresses (throwStatement read) cursor := by
  have shorter := Cursor.advance_of_next? next
  simp only [Progresses, throwStatement, settles_bind, settles_here, settles_advance, settles_node]
  refine (expression_progresses phrases (by omega)).mono ?_
  intro value middle thrown
  refine settles_semicolon ?_
  intro after ended
  omega

private theorem jumpStatement_progresses {word : String} {kind : TokenKind}
    (next : cursor.next? = some kind) : Progresses (jumpStatement word) cursor := by
  have shorter := Cursor.advance_of_next? next
  simp only [Progresses, jumpStatement, noLabel_eq, settles_bind, settles_here, settles_advance, settles_get,
    settles_ite, settles_fail, settles_pure, ne_eq, reduceCtorEq, not_false_eq_true, implies_true, true_and,
    settles_node]
  refine fun _ => settles_semicolon ?_
  intro after ended
  omega

private theorem handler_settles (phrases : PhrasesProgress read bound) (room : 5 * cursor.remaining ≤ bound) :
    Settles (handler read) cursor fun _ after => after.remaining ≤ cursor.remaining := by
  simp only [handler, settles_bind, settles_here]
  refine settles_ifWord ?_ (by simp)
  intro next caught
  simp only [settles_bind]
  have clause (param : Option Draft) (middle : Cursor) (shorter : middle.remaining < cursor.remaining) :
      Settles (block read) middle fun body after => Settles (node "CatchClause" cursor.start none
        [.single "param" param, .single "body" body]) after fun _ after =>
          after.remaining ≤ cursor.remaining := by
    simp only [settles_node]
    exact (block_progresses phrases (by omega)).mono fun body after progress => by omega
  apply settles_ifPunct
  · intro inner opened
    simp only [settles_bind, settles_pure]
    refine bindingName_progresses.mono ?_
    intro name last named
    refine settles_expectPunct ?_
    intro behind closed
    exact clause (some name) behind (by omega)
  · simp only [settles_bind, settles_pure]
    exact clause none next caught

private theorem tryStatement_progresses (phrases : PhrasesProgress read bound)
    (room : 5 * cursor.remaining ≤ bound) : Progresses (tryStatement read) cursor := by
  have shorter := cursor.advance_le
  simp only [Progresses, tryStatement, settles_bind, settles_here, settles_advance]
  refine (block_progresses phrases (by omega)).mono ?_
  intro body middle progress
  refine (handler_settles phrases (by omega)).mono ?_
  intro clause next handled
  apply settles_ifWord
  · intro inner atFinally
    simp only [settles_bind, settles_pure, settles_ite, settles_failExpected, implies_true, true_and,
      settles_node]
    exact (block_progresses phrases (by omega)).mono fun finalizer after further _ => by omega
  · simp only [settles_pure, settles_ite, settles_failExpected, implies_true, true_and, settles_bind,
      settles_node]
    intro _
    omega

private theorem caseTest_progresses (phrases : PhrasesProgress read bound)
    (room : 5 * cursor.remaining ≤ bound) : Progresses (caseTest read) cursor := by
  simp only [Progresses, caseTest, settles_bind]
  apply settles_ifWord
  · intro inner atCase
    simp only [settles_bind, settles_pure]
    exact (expression_progresses phrases (by omega)).mono fun test after progress => by omega
  · simp only [settles_bind]
    refine settles_ifWord ?_ (by simp)
    intro after atDefault
    exact atDefault

private theorem switchCase_progresses (phrases : PhrasesProgress read bound)
    (room : 5 * cursor.remaining ≤ bound) : Progresses (switchCase read) cursor := by
  simp only [Progresses, switchCase, settles_bind, settles_here, settles_node]
  refine (caseTest_progresses phrases room).mono ?_
  intro test middle progress
  refine settles_expectPunct ?_
  intro inner colon
  refine (settles_many ?_).mono fun consequent after shorter => by omega
  intro next shorter
  simp only [atCaseEnd, settles_bind, settles_atWord, settles_atPunct, settles_pure, Nat.le_refl,
    true_and]
  exact fun _ => statementInBraces_progresses phrases (by omega)

private theorem switchStatement_progresses (phrases : PhrasesProgress read bound)
    (room : 5 * cursor.remaining ≤ bound) : Progresses (switchStatement read) cursor := by
  have shorter := cursor.advance_le
  simp only [Progresses, switchStatement, settles_bind, settles_here, settles_advance, settles_node]
  refine (parenthesized_progresses phrases (by omega)).mono ?_
  intro discriminant middle progress
  refine settles_expectPunct ?_
  intro inner opened
  refine (settles_manyUntil ?_).mono fun cases after closed => by omega
  intro next inside
  exact switchCase_progresses phrases (by omega)

/-- A member of a class takes a token. -/
theorem classMember_progresses (phrases : PhrasesProgress read bound)
    (room : 5 * cursor.remaining ≤ bound) : Progresses (classMember read) cursor := by
  simp only [Progresses, classMember, settles_bind, settles_here, settles_get]
  have keyed (text : Option String) (next : Cursor) (shorter : next.remaining ≤ cursor.remaining) :
      Settles (do
        let key ← propertyKey read
        if ← atPunct "(" then
          method read "ClassMethod" cursor.start text key
        else
          let value ← if ← eatPunct "=" then pure (some (← read .assignment)) else pure none
          semicolon
          node "ClassProperty" cursor.start text [.single "key" key, .single "value" value])
        next fun _ after => after.remaining < cursor.remaining := by
    simp only [settles_bind, settles_atPunct]
    refine (propertyKey_progresses phrases (by omega)).mono ?_
    intro key middle progress
    split
    · exact (method_progresses phrases (by omega)).mono fun draft after further => by omega
    simp only [settles_bind]
    apply settles_ifPunct
    · intro inner equals
      simp only [settles_bind, settles_pure, settles_node]
      refine (phrases.assignment (by omega)).mono ?_
      intro value last further
      apply settles_semicolon
      intro after ended
      omega
    · simp only [settles_bind, settles_pure, settles_node]
      apply settles_semicolon
      intro after ended
      omega
  split
  · rw [settles_bind, settles_advance]
    exact keyed _ _ cursor.advance_le
  · exact keyed _ _ (Nat.le_refl _)

private theorem classBody_progresses (phrases : PhrasesProgress read bound)
    (room : 5 * cursor.remaining ≤ bound) : Progresses (classBody read) cursor := by
  simp only [Progresses, classBody, settles_bind, settles_here, settles_node]
  refine settles_expectPunct ?_
  intro inner opened
  refine (settles_manyUntil ?_).mono fun items after closed => by omega
  intro middle inside
  simp only [Progresses, classItem, settles_bind]
  apply settles_ifPunct
  · intro after ended
    exact ended
  · simp only [settles_bind, settles_pure]
    exact classMember_progresses phrases (by omega)

private theorem classDeclaration_progresses (phrases : PhrasesProgress read bound)
    (room : 5 * cursor.remaining ≤ bound) : Progresses (classDeclaration read) cursor := by
  have shorter := cursor.advance_le
  simp only [Progresses, classDeclaration, settles_bind, settles_here, settles_advance]
  refine bindingName_progresses.mono ?_
  intro id next named
  have behind (superClass : Option Draft) (middle : Cursor) (progress : middle.remaining ≤ next.remaining) :
      Settles (classBody read) middle fun body after =>
        Settles (node "ClassDeclaration" cursor.start none
          [.single "id" id, .single "superClass" superClass, .single "body" body]) after
            fun _ after => after.remaining < cursor.remaining := by
    simp only [settles_node]
    exact (classBody_progresses phrases (by omega)).mono fun body after further => by omega
  apply settles_ifWord
  · intro inner extended
    simp only [settles_bind, settles_pure]
    refine (chain_progresses phrases (by omega)).mono ?_
    intro superClass middle progress
    exact behind (some superClass) middle (by omega)
  · simp only [settles_bind, settles_pure]
    exact behind none next (Nat.le_refl _)

private theorem expressionStatement_progresses (phrases : PhrasesProgress read bound)
    (room : 5 * cursor.remaining + 3 < bound) : Progresses (expressionStatement read) cursor := by
  simp only [Progresses, expressionStatement, settles_bind, settles_here, settles_node]
  refine (expression_progresses phrases room).mono ?_
  intro inner middle progress
  refine settles_semicolon ?_
  intro after ended
  omega

private theorem statement_progresses (phrases : PhrasesProgress read bound)
    (room : 5 * cursor.remaining + 3 < bound) : Progresses (statement read) cursor := by
  have behind : 5 * cursor.remaining ≤ bound := by omega
  simp only [Progresses, statement, settles_bind, settles_here, settles_peek]
  split <;> rename_i next
  · exact settles_failExpected _
  · exact block_progresses phrases behind
  · exact Cursor.advance_of_next? next
  · exact function_progresses phrases _ _ behind
  · exact classDeclaration_progresses phrases behind
  · exact variableDeclaration_progresses phrases behind
  · exact variableDeclaration_progresses phrases behind
  · simp only [settles_bind, settles_get, settles_ite]
    exact ⟨fun _ => variableDeclaration_progresses phrases behind,
      fun _ => expressionStatement_progresses phrases room⟩
  · exact ifStatement_progresses phrases behind
  · exact forStatement_progresses phrases behind
  · exact whileStatement_progresses phrases behind
  · exact doWhileStatement_progresses phrases next behind
  · exact returnStatement_progresses phrases next behind
  · exact throwStatement_progresses phrases next behind
  · exact jumpStatement_progresses next
  · exact jumpStatement_progresses next
  · exact tryStatement_progresses phrases behind
  · exact switchStatement_progresses phrases behind
  · exact Fault.noConfusion
  · exact Fault.noConfusion
  · exact expressionStatement_progresses phrases room

end Statements

section Grammar

variable {read : PhraseReader} {bound : Nat}

/-- One more unrolling of the grammar lets one more phrase progress. -/
theorem production_progresses (phrases : PhrasesProgress read bound) :
    PhrasesProgress (fun phrase => phrase.production read) (bound + 1) := by
  intro phrase cursor room
  cases phrase with
  | statement =>
    exact nested_progresses (statement_progresses phrases (Nat.lt_of_succ_lt_succ room))
  | assignment => exact assignment_progresses phrases (Nat.lt_of_succ_lt_succ room)
  | binary least allowIn => exact binary_progresses phrases _ _ (Nat.lt_of_succ_lt_succ room)
  | unary => exact nested_progresses (unary_progresses phrases (Nat.lt_of_succ_lt_succ room))
  | construction => exact construction_progresses phrases (Nat.le_of_lt_succ room)

/-- Every phrase takes a token as long as the unrollings suffice. -/
theorem readWithin_progresses (limit : Nat) : PhrasesProgress (Phrase.readWithin limit) limit := by
  induction limit with
  | zero => exact fun _ _ room => absurd room (Nat.not_lt_zero _)
  | succ limit ih => exact production_progresses ih

/-- Programs are read to an end of their own. -/
theorem program_settles (phrases : PhrasesProgress read bound)
    (room : 5 * cursor.remaining + 4 < bound) :
    Settles (program read) cursor fun _ after => after.remaining ≤ cursor.remaining := by
  simp only [program, settles_bind, settles_get, make_draft, settles_pure]
  refine settles_many ?_
  intro middle shorter
  simp only [settles_atEnd, Nat.le_refl, true_and]
  exact fun _ => phrases.statement (by omega)

/-- There are enough unrollings for the tokens. -/
theorem Cursor.room_at_first (tokens : List Token) (sourceEnd : Pos) :
    5 * (Cursor.first tokens sourceEnd).remaining + 4 < unrollings tokens.length :=
  Nat.lt_succ_self _

/-- The grammar is unrolled often enough: no parse fails because it is not. -/
theorem parseTokens_settles {tokens : List Token} {sourceEnd : Pos} {error : Error}
    (failed : parseTokens tokens sourceEnd = .error error) : error.fault ≠ .stalled := by
  have settles := program_settles (readWithin_progresses _) (Cursor.room_at_first tokens sourceEnd)
  unfold parseTokens at failed
  split at failed
  · cases failed
  · rename_i met
    cases failed
    exact settles.fault_ne_stalled met

end Grammar

end SyntaxNav.Script

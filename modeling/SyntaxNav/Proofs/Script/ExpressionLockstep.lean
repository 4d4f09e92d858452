import SyntaxNav.Proofs.Script.BarredStarts
import SyntaxNav.Proofs.Script.Lockstep

/-! # Expressions in lockstep

In every lockstep each production of an expression keeps up, if the phrases inside it do. An expression
never ends behind a semicolon. Its first token is passed before anything is looked at that the two cursors
need not have in common at the start of a phrase.
-/

namespace SyntaxNav.Script

open Lockstep

variable {steps : Lockstep}

def Lockstep.AtNew (steps : Lockstep) (cursor twin : Cursor) : Prop :=
  steps.Entering cursor twin ∧ cursor.atWord "new" = true

private theorem Lockstep.AtNew.atToken {cursor twin : Cursor} (atNew : steps.AtNew cursor twin) :
    steps.AtToken cursor twin :=
  ⟨atNew.1, _, Cursor.atWord_iff.mp atNew.2, nofun⟩

/-- The phrases of the second reader keep up with those of the first. -/
structure PhrasesKeepUp (steps : Lockstep) (read other : PhraseReader) : Prop where
  covers : PhrasesCover read
  stuck (phrase : Phrase) : phrase ≠ .construction → Stuck (read phrase)
  statement : steps.Ends (read .statement) (other .statement)
  assignment : steps.Reads (read .assignment) (other .assignment)
  binary (least : Nat) (allowIn : Bool) :
    steps.Reads (read (.binary least allowIn)) (other (.binary least allowIn))
  unary : steps.Reads (read .unary) (other .unary)
  construction :
    KeepsUp steps.AtNew (fun _ => steps.Inside) (read .construction) (other .construction)

section Names

/-- A reader that is told by the next token keeps up if it does so from every token on. -/
theorem keepsUp_byToken {α : Type} {after : α → Cursor → Cursor → Prop} {wanted : String}
    {reader : Token → Reader α} {other : Token → Reader α}
    (further : ∀ cursor twin token twinToken, steps.Entering cursor twin →
      cursor.next? = some token.kind → twinToken.kind = token.kind →
      (∀ kind, leaf kind twinToken = leaf kind token) →
      KeepsUp (At cursor twin) after (reader token) (other twinToken)) :
    KeepsUp steps.Entering after
      (do match (← get).rest with | [] => failExpected wanted | token :: _ => reader token)
      (do match (← get).rest with | [] => failExpected wanted | token :: _ => other token) := by
  refine .get fun cursor twin entering => ?_
  rcases head_cases entering with ⟨first, second⟩ |
    ⟨token, rest, twinToken, others, first, second, kind, leaves⟩
  · rw [first]
    exact .failExpected _
  · rw [first, second]
    exact further cursor twin token twinToken entering (by rw [Cursor.next?, first]; rfl) kind leaves

/-- Names that are bound are read in lockstep. -/
theorem bindingName_keepsUp : steps.Reads bindingName bindingName := by
  refine keepsUp_byToken fun cursor twin token twinToken entering next kind leaves => ?_
  simp only [kind, makeLeaf_draft, leaves]
  split
  · rename_i word
    refine .ite _ (.failExpected _) ?_
    exact (advance_at entering next (by rw [word]; nofun)).bind fun _ => .pure _
  · exact .failAt _ _
  · exact .failAt _ _
  · exact .failExpected _

private theorem propertyName_keepsUp : steps.Reads propertyName propertyName := by
  refine keepsUp_byToken fun cursor twin token twinToken entering next kind leaves => ?_
  simp only [kind, makeLeaf_draft, leaves]
  split
  · rename_i word
    exact (advance_at entering next (by rw [word]; nofun)).bind fun _ => .pure _
  · exact .failExpected _

/-- Keys are read in lockstep. -/
theorem propertyKey_keepsUp {read other : PhraseReader} (phrases : PhrasesKeepUp steps read other) :
    steps.Reads (propertyKey read) (propertyKey other) := by
  refine keepsUp_byToken fun cursor twin token twinToken entering next kind leaves => ?_
  simp only [kind, makeLeaf_draft, leaves]
  split
  · rename_i word
    exact (advance_at entering next (by rw [word]; nofun)).bind fun _ => .pure _
  · rename_i string
    exact (advance_at entering next (by rw [string]; nofun)).bind fun _ => .pure _
  · rename_i number
    exact (advance_at entering next (by rw [number]; nofun)).bind fun _ => .pure _
  · rename_i opens
    refine (advance_at entering next (by rw [opens]; decide)).bind fun _ => ?_
    refine phrases.assignment.continues.bind fun key => ?_
    exact (reads_expectPunct (by decide)).continues.bind fun _ => .pure key
  · exact .failExpected _

end Names

private theorem reads_sequence {item other : Reader Draft} (items : steps.Reads item other) :
    steps.Reads (sequence item) (sequence other) := by
  refine entering_here.bind fun start => (reads_commaSeparated items).bind fun drafts => ?_
  match drafts with
  | [only] => exact .pure only
  | [] => exact inside_node _ start none _
  | first :: second :: rest => exact inside_node _ start none _

section Productions

variable {read other : PhraseReader} (phrases : PhrasesKeepUp steps read other)

include phrases

theorem expression_keepsUp : steps.Reads (expression read) (expression other) :=
  reads_sequence phrases.assignment

/-- No expression is read where none starts. -/
theorem expression_stuck : Stuck (expression read) :=
  (phrases.stuck .assignment nofun).sequence

/-- Expressions in parentheses are read in lockstep. -/
theorem parenthesized_keepsUp : steps.Reads (parenthesized read) (parenthesized other) := by
  refine (reads_expectPunct (by decide)).bind fun _ => ?_
  refine (expression_keepsUp phrases).continues.bind fun inner => ?_
  exact (reads_expectPunct (by decide)).continues.bind fun _ => .pure inner

theorem statementInBraces_keepsUp :
    steps.Ends (statementInBraces read) (statementInBraces other) :=
  (keeps_atEnd fun _ _ => id).bind fun _ => .ite _ (.failExpected _) phrases.statement

omit phrases in
/-- At the end of the tokens no statement is read before a brace. -/
theorem statementInBraces_stuck {cursor : Cursor} (nothing : cursor.rest = []) :
    Ensures (statementInBraces read) cursor fun _ _ => False := by
  simp [statementInBraces, nothing]

omit phrases in
/-- At the end of the tokens no punctuator is passed. -/
theorem eatPunct_goesOn {cursor : Cursor} (nothing : cursor.rest = []) (punct : String) :
    Ensures (eatPunct punct) cursor fun stopped after => stopped = false ∧ after = cursor := by
  simp [Cursor.atPunct, Cursor.next?, nothing]

/-- Blocks are read in lockstep. -/
theorem block_keepsUp : steps.Reads (block read) (block other) := by
  refine entering_here.bind fun start => (reads_expectPunct (by decide)).bind fun _ => ?_
  refine KeepsUp.bind ?_ fun body => inside_node "BlockStatement" start none [.list "body" body]
  exact continues_statements (inside_eatPunct (by decide)) (statementInBraces_keepsUp phrases).closes
    (fun _ nothing => eatPunct_goesOn nothing _) fun _ => statementInBraces_stuck

private theorem param_keepsUp : steps.Continues (param read) (param other) := by
  refine inside_here.bind fun start => (inside_eatPunct (by decide)).bind fun dots => .ite _ ?_ ?_
  · exact bindingName_keepsUp.continues.bind fun argument => inside_node _ start none _
  · refine bindingName_keepsUp.continues.bind fun left => ?_
    refine (inside_eatPunct (by decide)).bind fun equals => .ite _ ?_ (.pure left)
    exact phrases.assignment.continues.bind fun right => inside_node _ start none _

private theorem params_keepUp : steps.Reads (params read) (params other) :=
  (reads_expectPunct (by decide)).bind fun _ => continues_list (by decide) (param_keepsUp phrases)

omit phrases in
private theorem functionName_keepsUp (needed : Bool) :
    steps.Continues (functionName needed) (functionName needed) := by
  refine keeps_peek (fun _ _ => steps.entering_of_inside) fun cursor twin inside => ?_
  split
  · exact (bindingName_keepsUp.continues.restrict inside).bind fun name => .pure (some name)
  · refine .ite _ ?_ ((KeepsUp.pure none).restrict inside)
    exact (bindingName_keepsUp.continues.restrict inside).bind fun name => .pure (some name)

/-- Functions are read in lockstep from their word on. -/
theorem function_keepsUp (kind : String) (needsName : Bool) :
    KeepsUp steps.AtToken (fun _ => steps.Inside) (function read kind needsName)
      (function other kind needsName) := by
  refine (keeps_here fun _ _ => And.left).bind fun start => advance_past.bind fun _ => ?_
  refine (inside_atPunct "*").bind fun star => .ite _ (.fail _) ?_
  refine (functionName_keepsUp needsName).bind fun id => ?_
  refine (params_keepUp phrases).continues.bind fun parameters => ?_
  exact (block_keepsUp phrases).continues.bind fun body => inside_node kind start none _

/-- Methods are read in lockstep behind their key. -/
theorem method_keepsUp (kind : String) (start : Pos) (text : Option String) (key : Draft) :
    steps.Continues (method read kind start text key) (method other kind start text key) := by
  refine (params_keepUp phrases).continues.bind fun parameters => ?_
  exact (block_keepsUp phrases).continues.bind fun body => inside_node kind start text _

private theorem argument_keepsUp : steps.Continues (argument read) (argument other) := by
  refine inside_here.bind fun start => (inside_eatPunct (by decide)).bind fun dots => ?_
  refine .ite _ ?_ phrases.assignment.continues
  exact phrases.assignment.continues.bind fun inner => inside_node _ start none _

private theorem objectProperty_keepsUp (start : Pos) (keyToken : Option Token) (key : Draft) :
    steps.Continues (objectProperty read start keyToken key)
      (objectProperty other start keyToken key) := by
  refine (inside_atPunct "(").bind fun opens => .ite _ (method_keepsUp phrases _ start none key) ?_
  refine (inside_eatPunct (by decide)).bind fun colon => .ite _ ?_ ?_
  · exact phrases.assignment.continues.bind fun value => inside_node _ start none _
  · cases keyToken with
    | none => exact .failExpected _
    | some token =>
      dsimp only
      split
      · exact .ite _ (.failExpected _) (inside_node _ start _ _)
      · exact .failExpected _

private theorem objectMember_keepsUp : steps.Continues (objectMember read) (objectMember other) := by
  refine inside_here.bind fun start => (inside_eatPunct (by decide)).bind fun dots => .ite _ ?_ ?_
  · exact phrases.assignment.continues.bind fun inner => inside_node _ start none _
  · refine .get fun cursor twin inside => ?_
    rw [steps.token inside]
    refine KeepsUp.restrict ?_ inside
    exact (propertyKey_keepsUp phrases).continues.bind fun key =>
      objectProperty_keepsUp phrases start _ key

omit phrases in
private theorem constant_keepsUp (kind : String) :
    KeepsUp steps.AtToken (fun _ => steps.Inside) (constant kind) (constant kind) :=
  (keeps_here fun _ _ => And.left).bind fun start =>
    advance_past.bind fun _ => inside_node kind start none []

private theorem array_keepsUp : KeepsUp steps.AtToken (fun _ => steps.Inside) (array read) (array other) := by
  refine (keeps_here fun _ _ => And.left).bind fun start => advance_past.bind fun _ => ?_
  exact (continues_list (by decide) (argument_keepsUp phrases)).bind fun elements =>
    inside_node _ start none _

private theorem object_keepsUp :
    KeepsUp steps.AtToken (fun _ => steps.Inside) (object read) (object other) := by
  refine (keeps_here fun _ _ => And.left).bind fun start => advance_past.bind fun _ => ?_
  exact (continues_list (by decide) (objectMember_keepsUp phrases)).bind fun properties =>
    inside_node _ start none _

private theorem primary_keepsUp : steps.Reads (primary read) (primary other) := by
  refine keepsUp_byToken fun cursor twin token twinToken entering next kind leaves => ?_
  have literals (kind : String) : (literal kind twinToken : Reader Draft) = literal kind token := by
    rw [literal, literal, makeLeaf_draft, makeLeaf_draft, leaves]
  have past (differs : token.kind ≠ .punct ";") : steps.AtToken cursor twin :=
    ⟨entering, token.kind, next, differs⟩
  have literal_keepsUp (kind : String) (differs : token.kind ≠ .punct ";") :
      KeepsUp (At cursor twin) (fun _ => steps.Inside) (literal kind token) (literal kind token) :=
    (advance_at entering next differs).bind fun _ => .pure (leaf kind token)
  simp only [kind, literals]
  split <;> rename_i same
  · exact literal_keepsUp _ (by simp [same])
  · exact literal_keepsUp _ (by simp [same])
  · exact literal_keepsUp _ (by simp [same])
  · exact literal_keepsUp _ (by simp [same])
  · exact (constant_keepsUp _).restrict (past (by simp [same]))
  · exact (constant_keepsUp _).restrict (past (by simp [same]))
  · exact (function_keepsUp phrases _ false).restrict (past (by simp [same]))
  · exact .ite _ (.failExpected _) (literal_keepsUp _ (by simp [same]))
  · exact (parenthesized_keepsUp phrases).restrict entering
  · exact (array_keepsUp phrases).restrict (past (by simp [same]))
  · exact (object_keepsUp phrases).restrict (past (by simp [same]))
  · exact .failExpected _

private theorem computedMember_keepsUp (start : Pos) (object : Draft) :
    steps.Continues (computedMember read start object) (computedMember other start object) := by
  refine (expression_keepsUp phrases).continues.bind fun property => ?_
  exact (reads_expectPunct (by decide)).continues.bind fun _ => inside_node _ start _ _

omit phrases in
private theorem namedMember_keepsUp (kind : String) (start : Pos) (object : Draft) :
    steps.Continues (namedMember kind start object) (namedMember kind start object) :=
  propertyName_keepsUp.continues.bind fun _ => inside_node kind start none _

omit phrases in
private theorem optionalMember_keepsUp (start : Pos) (object : Draft) :
    steps.Continues (optionalMember start object) (optionalMember start object) := by
  refine (inside_atPunct "(").bind fun opens => (inside_atPunct "[").bind fun bracket => ?_
  exact .ite _ (.fail _) (namedMember_keepsUp _ start object)

private theorem memberOrCall_keepsUp (start : Pos) (inner : Draft) :
    steps.Continues (memberOrCall read start inner) (memberOrCall other start inner) := by
  refine (inside_eatPunct (by decide)).bind fun point => .ite _ ?_ ?_
  · exact (namedMember_keepsUp _ start inner).bind fun member => .pure (some member)
  refine (inside_eatPunct (by decide)).bind fun optional => .ite _ ?_ ?_
  · exact (optionalMember_keepsUp start inner).bind fun member => .pure (some member)
  refine (inside_eatPunct (by decide)).bind fun bracket => .ite _ ?_ ?_
  · exact (computedMember_keepsUp phrases start inner).bind fun member => .pure (some member)
  refine (inside_eatPunct (by decide)).bind fun opens => .ite _ ?_ (.pure none)
  refine (continues_list (by decide) (argument_keepsUp phrases)).bind fun arguments => ?_
  exact (inside_node _ start none _).bind fun call => .pure (some call)

/-- Members and calls are read in lockstep. -/
theorem chain_keepsUp : steps.Reads (chain read) (chain other) := by
  refine entering_here.bind fun start => ?_
  refine KeepsUp.look (fun _ _ entering => atWord_eq entering "new") fun cursor twin entering => ?_
  have members (inner : Draft) := continues_grow (memberOrCall_keepsUp phrases start) inner
  cases isNew : cursor.atWord "new" with
  | true => exact (phrases.construction.restrict ⟨entering, isNew⟩).bind members
  | false => exact ((primary_keepsUp phrases).restrict entering).bind members

private theorem constructedMember_keepsUp (start : Pos) (inner : Draft) :
    steps.Continues (constructedMember read start inner) (constructedMember other start inner) := by
  refine (inside_eatPunct (by decide)).bind fun point => .ite _ ?_ ?_
  · exact (namedMember_keepsUp _ start inner).bind fun member => .pure (some member)
  refine (inside_eatPunct (by decide)).bind fun bracket => .ite _ ?_ (.pure none)
  exact (computedMember_keepsUp phrases start inner).bind fun member => .pure (some member)

private theorem nestedConstruction_keepsUp : KeepsUp steps.AtNew (fun _ => steps.Inside)
    (nested (read .construction)) (nested (other .construction)) :=
  keepsUp_nested phrases.construction
    (fun _ _ ⟨entering, isNew⟩ => ⟨steps.depth (.inl entering),
      fun depth => ⟨steps.entering_depth depth entering, isNew⟩⟩)
    fun _ _ inside => ⟨steps.depth (.inr (steps.leaving_of_inside inside)),
      fun depth => steps.inside_depth depth inside⟩

/-- Constructions are read in lockstep from their word on. -/
theorem construction_keepsUp :
    KeepsUp steps.AtNew (fun _ => steps.Inside) (construction read) (construction other) := by
  refine (keeps_here fun _ _ => And.left).bind fun start => ?_
  refine (advance_past.mono (fun _ _ => AtNew.atToken) fun _ _ _ => id).bind fun _ => ?_
  have rest (inner : Draft) : steps.Continues
      (do
        let callee ← grow (constructedMember read start) inner
        let arguments ← if ← eatPunct "(" then list ")" (argument read) else pure []
        node "NewExpression" start none [.single "callee" callee, .list "arguments" arguments])
      (do
        let callee ← grow (constructedMember other start) inner
        let arguments ← if ← eatPunct "(" then list ")" (argument other) else pure []
        node "NewExpression" start none [.single "callee" callee, .list "arguments" arguments]) := by
    refine (continues_grow (constructedMember_keepsUp phrases start) inner).bind fun callee => ?_
    refine (inside_eatPunct (by decide)).bind fun opens => .ite _ ?_ ?_
    · exact (continues_list (by decide) (argument_keepsUp phrases)).bind fun _ => inside_node _ start none _
    · exact (KeepsUp.pure []).bind fun _ => inside_node _ start none _
  refine KeepsUp.look (fun _ _ inside => atWord_eq (steps.entering_of_inside inside) "new")
    fun cursor twin inside => ?_
  cases isNew : cursor.atWord "new" with
  | true =>
    refine ((nestedConstruction_keepsUp phrases).restrict ?_).bind rest
    exact ⟨steps.entering_of_inside inside, isNew⟩
  | false => exact ((primary_keepsUp phrases).continues.restrict inside).bind rest

omit phrases in
private theorem trailingOperator?_eq {cursor twin : Cursor} (inside : steps.Inside cursor twin) :
    trailingOperator? twin = trailingOperator? cursor := by
  unfold trailingOperator?
  rcases token_cases inside with ⟨first, second⟩ | ⟨token, rest, others, first, second⟩
  · rw [first, second]
  · rw [first, second]
    obtain ⟨kind, span, newlineBefore⟩ := token
    cases newlineBefore with
    | true => simp
    | false =>
      cases kind with
      | punct text => split <;> simp_all
      | word | number | string => rfl

omit phrases in
private theorem trailingOperator?_atToken {cursor twin : Cursor} {operator : String}
    (inside : steps.Inside cursor twin) (found : trailingOperator? cursor = some operator) :
    steps.AtToken cursor twin := by
  refine ⟨steps.entering_of_inside inside, ?_⟩
  unfold trailingOperator? at found
  split at found
  · rename_i ahead
    exact ⟨.punct "++", by rw [Cursor.next?, ahead]; rfl, by decide⟩
  · rename_i ahead
    exact ⟨.punct "--", by rw [Cursor.next?, ahead]; rfl, by decide⟩
  · cases found

private theorem postfixed_keepsUp : steps.Reads (postfixed read) (postfixed other) := by
  refine entering_here.bind fun start => (chain_keepsUp phrases).bind fun inner => ?_
  refine .get fun cursor twin inside => ?_
  rw [trailingOperator?_eq inside]
  split
  · exact (KeepsUp.pure inner).restrict inside
  · rename_i operator found
    refine (advance_past.restrict (trailingOperator?_atToken inside found)).bind fun _ => ?_
    exact inside_node _ start _ _

omit phrases in
/-- An operator that is told by the next token is no semicolon. -/
theorem atToken_of_operator {α : Type} {cursor twin : Cursor} {operator? : TokenKind → Option α}
    {operator : α} (entering : steps.Entering cursor twin)
    (found : cursor.next?.bind operator? = some operator) (none_ : operator? (.punct ";") = none) :
    steps.AtToken cursor twin := by
  obtain ⟨kind, next, isOperator⟩ := Option.bind_eq_some_iff.mp found
  refine ⟨entering, kind, next, ?_⟩
  rintro rfl
  rw [none_] at isOperator
  cases isOperator

/-- Operands with operators in front are read in lockstep. -/
theorem unary_keepsUp : steps.Reads (unary read) (unary other) := by
  refine entering_here.bind fun start => ?_
  refine keeps_peek (fun _ _ => id) fun cursor twin entering => ?_
  split
  · exact (postfixed_keepsUp phrases).restrict entering
  · rename_i kind operator found
    refine (advance_past.restrict (atToken_of_operator entering found rfl)).bind fun _ => ?_
    exact phrases.unary.continues.bind fun inner => inside_node kind start _ _

private theorem operation_keepsUp (start : Pos) (least : Nat) (allowIn : Bool) (left : Draft) :
    steps.Continues (operation read start least allowIn left)
      (operation other start least allowIn left) := by
  refine keeps_peek (fun _ _ => steps.entering_of_inside) fun cursor twin inside => ?_
  split
  · exact (KeepsUp.pure none).restrict inside
  · rename_i operator found
    refine .ite _ ((KeepsUp.pure none).restrict inside) ?_
    have atToken := atToken_of_operator (steps.entering_of_inside inside) found rfl
    refine (advance_past.restrict atToken).bind fun _ => ?_
    refine (phrases.binary _ allowIn).continues.bind fun right => ?_
    exact (inside_node _ start _ _).bind fun joined => .pure (some joined)

/-- Operands joined by operators are read in lockstep. -/
theorem binary_keepsUp (least : Nat) (allowIn : Bool) :
    steps.Reads (binary read least allowIn) (binary other least allowIn) := by
  refine entering_here.bind fun start => phrases.unary.bind fun first => ?_
  exact continues_grow (operation_keepsUp phrases start least allowIn) first

private theorem conditional_keepsUp : steps.Reads (conditional read) (conditional other) := by
  refine entering_here.bind fun start => (phrases.binary 1 true).bind fun test => ?_
  refine (inside_eatPunct (by decide)).bind fun asks => .ite _ ?_ (.pure test)
  refine phrases.assignment.continues.bind fun consequent => ?_
  refine (reads_expectPunct (by decide)).continues.bind fun _ => ?_
  exact phrases.assignment.continues.bind fun alternate => inside_node _ start none _

private theorem assignmentTo_keepsUp (start : Pos) (left : Draft) :
    steps.Continues (assignmentTo read start left) (assignmentTo other start left) := by
  refine keeps_peek (fun _ _ => steps.entering_of_inside) fun cursor twin inside => ?_
  split
  · exact (KeepsUp.pure left).restrict inside
  · rename_i operator found
    have atToken := atToken_of_operator (steps.entering_of_inside inside) found (by decide)
    refine (advance_past.restrict atToken).bind fun _ => ?_
    exact phrases.assignment.continues.bind fun right => inside_node _ start _ _

private theorem arrow_keepsUp : steps.Reads (arrow read) (arrow other) := by
  refine entering_here.bind fun start => (keeps_atPunct (fun _ _ => id) "(").bind fun opens => ?_
  -- Both ways to write the parameters go on alike.
  have rest (parameters : List Draft) : steps.Continues
      (do
        expectPunct "=>"
        let body ← if ← atPunct "\x7b" then block read else read .assignment
        node "ArrowFunctionExpression" start none [.list "params" parameters, .single "body" body])
      (do
        expectPunct "=>"
        let body ← if ← atPunct "\x7b" then block other else other .assignment
        node "ArrowFunctionExpression" start none
          [.list "params" parameters, .single "body" body]) := by
    refine (reads_expectPunct (by decide)).continues.bind fun _ => ?_
    refine (inside_atPunct "\x7b").bind fun brace => .ite _ ?_ ?_
    · exact (block_keepsUp phrases).continues.bind fun body => inside_node _ start none _
    · exact phrases.assignment.continues.bind fun body => inside_node _ start none _
  refine .ite _ ((params_keepUp phrases).bind rest) ?_
  exact bindingName_keepsUp.bind fun name => (KeepsUp.pure [name]).bind rest

private theorem assignmentOrConditional_keepsUp :
    steps.Reads (assignmentOrConditional read) (assignmentOrConditional other) :=
  entering_here.bind fun start =>
    (conditional_keepsUp phrases).bind fun left => assignmentTo_keepsUp phrases start left

/-- Where the first reader found no arrow function announced and read something else, the second one finds
none announced either. -/
theorem assignment_keepsUp : steps.Reads (assignment read) (assignment other) := by
  refine .get fun cursor twin entering => ?_
  cases announced : cursor.atArrow with
  | true =>
    rw [steps.arrow entering announced]
    exact (arrow_keepsUp phrases).restrict entering
  | false =>
    rintro _ _ ⟨rfl, rfl⟩ value left success
    obtain ⟨right, same, inside⟩ :=
      assignmentOrConditional_keepsUp phrases _ _ entering value left success
    have yields := assignmentOrConditional_covers phrases.covers value left success
    rw [steps.no_arrow entering announced yields inside]
    exact ⟨right, same, inside⟩

/-- The expression in the head of a loop is read in lockstep. -/
theorem headExpression_keepsUp : steps.Reads (headExpression read) (headExpression other) := by
  refine reads_sequence (entering_here.bind fun start => ?_)
  exact (phrases.binary 1 false).bind fun left => assignmentTo_keepsUp phrases start left

end Productions

end SyntaxNav.Script

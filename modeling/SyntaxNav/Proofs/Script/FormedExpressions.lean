import SyntaxNav.Proofs.Script.ExpressionCoverage
import SyntaxNav.Proofs.Script.Forms

/-! # Expressions are well formed

Every production for names, functions and expressions gives drafts of the forms of its category, if the
phrases inside it do.
-/

namespace SyntaxNav.Script

variable {cursor : Cursor} {read : PhraseReader}

/-- What a reader gives at a cursor is, but for its positions, of a category. -/
def FormsAt (category : Category) (reader : Reader Draft) (cursor : Cursor) : Prop :=
  Ensures reader cursor fun draft _ => Formed category (flat draft)

/-- All drafts are, but for their positions, of a category. -/
def AllFormed (category : Category) (drafts : List Draft) : Prop :=
  ∀ draft ∈ drafts, Formed category (flat draft)

/-- A statement is well formed, and no word `else` follows it if it is open. -/
structure EndsFormed (draft : Draft) (after : Cursor) : Prop where
  formed : Formed .statement (flat draft)
  followed : isOpen (flat draft) = true → after.atWord "else" = false

/-- Every phrase gives well-formed drafts. -/
structure PhrasesForm (read : PhraseReader) : Prop where
  statement : ∀ cursor, Ensures (read .statement) cursor EndsFormed
  expression : ∀ phrase cursor, phrase ≠ .statement → FormsAt .expression (read phrase) cursor

namespace PhrasesForm

variable (phrases : PhrasesForm read) (cursor : Cursor)

include phrases

theorem assignment : FormsAt .expression (read .assignment) cursor :=
  phrases.expression .assignment cursor (by decide)

theorem unary : FormsAt .expression (read .unary) cursor :=
  phrases.expression .unary cursor (by decide)

private theorem binary (least : Nat) (allowIn : Bool) :
    FormsAt .expression (read (.binary least allowIn)) cursor :=
  phrases.expression (.binary least allowIn) cursor (by simp)

theorem construction : FormsAt .expression (read .construction) cursor :=
  phrases.expression .construction cursor (by decide)

end PhrasesForm

/-- Drafts of a category are of that category without their positions. -/
theorem AllFormed.flat_mem {category : Category} {drafts : List Draft}
    (formed : AllFormed category drafts) : ∀ draft ∈ drafts.map flat, Formed category draft :=
  List.forall_mem_map.mpr formed

/-- An optional part is well formed if it is when present. -/
theorem formed_of_option {category : Category} {part : Option Draft}
    (formed : ∀ draft, part = some draft → Formed category (flat draft)) :
    ∀ draft ∈ part.map flat, Formed category draft := by
  intro draft member
  obtain ⟨inner, rfl, rfl⟩ := Option.map_eq_some_iff.mp member
  exact formed inner rfl

/-- An optional part that is missing is of every category. -/
theorem formed_of_none {category : Category} : ∀ draft ∈ (none : Option Draft), Formed category draft := by
  rintro _ ⟨⟩

section Names

theorem bindingName_forms : FormsAt .name bindingName cursor := by
  simp only [FormsAt, bindingName, ensures_bind, ensures_get]
  split
  · exact ensures_failExpected _
  · rename_i token rest ahead
    split
    · rename_i name word
      simp only [ensures_ite, ensures_failExpected, ensures_bind, ensures_advance, ensures_makeLeaf,
        implies_true, true_and, flat_leaf, word]
      intro isName
      exact .name (Bool.eq_false_iff.mpr isName)
    all_goals simp only [ensures_failAt, ensures_failExpected]

private theorem propertyName_forms :
    Ensures propertyName cursor fun draft _ => ∃ word, flat draft = atom "Identifier" word := by
  simp only [propertyName, ensures_bind, ensures_get]
  split
  · exact ensures_failExpected _
  · split
    · simp only [ensures_bind, ensures_advance, ensures_makeLeaf, flat_leaf]
      exact ⟨_, rfl⟩
    · exact ensures_failExpected _

/-- A key is a name, a literal or an expression in brackets. -/
theorem propertyKey_forms (phrases : PhrasesForm read) : FormsAt .key (propertyKey read) cursor := by
  simp only [FormsAt, propertyKey, ensures_bind, ensures_get]
  split
  · exact ensures_failExpected _
  · split
    · simp only [ensures_bind, ensures_advance, ensures_makeLeaf, flat_leaf]
      exact .word _
    · simp only [ensures_bind, ensures_advance, ensures_makeLeaf, flat_leaf]
      exact .ofExpression (.ofBare (.string _))
    · simp only [ensures_bind, ensures_advance, ensures_makeLeaf, flat_leaf]
      exact .ofExpression (.ofBare (.number _))
    · simp only [ensures_bind, ensures_advance, ensures_expectPunct, ensures_pure]
      refine (phrases.assignment _).mono fun key _ formed _ => ?_
      exact .ofExpression formed
    · exact ensures_failExpected _

end Names

section Repetition

variable {category : Category} {item : Reader Draft}

/-- Items of a category are read one after another. -/
theorem many_forms (stop : Reader Bool) (forms : ∀ cursor, FormsAt category item cursor) :
    Ensures (many stop item) cursor fun drafts _ => AllFormed category drafts := by
  apply ensures_many fun _ drafts _ => AllFormed category drafts
  intro cursor stopped middle _
  constructor
  · exact fun _ => List.forall_mem_nil _
  · intro _
    refine (forms middle).mono fun first next formed rest after others => ?_
    exact List.forall_mem_cons.mpr ⟨formed, others⟩

private theorem list_forms (close : String) (forms : ∀ cursor, FormsAt category item cursor) :
    Ensures (list close item) cursor fun drafts _ => AllFormed category drafts := by
  apply ensures_list fun _ drafts _ => AllFormed category drafts
  · exact fun _ _ => List.forall_mem_nil _
  · intro cursor
    refine (forms cursor).mono fun first next formed => ?_
    constructor
    · intro _ rest after others
      exact List.forall_mem_cons.mpr ⟨formed, others⟩
    · exact fun _ => List.forall_mem_singleton.mpr formed

/-- At least one item of a category is read where commas separate them. -/
theorem commaSeparated_forms (forms : ∀ cursor, FormsAt category item cursor) :
    Ensures (commaSeparated item) cursor fun drafts _ =>
      ∃ first rest, drafts = first :: rest ∧ AllFormed category drafts := by
  simp only [commaSeparated, ensures_bind, ensures_pure]
  refine (forms cursor).mono fun first next formed => ?_
  refine (many_forms _ forms).mono fun rest after others => ?_
  exact ⟨first, rest, rfl, List.forall_mem_cons.mpr ⟨formed, others⟩⟩

private theorem sequence_forms (forms : ∀ cursor, FormsAt .expression item cursor) :
    FormsAt .expression (sequence item) cursor := by
  simp only [FormsAt, sequence, ensures_bind, ensures_here]
  refine (commaSeparated_forms forms).mono ?_
  rintro _ after ⟨first, rest, rfl, formed⟩
  cases rest with
  | nil =>
    rw [ensures_pure]
    exact formed first List.mem_cons_self
  | cons second rest =>
    simp only [ensures_node, flat_branch, List.map, Field.map]
    exact .ofCompound (.sequence formed.flat_mem)

end Repetition

section Functions

variable (phrases : PhrasesForm read)

include phrases

theorem expression_forms : FormsAt .expression (expression read) cursor :=
  sequence_forms phrases.assignment

/-- An expression in parentheses is that expression. -/
theorem parenthesized_forms : FormsAt .expression (parenthesized read) cursor := by
  simp only [FormsAt, parenthesized, ensures_bind, ensures_expectPunct, ensures_pure]
  intro _
  refine (expression_forms phrases).mono fun inner _ formed _ => ?_
  exact formed

theorem statementInBraces_forms : FormsAt .statement (statementInBraces read) cursor := by
  simp only [FormsAt, statementInBraces, ensures_bind, ensures_atEnd, ensures_ite, ensures_failExpected,
    implies_true, true_and]
  intro _
  refine (phrases.statement cursor).mono fun draft after ends => ?_
  exact ends.formed

theorem block_forms : FormsAt .block (block read) cursor := by
  simp only [FormsAt, block, ensures_bind, ensures_here, ensures_expectPunct, ensures_node]
  intro _
  refine (many_forms _ fun _ => statementInBraces_forms phrases).mono fun body after formed => ?_
  simp only [flat_branch, List.map, Field.map]
  exact .block formed.flat_mem

private theorem param_forms : FormsAt .param (param read) cursor := by
  simp only [FormsAt, param, ensures_bind, ensures_here, ensures_eatPunct, ensures_ite, ensures_node,
    ensures_pure, Bool.false_eq_true, not_true_eq_false, not_false_eq_true, false_implies, true_and,
    and_true, forall_const, flat_branch, List.map, Field.map, Option.map_some]
  constructor
  · intro _
    refine bindingName_forms.mono fun argument _ formed => ?_
    exact .restParam formed
  · intro _
    refine bindingName_forms.mono fun left next formedLeft => ?_
    constructor
    · intro _
      refine (phrases.assignment _).mono fun right _ formedRight => ?_
      exact .defaultParam formedLeft formedRight
    · exact fun _ => .param formedLeft

private theorem params_form : Ensures (params read) cursor fun drafts _ => AllFormed .param drafts := by
  simp only [params, ensures_bind, ensures_expectPunct]
  intro _
  exact list_forms ")" fun _ => param_forms phrases

omit phrases in
private theorem functionName_forms (needed : Bool) :
    Ensures (functionName needed) cursor fun name _ =>
      (∀ draft, name = some draft → Formed .name (flat draft)) ∧
        (needed = true → name.isSome = true) := by
  have present : Ensures bindingName cursor fun name _ =>
      (∀ draft, some name = some draft → Formed .name (flat draft)) ∧
        (needed = true → (some name).isSome = true) := by
    refine bindingName_forms.mono ?_
    rintro name _ formed
    constructor
    · rintro _ ⟨⟩
      exact formed
    · exact fun _ => rfl
  simp only [functionName, ensures_bind, ensures_peek]
  split
  · simp only [ensures_bind, ensures_pure]
    exact present
  · simp only [ensures_ite, ensures_bind, ensures_pure]
    constructor
    · exact fun _ => present
    · intro unneeded
      exact ⟨by rintro _ ⟨⟩, fun needed => absurd needed unneeded⟩

/-- What a function consists of. -/
theorem function_forms (kind : String) (needsName : Bool) :
    Ensures (function read kind needsName) cursor fun draft _ =>
      ∃ id params body, flat draft =
          tree kind none [.single "id" id, .list "params" params, .single "body" (some body)] ∧
        (∀ draft ∈ id, Formed .name draft) ∧ (needsName = true → id.isSome = true) ∧
        (∀ draft ∈ params, Formed .param draft) ∧ Formed .block body := by
  simp only [function, ensures_bind, ensures_here, ensures_advance, ensures_atPunct, ensures_ite,
    ensures_fail, implies_true, true_and, ensures_node, flat_branch, List.map, Field.map,
    Option.map_some]
  intro _
  refine (functionName_forms needsName).mono ?_
  rintro name named ⟨formedName, needed⟩
  refine (params_form phrases).mono fun parameters entered formedParams => ?_
  refine (block_forms phrases).mono fun body after formedBody => ?_
  refine ⟨_, _, _, rfl, formed_of_option formedName, ?_, formedParams.flat_mem, formedBody⟩
  rwa [Option.isSome_map]

/-- What a method consists of behind its key. -/
theorem method_forms (kind : String) (start : Pos) (text : Option String) (key : Draft) :
    Ensures (method read kind start text key) cursor fun draft _ =>
      ∃ params body, flat draft = tree kind text
          [.single "key" (some (flat key)), .list "params" params, .single "body" (some body)] ∧
        (∀ draft ∈ params, Formed .param draft) ∧ Formed .block body := by
  simp only [method, ensures_bind, ensures_node, flat_branch, List.map, Field.map, Option.map_some]
  refine (params_form phrases).mono fun parameters entered formedParams => ?_
  refine (block_forms phrases).mono fun body after formedBody => ?_
  exact ⟨_, _, rfl, formedParams.flat_mem, formedBody⟩

end Functions

section Objects

variable (phrases : PhrasesForm read)

include phrases

private theorem argument_forms : FormsAt .argument (argument read) cursor := by
  simp only [FormsAt, argument, ensures_bind, ensures_here, ensures_eatPunct, ensures_ite, ensures_node,
    Bool.false_eq_true, not_true_eq_false, not_false_eq_true, false_implies, true_and, and_true,
    forall_const, flat_branch, List.map, Field.map, Option.map_some]
  constructor
  · intro _
    refine (phrases.assignment _).mono fun inner _ formed => ?_
    exact .spread formed
  · intro _
    refine (phrases.assignment _).mono fun inner _ formed => ?_
    exact .value formed

private theorem objectProperty_forms (start : Pos) {keyToken : Option Token} {key : Draft}
    (formedKey : Formed .key (flat key))
    (fromWord : ∀ token name, keyToken = some token → token.kind = .word name →
      key = leaf "Identifier" token) :
    FormsAt .property (objectProperty read start keyToken key) cursor := by
  simp only [FormsAt, objectProperty, ensures_bind, ensures_atPunct, ensures_ite, ensures_eatPunct,
    ensures_node, Bool.false_eq_true, not_true_eq_false, not_false_eq_true, false_implies, true_and,
    and_true, forall_const, flat_branch, List.map, Field.map, Option.map_some]
  constructor
  · intro _
    refine (method_forms phrases "ObjectMethod" start none key).mono ?_
    rintro draft _ ⟨params, body, same, formedParams, formedBody⟩
    rw [same]
    exact .method formedKey formedParams formedBody
  · intro _
    constructor
    · intro _
      refine (phrases.assignment _).mono fun value _ formedValue => ?_
      exact .property formedKey formedValue
    · intro _
      split
      · rename_i token
        split
        · rename_i name word
          simp only [ensures_ite, ensures_failExpected, implies_true, true_and, ensures_bind,
            ensures_makeLeaf, ensures_node, flat_branch, List.map, Field.map, Option.map_some]
          intro isName
          rw [fromWord token name rfl word, flat_leaf, word]
          exact .shorthand (Bool.eq_false_iff.mpr isName)
        · exact ensures_failExpected _
      · exact ensures_failExpected _

private theorem objectMember_forms : FormsAt .property (objectMember read) cursor := by
  simp only [FormsAt, objectMember, ensures_bind, ensures_here, ensures_eatPunct, ensures_ite,
    ensures_node, ensures_get, Bool.false_eq_true, not_true_eq_false, not_false_eq_true, false_implies,
    true_and, and_true, forall_const, flat_branch, List.map, Field.map, Option.map_some]
  constructor
  · intro _
    refine (phrases.assignment _).mono fun inner _ formed => ?_
    exact .spreadProperty formed
  · intro _
    cases ahead : cursor.rest with
    | nil =>
      refine (propertyKey_forms phrases).mono fun key _ formedKey => ?_
      apply objectProperty_forms phrases _ formedKey
      intro token name noToken
      cases noToken
    | cons token rest =>
      intro key next success
      have formedKey := propertyKey_forms phrases key next success
      apply objectProperty_forms phrases _ formedKey
      rintro _ name ⟨⟩ word
      exact (propertyKey_word ahead word key next success).1

private theorem array_forms : FormsAt .compound (array read) cursor := by
  simp only [FormsAt, array, ensures_bind, ensures_here, ensures_advance, ensures_node, flat_branch,
    List.map, Field.map]
  refine (list_forms "]" fun _ => argument_forms phrases).mono fun elements _ formed => ?_
  exact .array formed.flat_mem

private theorem object_forms : FormsAt .compound (object read) cursor := by
  simp only [FormsAt, object, ensures_bind, ensures_here, ensures_advance, ensures_node, flat_branch,
    List.map, Field.map]
  refine (list_forms "\x7d" fun _ => objectMember_forms phrases).mono fun properties _ formed => ?_
  exact .object formed.flat_mem

end Objects

section Chains

variable {inner : Draft} (phrases : PhrasesForm read)

private theorem literal_forms {token : Token} {kind : String} {category : Category}
    (formed : Formed category (atom kind token.kind.text)) :
    FormsAt category (literal kind token) cursor := by
  simp only [FormsAt, literal, ensures_bind, ensures_advance, ensures_makeLeaf, flat_leaf]
  exact formed

private theorem constant_forms {kind : String} {category : Category}
    (formed : Formed category (tree kind none [])) : FormsAt category (constant kind) cursor := by
  simp only [FormsAt, constant, ensures_bind, ensures_here, ensures_advance, ensures_node, flat_branch,
    List.map]
  exact formed

include phrases

private theorem primary_forms : FormsAt .expression (primary read) cursor := by
  simp only [FormsAt, primary, ensures_bind, ensures_get]
  split
  · exact ensures_failExpected _
  · rename_i token rest ahead
    split <;> rename_i same
    · exact literal_forms (.ofBare (.number _))
    · exact literal_forms (.ofBare (.string _))
    · exact literal_forms (.ofBare (.boolean (.inl (by rw [same]; rfl))))
    · exact literal_forms (.ofBare (.boolean (.inr (by rw [same]; rfl))))
    · exact constant_forms (.ofBare .null)
    · exact constant_forms (.ofBare .this)
    · refine (function_forms phrases "FunctionExpression" false).mono ?_
      rintro draft _ ⟨id, params, body, same, formedName, -, formedParams, formedBody⟩
      rw [same]
      exact .ofCompound (.function formedName formedParams formedBody)
    · simp only [ensures_ite, ensures_failExpected, implies_true, true_and]
      intro isName
      apply literal_forms
      rw [same]
      exact .ofBare (.identifier (.name (Bool.eq_false_iff.mpr isName)))
    · exact parenthesized_forms phrases
    · exact (array_forms phrases).mono fun _ _ formed => .ofCompound formed
    · exact (object_forms phrases).mono fun _ _ formed => .ofCompound formed
    · exact ensures_failExpected _

private theorem computedMember_forms (start : Pos) (formedInner : Formed .expression (flat inner)) :
    FormsAt .expression (computedMember read start inner) cursor := by
  simp only [FormsAt, computedMember, ensures_bind, ensures_expectPunct, ensures_node, flat_branch,
    List.map, Field.map, Option.map_some]
  refine (expression_forms phrases).mono fun property _ formedProperty _ => ?_
  exact .ofCompound (.computed formedInner formedProperty)

omit phrases in
private theorem namedMember_forms (start : Pos) (formedInner : Formed .expression (flat inner)) :
    FormsAt .expression (namedMember "MemberExpression" start inner) cursor := by
  simp only [FormsAt, namedMember, ensures_bind, ensures_node, flat_branch, List.map, Field.map,
    Option.map_some]
  refine propertyName_forms.mono ?_
  rintro property _ ⟨word, same⟩
  rw [same]
  exact .ofCompound (.named word formedInner)

omit phrases in
private theorem optionalMember_forms (start : Pos) (formedInner : Formed .expression (flat inner)) :
    FormsAt .expression (optionalMember start inner) cursor := by
  simp only [FormsAt, optionalMember, namedMember, ensures_bind, ensures_atPunct, ensures_ite,
    ensures_fail, ensures_node, flat_branch, List.map, Field.map, Option.map_some, implies_true,
    true_and]
  intro _
  refine propertyName_forms.mono ?_
  rintro property _ ⟨word, same⟩
  rw [same]
  exact .ofCompound (.optional word formedInner)

private theorem memberOrCall_forms (start : Pos) (formedInner : Formed .expression (flat inner)) :
    Ensures (memberOrCall read start inner) cursor fun extended _ =>
      Formed .expression (flat (extended.getD inner)) := by
  simp only [memberOrCall, ensures_bind, ensures_eatPunct, ensures_ite, ensures_pure, ensures_node,
    Option.getD_some, Option.getD_none, Bool.false_eq_true, not_true_eq_false, not_false_eq_true,
    false_implies, true_and, and_true, forall_const, flat_branch, List.map, Field.map, Option.map_some]
  constructor
  · exact fun _ => namedMember_forms start formedInner
  intro _
  constructor
  · exact fun _ => optionalMember_forms start formedInner
  intro _
  constructor
  · exact fun _ => computedMember_forms phrases start formedInner
  intro _
  constructor
  · intro _
    refine (list_forms ")" fun _ => argument_forms phrases).mono fun arguments _ formed => ?_
    exact .ofCompound (.call formedInner formed.flat_mem)
  · exact fun _ => formedInner

/-- An expression with members and calls is well formed. -/
theorem chain_forms : FormsAt .expression (chain read) cursor := by
  simp only [FormsAt, chain, ensures_bind, ensures_here, ensures_atWord, ensures_ite]
  have grown (inner : Draft) (after : Cursor) (formed : Formed .expression (flat inner)) :
      Ensures (grow (memberOrCall read cursor.start) inner) after fun draft _ =>
        Formed .expression (flat draft) :=
    ensures_grow (fun _ _ => memberOrCall_forms phrases cursor.start) formed
  constructor
  · exact fun _ => (phrases.construction cursor).mono grown
  · exact fun _ => (primary_forms phrases).mono grown

private theorem constructedMember_forms (start : Pos) (formedInner : Formed .expression (flat inner)) :
    Ensures (constructedMember read start inner) cursor fun extended _ =>
      Formed .expression (flat (extended.getD inner)) := by
  simp only [constructedMember, ensures_bind, ensures_eatPunct, ensures_ite, ensures_pure,
    Option.getD_some, Option.getD_none, Bool.false_eq_true, not_true_eq_false, not_false_eq_true,
    false_implies, true_and, and_true, forall_const]
  constructor
  · exact fun _ => namedMember_forms start formedInner
  intro _
  constructor
  · exact fun _ => computedMember_forms phrases start formedInner
  · exact fun _ => formedInner

/-- Arguments, or none, behind what is constructed. -/
theorem constructed_forms (cursor : Cursor) (start : Pos) (formedInner : Formed .expression (flat inner)) :
    FormsAt .expression (do
      let callee ← grow (constructedMember read start) inner
      let arguments ← if ← eatPunct "(" then list ")" (argument read) else pure []
      node "NewExpression" start none [.single "callee" callee, .list "arguments" arguments])
      cursor := by
  simp only [FormsAt, ensures_bind]
  refine (ensures_grow (fun _ _ => constructedMember_forms phrases start) formedInner).mono ?_
  intro callee middle formedCallee
  simp only [ensures_eatPunct, ensures_ite, ensures_bind, ensures_pure, ensures_node,
    Bool.false_eq_true, not_true_eq_false, not_false_eq_true, false_implies, true_and, and_true,
    forall_const, flat_branch, List.map, Field.map, Option.map_some]
  constructor
  · intro _
    refine (list_forms ")" fun _ => argument_forms phrases).mono fun arguments _ formed => ?_
    exact .ofCompound (.construction formedCallee formed.flat_mem)
  · exact fun _ => .ofCompound (.construction formedCallee (List.forall_mem_nil _))

/-- A construction is well formed, with its arguments or without. -/
theorem construction_forms : FormsAt .expression (construction read) cursor := by
  simp only [FormsAt, construction, ensures_bind, ensures_here, ensures_advance, ensures_atWord,
    ensures_ite]
  have constructed (inner : Draft) (next : Cursor) (formed : Formed .expression (flat inner)) :=
    constructed_forms phrases next cursor.start formed
  simp only [FormsAt, ensures_bind, ensures_ite] at constructed
  constructor
  · intro _
    apply ensures_nested
    exact (phrases.construction _).mono fun inner _ => constructed inner _
  · intro _
    exact (primary_forms phrases).mono constructed

end Chains

section Operators

variable {left : Draft} (phrases : PhrasesForm read)

/-- An operator in front of an operand is spelled as the token it was read from. -/
theorem spell_leading {token : TokenKind} {kind operator : String}
    (leading : leadingOperator? token = some (kind, operator)) :
    leadingOperator? (spell operator) = some (kind, operator) := by
  unfold leadingOperator? at leading
  split at leading <;> cases leading <;> decide

/-- An operator between operands is spelled as the token it was read from. -/
theorem spell_operator {token : TokenKind} {operator : Operator}
    (isOperator : Operator.ofToken? token = some operator) :
    Operator.ofToken? (spell operator.text) = some operator := by
  obtain ⟨text, spelled, known⟩ := Option.bind_eq_some_iff.mp isOperator
  obtain ⟨precedence, known, same⟩ := Option.bind_eq_some_iff.mp known
  cases same
  unfold Operator.precedence? at known
  split at known <;> first | (cases known; decide) | cases known

private theorem spell_assigning {token : TokenKind} {operator : String}
    (assigns : assignmentOperator? token = some operator) :
    assignmentOperator? (spell operator) = some operator := by
  have all : ∀ text ∈ assignmentOperators, assignmentOperator? (spell text) = some text := by decide
  unfold assignmentOperator? at assigns
  split at assigns
  · split at assigns
    · rename_i known
      cases assigns
      exact all _ (List.contains_iff_mem.mp known)
    · cases assigns
  · cases assigns

include phrases

private theorem postfixed_forms : FormsAt .expression (postfixed read) cursor := by
  simp only [FormsAt, postfixed, ensures_bind, ensures_here, ensures_get]
  refine (chain_forms phrases).mono fun inner next formedInner => ?_
  split
  · exact (ensures_pure _).mpr formedInner
  · rename_i operator trailing
    have known : leadingOperator? (spell operator) = some ("UpdateExpression", operator) := by
      unfold trailingOperator? at trailing
      split at trailing <;> cases trailing <;> decide
    simp only [ensures_bind, ensures_advance, ensures_node, flat_branch, List.map, Field.map,
      Option.map_some]
    exact .ofCompound (.leading known formedInner)

/-- An operand with operators in front is well formed. -/
theorem unary_forms : FormsAt .expression (unary read) cursor := by
  simp only [FormsAt, unary, ensures_bind, ensures_here, ensures_peek]
  split
  · exact postfixed_forms phrases
  · rename_i kind operator leading
    obtain ⟨token, -, leading⟩ := Option.bind_eq_some_iff.mp leading
    simp only [ensures_bind, ensures_advance, ensures_node, flat_branch, List.map, Field.map,
      Option.map_some]
    refine (phrases.unary _).mono fun inner _ formed => ?_
    exact .ofCompound (.leading (spell_leading leading) formed)

private theorem operation_forms (start : Pos) (least : Nat) (allowIn : Bool)
    (formedLeft : Formed .expression (flat left)) :
    Ensures (operation read start least allowIn left) cursor fun extended _ =>
      Formed .expression (flat (extended.getD left)) := by
  simp only [operation, ensures_bind, ensures_peek]
  split
  · exact (ensures_pure _).mpr formedLeft
  · rename_i operator isOperator
    obtain ⟨token, -, isOperator⟩ := Option.bind_eq_some_iff.mp isOperator
    simp only [ensures_ite, ensures_pure, ensures_bind, ensures_advance, ensures_node,
      Option.getD_none, Option.getD_some, flat_branch, List.map, Field.map, Option.map_some]
    constructor
    · exact fun _ => formedLeft
    · intro _
      refine (phrases.binary _ _ _).mono fun right _ formedRight => ?_
      exact .ofCompound (.operation (spell_operator isOperator) formedLeft formedRight)

/-- Operands joined by operators are well formed, in whatever way they are grouped. -/
theorem binary_forms (least : Nat) (allowIn : Bool) :
    FormsAt .expression (binary read least allowIn) cursor := by
  simp only [FormsAt, binary, ensures_bind, ensures_here]
  refine (phrases.unary cursor).mono fun first next formedFirst => ?_
  exact ensures_grow (fun _ _ => operation_forms phrases cursor.start least allowIn) formedFirst

private theorem conditional_forms : FormsAt .expression (conditional read) cursor := by
  simp only [FormsAt, conditional, ensures_bind, ensures_here, ensures_eatPunct, ensures_ite,
    ensures_expectPunct, ensures_node, ensures_pure, Bool.false_eq_true, not_true_eq_false,
    not_false_eq_true, false_implies, true_and, and_true, forall_const, flat_branch, List.map,
    Field.map, Option.map_some]
  refine (phrases.binary cursor 1 true).mono fun test next formedTest => ?_
  constructor
  · intro _
    refine (phrases.assignment _).mono fun consequent middle formedConsequent _ => ?_
    refine (phrases.assignment _).mono fun alternate _ formedAlternate => ?_
    exact .ofCompound (.conditional formedTest formedConsequent formedAlternate)
  · exact fun _ => formedTest

private theorem assignmentTo_forms (start : Pos) (formedLeft : Formed .expression (flat left)) :
    FormsAt .expression (assignmentTo read start left) cursor := by
  simp only [FormsAt, assignmentTo, ensures_bind, ensures_peek]
  split
  · exact (ensures_pure _).mpr formedLeft
  · rename_i operator assigns
    obtain ⟨token, -, assigns⟩ := Option.bind_eq_some_iff.mp assigns
    simp only [ensures_bind, ensures_advance, ensures_node, flat_branch, List.map, Field.map,
      Option.map_some]
    refine (phrases.assignment _).mono fun right _ formedRight => ?_
    exact .ofCompound (.assignment (spell_assigning assigns) formedLeft formedRight)

end Operators

section Assignments

variable (phrases : PhrasesForm read)

include phrases

/-- The body of an arrow function behind its parameters. -/
theorem arrowBody_forms (cursor : Cursor) (start : Pos) {parameters : List Draft}
    (formedParams : AllFormed .param parameters) :
    FormsAt .expression (do
      expectPunct "=>"
      let body ← if ← atPunct "\x7b" then block read else read .assignment
      node "ArrowFunctionExpression" start none [.list "params" parameters, .single "body" body])
      cursor := by
  simp only [FormsAt, ensures_bind, ensures_expectPunct, ensures_atPunct, ensures_ite, ensures_node,
    flat_branch, List.map, Field.map, Option.map_some]
  intro _
  constructor
  · intro _
    refine (block_forms phrases).mono fun body _ formedBody => ?_
    exact .ofCompound (.arrow (.inl rfl) formedParams.flat_mem formedBody)
  · intro _
    refine (phrases.assignment _).mono fun body _ formedBody => ?_
    exact .ofCompound (.arrow (.inr rfl) formedParams.flat_mem formedBody)

private theorem arrow_forms : FormsAt .expression (arrow read) cursor := by
  simp only [FormsAt, arrow, ensures_bind, ensures_here, ensures_atPunct, ensures_ite, ensures_pure]
  have behind (parameters : List Draft) (next : Cursor) (formed : AllFormed .param parameters) :=
    arrowBody_forms phrases next cursor.start formed
  simp only [FormsAt, ensures_bind, ensures_atPunct, ensures_ite] at behind
  constructor
  · exact fun _ => (params_form phrases).mono behind
  · intro _
    refine bindingName_forms.mono fun parameter next formed => ?_
    exact behind [parameter] next (List.forall_mem_singleton.mpr (.param formed))

/-- An assignment, an arrow function or a conditional expression is well formed. -/
theorem assignment_forms : FormsAt .expression (assignment read) cursor := by
  simp only [FormsAt, assignment, assignmentOrConditional, ensures_bind, ensures_get, ensures_ite,
    ensures_here]
  constructor
  · exact fun _ => arrow_forms phrases
  · intro _
    refine (conditional_forms phrases).mono fun left next formedLeft => ?_
    exact assignmentTo_forms phrases cursor.start formedLeft

/-- The expression in the head of a loop is well formed. -/
theorem headExpression_forms : FormsAt .expression (headExpression read) cursor := by
  apply sequence_forms
  intro cursor
  simp only [FormsAt, ensures_bind, ensures_here]
  refine (phrases.binary cursor 1 false).mono fun left next formedLeft => ?_
  exact assignmentTo_forms phrases cursor.start formedLeft

end Assignments

end SyntaxNav.Script

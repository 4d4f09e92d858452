import SyntaxNav.Proofs.Script.Operands

/-! # Parts of expressions are read back

What is written for names, literals, arguments, parameters, functions and the members of objects is read
back, if what is written for the expressions and blocks inside them is. Every part is read with the
grammar unrolled five times for each of its tokens, which is enough also for the readers that lie between
a form and its parts.
-/

namespace SyntaxNav.Script

open Phrase (readWithin)

section Sizes

variable (kinds : List TokenKind)

@[simp] theorem length_parens : (parens kinds).length = kinds.length + 2 := by simp [parens]

@[simp] theorem length_brackets : (brackets kinds).length = kinds.length + 2 := by simp [brackets]

@[simp] theorem length_braces : (braces kinds).length = kinds.length + 2 := by simp [braces]

end Sizes

section Tokens

variable {read : PhraseReader} {kinds : List TokenKind} {depth : Nat} {text : String}
  {holds : Draft → Cursor → Prop}

private theorem gives_bindingName (isName : isKeyword text = false) :
    Gives bindingName (.over (.word text :: kinds) depth) holds ↔
      holds (atom "Identifier" text) (.over kinds depth) := by
  simp only [bindingName, gives_bind, gives_get, Cursor.over, List.map_cons, written]
  simp only [gives_ite, isName]
  rfl

/-- A name of a property may be any word. -/
theorem gives_propertyName :
    Gives propertyName (.over (.word text :: kinds) depth) holds ↔
      holds (atom "Identifier" text) (.over kinds depth) := Iff.rfl

/-- A name by itself is a primary expression. -/
theorem gives_primary_name (isName : isKeyword text = false) :
    Gives (primary read) (.over (.word text :: kinds) depth) holds ↔
      holds (atom "Identifier" text) (.over kinds depth) := by
  simp only [primary, gives_bind, gives_get, Cursor.over, List.map_cons, written]
  split
  all_goals
    rename_i same
    cases same
  case h_8 =>
    simp only [gives_ite, isName]
    rfl
  all_goals exact absurd isName (by decide)

end Tokens

def itemEnds : List String := [",", ";", ")", "]", "\x7d"]

def isItemStart (kind : TokenKind) : Bool :=
  !itemEnds.any fun text => kind = .punct text

/-- What ends an item ends an expression. -/
theorem itemEnds_expressionEnds : ∀ close ∈ itemEnds, close ∈ expressionEnds := by decide

private theorem itemStart_of_operandStart {kind : TokenKind} (starts : isOperandStart kind = true) :
    isItemStart kind = true := by
  cases kind with
  | word text | number text | string text => simp [isItemStart]
  | punct text =>
    rw [of_decide_eq_true starts]
    decide

/-- Tokens that a reader takes for an item of a list. -/
structure Item (reader : PhraseReader → Reader Draft) (kinds : List TokenKind) (draft : Draft) :
    Prop where
  starts : Starts kinds isItemStart
  reads : ∀ limit close rest, 5 * kinds.length ≤ limit → close ∈ itemEnds →
    Rereads (reader (readWithin limit)) kinds draft (.punct close :: rest)

/-- What is written for an expression is read back as an operand, and in front of a closing
parenthesis. -/
structure Expressed (draft : Draft) : Prop where
  enclosed : Enclosed draft
  operand : Operand (pieceOf draft).operand draft

/-- Tokens that are read back as the key of a property. A word is alone. -/
structure Key (kinds : List TokenKind) (draft : Draft) : Prop where
  starts : ∃ kind more, kinds = kind :: more ∧
    (∀ text, kind = .punct text → text = "[") ∧ ∀ text, kind = .word text → more = []
  reads : ∀ limit rest, 5 * kinds.length ≤ limit →
    Rereads (propertyKey (readWithin limit)) kinds draft rest

/-- A name is one word that is no keyword. -/
def Named (draft : Draft) : Prop :=
  ∃ text, isKeyword text = false ∧ draft = atom "Identifier" text

/-- What is written for a block is read back. -/
structure Blocked (draft : Draft) : Prop where
  kind : draft.label.kind = "BlockStatement"
  braces : ∃ inner, tokensOf draft = braces inner
  reads : ∀ limit rest, 5 * (tokensOf draft).length ≤ limit + 5 →
    Rereads (block (readWithin limit)) (tokensOf draft) draft rest

section Bare

variable {kind : TokenKind} {draft : Draft}

private theorem operand_of_token (starts : isOperandStart kind = true) (bare : kind ≠ .punct "(")
    (reads : ∀ read rest, Rereads (primary read) [kind] draft rest) : Operand [kind] draft where
  starts := .cons starts
  noArrow rest depth noArrow := by
    cases kind with
    | number text | string text => rfl
    | punct text => exact absurd (congrArg _ (of_decide_eq_true starts)) bare
    | word text =>
      have behind := startsWithArrow_written noArrow
      change (!isKeyword text && startsWithArrow (rest.map written)) = false
      rw [behind, Bool.and_false]
  reads limit rest _ := reads _ rest

/-- A name is an operand. -/
theorem Named.operand (named : Named draft) : Operand (tokensOf draft) draft := by
  obtain ⟨text, isName, rfl⟩ := named
  apply operand_of_token
  · simp [isOperandStart, isName]
  · simp
  · intro read rest depth
    exact (gives_primary_name isName).mpr ⟨rfl, rfl⟩

/-- A number is an operand. -/
theorem number_operand (text : String) :
    Operand (tokensOf (atom "NumericLiteral" text)) (atom "NumericLiteral" text) :=
  operand_of_token rfl (by simp) fun _ _ _ => ⟨rfl, rfl⟩

theorem string_operand (text : String) :
    Operand (tokensOf (atom "StringLiteral" text)) (atom "StringLiteral" text) :=
  operand_of_token rfl (by simp) fun _ _ _ => ⟨rfl, rfl⟩

/-- A truth value is an operand. -/
theorem boolean_operand {text : String} (known : text = "true" ∨ text = "false") :
    Operand (tokensOf (atom "BooleanLiteral" text)) (atom "BooleanLiteral" text) := by
  rcases known with rfl | rfl
  all_goals exact operand_of_token (by decide) (by decide) fun _ _ _ => ⟨rfl, rfl⟩

theorem null_operand :
    Operand (tokensOf (tree "NullLiteral" none [])) (tree "NullLiteral" none []) := by
  rw [tokensOf_tree]
  exact operand_of_token (by decide) (by decide) fun _ _ _ => ⟨rfl, rfl⟩

theorem this_operand :
    Operand (tokensOf (tree "ThisExpression" none [])) (tree "ThisExpression" none []) := by
  rw [tokensOf_tree]
  exact operand_of_token (by decide) (by decide) fun _ _ _ => ⟨rfl, rfl⟩

/-- What is written for an expression without parentheses around it is an operand. -/
theorem Expressed.of_bare (formed : Formed .bare draft) (operand : Operand (tokensOf draft) draft) :
    Expressed draft where
  enclosed _ _ enough := operand.expression (by omega) (by decide) (by decide)
  operand := by rwa [formed.operand_of_bare]

/-- What is read back from between parentheses can stand where an expression can. -/
theorem Expressed.of_compound (formed : Formed .compound draft) (enclosed : Enclosed draft) :
    Expressed draft where
  enclosed := enclosed
  operand := by
    rw [formed.operand_of_compound]
    exact enclosed.operand formed.paired

end Bare

section Lists

variable {reader : PhraseReader → Reader Draft} {write : Draft → List TokenKind} {items : List Draft}
  {limit : Nat} {close : String}

/-- Items in brackets are read back behind the opening bracket. -/
theorem gives_items (each : ∀ draft ∈ items, Item reader (write draft) draft)
    (known : close ∈ itemEnds) (closes : close ≠ ",")
    (enough : 5 * (commas (items.map write)).length ≤ limit) {rest : List TokenKind} {depth : Nat}
    {holds : List Draft → Cursor → Prop} (holding : holds items (.over rest depth)) :
    Gives (list close (reader (readWithin limit)))
      (.over (commas (items.map write) ++ .punct close :: rest) depth) holds := by
  have notStart : ∀ close ∈ itemEnds, isItemStart (.punct close) = false := by decide
  apply gives_list closes _ _ holding
  · intro draft member rest
    exact ((each draft member).starts.append rest).head?_ne (notStart close known)
  · intro draft member next ends rest
    have shorter := length_le_commas write member
    apply (each draft member).reads limit next rest (by omega)
    rcases List.mem_cons.mp ends with rfl | ends
    · decide
    · rwa [List.mem_singleton.mp ends]

/-- An expression is an argument. -/
theorem value_item {draft : Draft} (formed : Formed .expression draft)
    (expressed : Expressed draft) : Item argument (pieceOf draft).argument draft := by
  rw [formed.argument_of_expression]
  have starts := expressed.operand.starts
  refine ⟨starts.mono fun _ => itemStart_of_operandStart, ?_⟩
  intro limit close rest enough ends depth
  have noDots : ((pieceOf draft).operand ++ .punct close :: rest).head? ≠ some (.punct "...") :=
    (starts.append _).head?_ne (by decide)
  simp only [argument, gives_bind, gives_here, gives_eatPunct, noDots, ↓reduceIte, Bool.false_eq_true]
  exact expressed.operand.assignment (by omega) (itemEnds_expressionEnds close ends) depth

/-- An expression behind dots is an argument. -/
theorem spread_item {draft : Draft} (expressed : Expressed draft) :
    Item argument (tokensOf (tree "SpreadElement" none [.single "argument" draft]))
      (tree "SpreadElement" none [.single "argument" draft]) := by
  rw [tokensOf_dots draft (.inl rfl)]
  refine ⟨.cons (by decide), ?_⟩
  intro limit close rest enough ends depth
  simp only [List.length_cons] at enough
  simp only [argument, gives_bind, gives_here, gives_eatPunct, List.cons_append, List.head?_cons,
    ↓reduceIte, List.tail_cons]
  apply (expressed.operand.assignment (by omega) (itemEnds_expressionEnds close ends)).gives
  simp

end Lists

section Functions

variable {name body key left right : Draft} {params : List Draft} {limit : Nat}

/-- A name is read back where one is bound. -/
theorem Named.gives (named : Named name) {rest : List TokenKind} {depth : Nat}
    {holds : Draft → Cursor → Prop} (holding : holds name (.over rest depth)) :
    Gives bindingName (.over (tokensOf name ++ rest) depth) holds := by
  obtain ⟨text, isName, rfl⟩ := named
  exact (gives_bindingName isName).mpr holding

/-- What is written for a name starts with a word. -/
theorem Named.head? (named : Named name) (rest : List TokenKind) :
    ∃ text, (tokensOf name ++ rest).head? = some (.word text) := by
  obtain ⟨text, isName, rfl⟩ := named
  exact ⟨text, rfl⟩

/-- A name starts an item. -/
theorem Named.starts (named : Named name) : Starts (tokensOf name) isItemStart :=
  named.operand.starts.mono fun _ => itemStart_of_operandStart

/-- A name is a parameter. -/
theorem param_item (named : Named name) : Item param (tokensOf name) name := by
  refine ⟨named.starts, ?_⟩
  intro limit close rest enough ends depth
  obtain ⟨text, first⟩ := named.head? (.punct close :: rest)
  have noDefault : ∀ close ∈ itemEnds, close ≠ "=" := by decide
  simp only [param, gives_bind, gives_here, gives_eatPunct, first, reduceCtorEq, Option.some.injEq,
    ↓reduceIte, Bool.false_eq_true]
  apply named.gives
  simp [noDefault close ends]

/-- A name behind dots is a parameter. -/
theorem restParam_item (named : Named name) :
    Item param (tokensOf (tree "RestElement" none [.single "argument" name]))
      (tree "RestElement" none [.single "argument" name]) := by
  have bare : (pieceOf name).operand = tokensOf name := by
    obtain ⟨text, isName, rfl⟩ := named
    rfl
  rw [tokensOf_dots name (.inr rfl), bare]
  refine ⟨.cons (by decide), ?_⟩
  intro limit close rest enough ends depth
  simp only [param, gives_bind, gives_here, gives_eatPunct, List.cons_append, List.head?_cons,
    ↓reduceIte, List.tail_cons]
  apply named.gives
  simp

/-- A name with a default value is a parameter. -/
theorem defaultParam_item (named : Named left) (expressed : Expressed right) :
    Item param (tokensOf (tree "AssignmentPattern" none [.single "left" left, .single "right" right]))
      (tree "AssignmentPattern" none [.single "left" left, .single "right" right]) := by
  rw [tokensOf_default]
  refine ⟨named.starts.append _, ?_⟩
  intro limit close rest enough ends depth
  obtain ⟨text, first⟩ :=
    named.head? (.punct "=" :: ((pieceOf right).operand ++ .punct close :: rest))
  simp only [List.length_append, List.length_cons] at enough
  simp only [param, gives_bind, gives_here, gives_eatPunct, List.append_assoc, List.cons_append, first,
    reduceCtorEq, Option.some.injEq, ↓reduceIte, Bool.false_eq_true]
  apply named.gives
  simp only [gives_eatPunct, List.head?_cons, ↓reduceIte, List.tail_cons, gives_bind]
  apply (expressed.operand.assignment (by omega) (itemEnds_expressionEnds close ends)).gives
  simp

/-- Parameters in parentheses are read back. -/
theorem params_reread (each : ∀ draft ∈ params, Item param (tokensOf draft) draft)
    (enough : 5 * (commas (params.map tokensOf)).length ≤ limit) (rest : List TokenKind) :
    Rereads (Script.params (readWithin limit)) (parens (commas (params.map tokensOf))) params rest := by
  intro depth
  simp only [Script.params, parens, gives_bind, List.cons_append, List.append_assoc, List.nil_append,
    gives_expectPunct]
  exact gives_items each (by decide) (by decide) enough ⟨rfl, rfl⟩

/-- The parameters and the body of a method are read back behind its key. -/
theorem method_reread (each : ∀ draft ∈ params, Item param (tokensOf draft) draft)
    (blocked : Blocked body) {kind : String} {text : Option String}
    (enough : 5 * ((commas (params.map tokensOf)).length + (tokensOf body).length) ≤ limit)
    (rest : List TokenKind) :
    Rereads (method (readWithin limit) kind .origin text key)
      (parens (commas (params.map tokensOf)) ++ tokensOf body)
      (tree kind text [.single "key" key, .list "params" params, .single "body" body]) rest := by
  intro depth
  simp only [method, gives_bind, List.append_assoc]
  apply (params_reread each (by omega) _).gives
  apply (blocked.reads limit rest (by omega)).gives
  simp

private theorem functionName_reread {id : Option Draft} (named : ∀ draft ∈ id, Named draft) {needsName : Bool}
    (needed : needsName = true → id.isSome = true) {rest : List TokenKind}
    (opens : rest.head? = some (.punct "(")) :
    Rereads (functionName needsName) (id.toList.flatMap tokensOf) id rest := by
  intro depth
  cases id with
  | none =>
    have unneeded : needsName = false := by
      cases needsName with
      | false => rfl
      | true => exact absurd (needed rfl) Bool.false_ne_true
    simp [functionName, opens, unneeded]
  | some name =>
    obtain ⟨text, isName, rfl⟩ := named name rfl
    change Gives (do return some (← bindingName)) (.over (.word text :: rest) depth) _
    simp only [gives_bind, gives_pure]
    exact (gives_bindingName isName).mpr ⟨rfl, rfl⟩

/-- A function is read back with its name, if it has one. -/
theorem function_reread {id : Option Draft} (named : ∀ draft ∈ id, Named draft) {needsName : Bool}
    (needed : needsName = true → id.isSome = true)
    (each : ∀ draft ∈ params, Item param (tokensOf draft) draft) (blocked : Blocked body)
    {kind : String}
    (enough : 5 * ((commas (params.map tokensOf)).length + (tokensOf body).length) ≤ limit)
    (rest : List TokenKind) :
    Rereads (function (readWithin limit) kind needsName)
      (.word "function" :: (id.toList.flatMap tokensOf ++
        (parens (commas (params.map tokensOf)) ++ tokensOf body)))
      (tree kind none [.single "id" id, .list "params" params, .single "body" body]) rest := by
  intro depth
  have noGenerator : (id.toList.flatMap tokensOf ++
      (parens (commas (params.map tokensOf)) ++ (tokensOf body ++ rest))).head? ≠ some (.punct "*") := by
    cases id with
    | none => simp [parens]
    | some name =>
      obtain ⟨text, isName, rfl⟩ := named name rfl
      rintro ⟨⟩
  simp only [function, gives_bind, gives_here, List.cons_append, gives_advance, List.append_assoc,
    gives_atPunct, gives_ite, noGenerator, decide_false, Bool.false_eq_true, ↓reduceIte]
  apply (functionName_reread named needed rfl).gives
  apply (params_reread each (by omega) _).gives
  apply (blocked.reads limit rest (by omega)).gives
  simp

end Functions

section Properties

variable {draft key value body : Draft} {params : List Draft} {kinds link : List TokenKind}

/-- A word is a key. -/
theorem word_key (text : String) : Key (pieceOf (atom "Identifier" text)).key (atom "Identifier" text) where
  starts := ⟨.word text, [], rfl, by simp, fun _ _ => rfl⟩
  reads _ _ _ _ := ⟨rfl, rfl⟩

private theorem number_key (text : String) :
    Key (pieceOf (atom "NumericLiteral" text)).key (atom "NumericLiteral" text) where
  starts := ⟨.number text, [], rfl, by simp, by simp⟩
  reads _ _ _ _ := ⟨rfl, rfl⟩

private theorem string_key (text : String) :
    Key (pieceOf (atom "StringLiteral" text)).key (atom "StringLiteral" text) where
  starts := ⟨.string text, [], rfl, by simp, by simp⟩
  reads _ _ _ _ := ⟨rfl, rfl⟩

private theorem computed_key (expressed : Expressed draft)
    (computed : plainKeys.contains draft.label.kind = false) : Key (pieceOf draft).key draft := by
  have inBrackets : (pieceOf draft).key = brackets (pieceOf draft).operand :=
    if_neg (Bool.eq_false_iff.mp computed)
  rw [inBrackets]
  refine ⟨⟨.punct "[", _, rfl, by simp, by simp⟩, ?_⟩
  intro limit rest enough depth
  rw [length_brackets] at enough
  change Gives (do
    advance
    let key ← readWithin limit .assignment
    expectPunct "]"
    return key) _ _
  simp only [brackets, gives_bind, List.cons_append, List.append_assoc, List.nil_append, gives_advance]
  apply (expressed.operand.assignment (by omega) (by decide)).gives
  simp

/-- An expression is a key, in brackets unless it is a literal. -/
theorem key_of_expression (formed : Formed .expression draft) (expressed : Expressed draft) :
    Key (pieceOf draft).key draft := by
  cases formed with
  | ofBare bare =>
    cases bare with
    | identifier name =>
      cases name
      exact word_key _
    | number text => exact number_key text
    | string text => exact string_key text
    | boolean | null | this => exact computed_key expressed rfl
  | ofCompound compound =>
    have others : ∀ kind ∈ compoundKinds, plainKeys.contains kind = false := by decide
    exact computed_key expressed (others _ compound.compound_kind)

/-- A property is read back from its key and what follows it. -/
theorem property_of_key (isKey : Key kinds key)
    (reads : ∀ limit close rest token, 5 * link.length ≤ limit → close ∈ itemEnds →
      Rereads (objectProperty (readWithin limit) .origin token key) link draft (.punct close :: rest)) :
    Item objectMember (kinds ++ link) draft := by
  obtain ⟨kind, more, same, punct, -⟩ := isKey.starts
  have starts : Starts kinds isItemStart := by
    rw [same]
    apply Starts.cons
    cases kind with
    | word text | number text | string text => simp [isItemStart]
    | punct text =>
      rw [punct text rfl]
      decide
  refine ⟨starts.append link, ?_⟩
  intro limit close rest enough ends depth
  rw [List.length_append] at enough
  have noDots : (kinds ++ (link ++ .punct close :: rest)).head? ≠ some (.punct "...") := by
    rw [same]
    rintro ⟨⟩
    exact absurd (punct "..." rfl) (by decide)
  simp only [objectMember, gives_bind, gives_here, gives_eatPunct, gives_get, List.append_assoc, noDots,
    ↓reduceIte, Bool.false_eq_true]
  apply (isKey.reads limit _ (by omega)).gives
  exact reads limit close rest _ (by omega) ends depth

/-- A key with a value is a property. -/
theorem property_item (isKey : Key (pieceOf key).key key) (expressed : Expressed value) :
    Item objectMember
      (tokensOf (tree "ObjectProperty" none [.single "key" key, .single "value" value]))
      (tree "ObjectProperty" none [.single "key" key, .single "value" value]) := by
  rw [tokensOf_property]
  apply property_of_key isKey
  intro limit close rest token enough ends depth
  rw [List.length_cons] at enough
  simp only [objectProperty, gives_bind, gives_atPunct, gives_eatPunct, List.cons_append,
    List.head?_cons, Option.some.injEq, TokenKind.punct.injEq, String.reduceEq, decide_false,
    Bool.false_eq_true, ↓reduceIte, List.tail_cons]
  apply (expressed.operand.assignment (by omega) (itemEnds_expressionEnds close ends)).gives
  simp

/-- A key with parameters and a body is a property. -/
theorem method_item (isKey : Key (pieceOf key).key key)
    (each : ∀ draft ∈ params, Item param (tokensOf draft) draft) (blocked : Blocked body) :
    Item objectMember
      (tokensOf (tree "ObjectMethod" none
        [.single "key" key, .list "params" params, .single "body" body]))
      (tree "ObjectMethod" none [.single "key" key, .list "params" params, .single "body" body]) := by
  rw [tokensOf_method]
  apply property_of_key isKey
  intro limit close rest token enough ends depth
  rw [List.length_append, length_parens] at enough
  have opens : (parens (commas (params.map tokensOf)) ++ tokensOf body ++ .punct close :: rest).head? =
      some (.punct "(") := rfl
  simp only [objectProperty, gives_bind, gives_atPunct, opens, decide_true, ↓reduceIte]
  exact method_reread each blocked (by omega) _ depth

/-- A name alone is a property, if it is no keyword. -/
theorem shorthand_item {text : String} (isName : isKeyword text = false) :
    Item objectMember
      (tokensOf (tree "ObjectProperty" "shorthand"
        [.single "key" (atom "Identifier" text), .single "value" (atom "Identifier" text)]))
      (tree "ObjectProperty" "shorthand"
        [.single "key" (atom "Identifier" text), .single "value" (atom "Identifier" text)]) := by
  rw [tokensOf_shorthand]
  refine ⟨.cons (by simp [isItemStart]), ?_⟩
  intro limit close rest enough ends depth
  -- What follows the name decides that it is the value, too.
  have facts : ∀ close ∈ itemEnds, close ≠ "(" ∧ close ≠ ":" := by decide
  obtain ⟨noMethod, noValue⟩ := facts close ends
  have named (holds : Draft → Cursor → Prop) :
      Gives (propertyKey (readWithin limit)) (.over (.word text :: .punct close :: rest) depth) holds ↔
        holds (atom "Identifier" text) (.over (.punct close :: rest) depth) := Iff.rfl
  have token : (Cursor.over (.word text :: .punct close :: rest) depth).rest.head? =
      some (written (.word text)) := rfl
  have isWord : (written (.word text)).kind = .word text := rfl
  have isLeaf : leaf "Identifier" (written (.word text)) = atom "Identifier" text := rfl
  change Gives _ (.over (.word text :: .punct close :: rest) depth) _
  simp only [objectMember, gives_bind, gives_here, gives_eatPunct, gives_get, List.head?_cons,
    Option.some.injEq, reduceCtorEq, ↓reduceIte, Bool.false_eq_true, named, token]
  simp [objectProperty, noMethod, noValue, isWord, isName, isLeaf]

/-- An expression behind dots is a property. -/
theorem spreadProperty_item (expressed : Expressed draft) :
    Item objectMember (tokensOf (tree "SpreadElement" none [.single "argument" draft]))
      (tree "SpreadElement" none [.single "argument" draft]) := by
  rw [tokensOf_dots draft (.inl rfl)]
  refine ⟨.cons (by decide), ?_⟩
  intro limit close rest enough ends depth
  rw [List.length_cons] at enough
  simp only [objectMember, gives_bind, gives_here, gives_eatPunct, List.cons_append, List.head?_cons,
    ↓reduceIte, List.tail_cons]
  apply (expressed.operand.assignment (by omega) (itemEnds_expressionEnds close ends)).gives
  simp

end Properties

end SyntaxNav.Script

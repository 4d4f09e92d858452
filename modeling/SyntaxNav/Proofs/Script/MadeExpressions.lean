import SyntaxNav.Proofs.Script.Mirroring

/-! # Making expressions

Each production of an expression mirrors itself, if the phrases inside it do: the nodes below a node are
made from left to right, in the order of its fields.
-/

namespace SyntaxNav.Script

variable {builder : Builder}

/-- Every phrase is made as it is read. -/
def PhrasesMirror (read : PhraseReader) (make : Phrase → Maker NodeId) : Prop :=
  ∀ phrase builder, Mirrors (read phrase) (make phrase) builder (Makes builder)

section Names

/-- A name that is bound is made into a leaf. -/
theorem bindingName_mirrors : Mirrors bindingName bindingName builder (Makes builder) := by
  refine .share .get fun cursor => ?_
  split
  · exact .failExpected _
  · split
    · exact .ite _ (.failExpected _) (.share .advance fun _ => makeLeaf_mirrors _ (by decide))
    · exact .failAt _ _
    · exact .failAt _ _
    · exact .failExpected _

private theorem propertyName_mirrors : Mirrors propertyName propertyName builder (Makes builder) := by
  refine .share .get fun cursor => ?_
  split
  · exact .failExpected _
  · split
    · exact .share .advance fun _ => makeLeaf_mirrors _ (by decide)
    · exact .failExpected _

/-- A node without fields is made as it is read. -/
theorem constant_mirrors {kind : String} (forward : kind ≠ "DoWhileStatement") :
    Mirrors (constant kind) (constant kind) builder (Makes builder) :=
  .share .here fun _ => .share .advance fun _ => node_mirrors _ _ forward .nil

private theorem literal_mirrors {kind : String} (token : Token) (forward : kind ≠ "DoWhileStatement") :
    Mirrors (literal kind token) (literal kind token) builder (Makes builder) :=
  .share .advance fun _ => makeLeaf_mirrors token forward

private theorem namedMember_mirrors {kind : String} {before : Builder} {object : Draft} {number : NodeId}
    (start : Pos) (forward : kind ≠ "DoWhileStatement") (objectMade : Makes before object number builder) :
    Mirrors (namedMember kind start object) (namedMember kind start number) builder (Makes before) := by
  refine propertyName_mirrors.bind fun property _ _ propertyMade => ?_
  exact node_mirrors start none forward (.single (.some objectMade) (.single (.some propertyMade) .nil))

private theorem optionalMember_mirrors {before : Builder} {object : Draft} {number : NodeId} (start : Pos)
    (objectMade : Makes before object number builder) :
    Mirrors (optionalMember start object) (optionalMember start number) builder (Makes before) := by
  refine .share (.atPunct "(") fun called => .share (.atPunct "[") fun indexed => ?_
  exact .ite _ (.fail _) (namedMember_mirrors start (by decide) objectMade)

private theorem functionName_mirrors (needed : Bool) :
    Mirrors (functionName needed) (functionName needed) builder (MakesOption builder) := by
  have named : Mirrors (do return some (← bindingName)) (do return some (← bindingName)) builder
      (MakesOption builder) :=
    bindingName_mirrors.bind fun name _ _ made => .pure (.some made)
  refine .share .peek fun next => ?_
  split
  · exact named
  · exact .ite _ named (.pure .none)

end Names

private theorem leadingOperator?_forward {kind operator : String} {token : Option TokenKind}
    (leads : token.bind leadingOperator? = some (kind, operator)) : kind ≠ "DoWhileStatement" := by
  obtain ⟨token, rfl, found⟩ := Option.bind_eq_some_iff.mp leads
  unfold leadingOperator? at found
  split at found <;> cases found <;> decide

private theorem sequence_mirrors {item : Reader Draft} {makeItem : Maker NodeId}
    (items : ∀ builder, Mirrors item makeItem builder (Makes builder)) :
    Mirrors (sequence item) (sequence makeItem) builder (Makes builder) := by
  refine .share .here fun start => ?_
  refine (commaSeparated_mirrors items builder).bind fun drafts numbers later each => ?_
  -- One item stands for itself; the two lists are equally long.
  rcases each with _ | ⟨first, _ | ⟨second, rest⟩⟩
  · exact node_mirrors start none (by decide) (.list .nil .nil)
  · exact .pure first
  · exact node_mirrors start none (by decide) (.list (.cons first (.cons second rest)) .nil)

section Productions

variable {read : PhraseReader} {make : Phrase → Maker NodeId} (phrases : PhrasesMirror read make)

include phrases

theorem expression_mirrors : Mirrors (expression read) (expression make) builder (Makes builder) :=
  sequence_mirrors (phrases .assignment)

/-- Parentheses make no node. -/
theorem parenthesized_mirrors :
    Mirrors (parenthesized read) (parenthesized make) builder (Makes builder) := by
  refine .share (.expectPunct "(") fun _ => ?_
  refine (expression_mirrors phrases).bind fun inner _ _ made => ?_
  exact .share (.expectPunct ")") fun _ => .pure made

/-- A key is made as it is read. -/
theorem propertyKey_mirrors : Mirrors (propertyKey read) (propertyKey make) builder (Makes builder) := by
  refine .share .get fun cursor => ?_
  split
  · exact .failExpected _
  · split
    · exact .share .advance fun _ => makeLeaf_mirrors _ (by decide)
    · exact .share .advance fun _ => makeLeaf_mirrors _ (by decide)
    · exact .share .advance fun _ => makeLeaf_mirrors _ (by decide)
    · refine .share .advance fun _ => (phrases _ _).bind fun key _ _ made => ?_
      exact .share (.expectPunct "]") fun _ => .pure made
    · exact .failExpected _

theorem statementInBraces_mirrors :
    Mirrors (statementInBraces read) (statementInBraces make) builder (Makes builder) :=
  .share .atEnd fun _ => .ite _ (.failExpected _) (phrases _ _)

/-- A block is made after its statements. -/
theorem block_mirrors : Mirrors (block read) (block make) builder (Makes builder) := by
  refine .share .here fun start => .share (.expectPunct _) fun _ => ?_
  refine (many_mirrors (.eatPunct _) (fun _ => statementInBraces_mirrors phrases) builder).bind
    fun body _ _ each => ?_
  exact node_mirrors start none (by decide) (.list each .nil)

theorem param_mirrors : Mirrors (param read) (param make) builder (Makes builder) := by
  refine .share .here fun start => .share (.eatPunct "...") fun rest => .ite _ ?_ ?_
  · refine bindingName_mirrors.bind fun argument _ _ made => ?_
    exact node_mirrors start none (by decide) (.single (.some made) .nil)
  · refine bindingName_mirrors.bind fun left _ _ leftMade => ?_
    refine .share (.eatPunct "=") fun equals => .ite _ ?_ (.pure leftMade)
    refine (phrases _ _).bind fun right _ _ rightMade => ?_
    exact node_mirrors start none (by decide) (.single (.some leftMade) (.single (.some rightMade) .nil))

private theorem params_mirror : Mirrors (params read) (params make) builder (Each Makes builder) :=
  .share (.expectPunct "(") fun _ => list_mirrors ")" (fun _ => param_mirrors phrases) builder

/-- A function is made after its name, its parameters and its body. -/
theorem function_mirrors {kind : String} (needsName : Bool) (forward : kind ≠ "DoWhileStatement") :
    Mirrors (function read kind needsName) (function make kind needsName) builder (Makes builder) := by
  refine .share .here fun start => .share .advance fun _ => .share (.atPunct "*") fun star => ?_
  refine .ite _ (.fail _) ?_
  refine (functionName_mirrors needsName).bind fun id _ _ idMade => ?_
  refine (params_mirror phrases).bind fun parameters _ _ each => ?_
  refine (block_mirrors phrases).bind fun body _ _ bodyMade => ?_
  exact node_mirrors start none forward (.single idMade (.list each (.single (.some bodyMade) .nil)))

/-- A method is made after its key, its parameters and its body. -/
theorem method_mirrors {kind : String} {before : Builder} {key : Draft} {number : NodeId} (start : Pos)
    (text : Option String) (forward : kind ≠ "DoWhileStatement") (keyMade : Makes before key number builder) :
    Mirrors (method read kind start text key) (method make kind start text number) builder
      (Makes before) := by
  refine (params_mirror phrases).bind fun parameters _ _ each => ?_
  refine (block_mirrors phrases).bind fun body _ _ bodyMade => ?_
  exact node_mirrors start text forward
    (.single (.some keyMade) (.list each (.single (.some bodyMade) .nil)))

private theorem spread_mirrors (start : Pos) :
    Mirrors (do node "SpreadElement" start none [.single "argument" (← read .assignment)])
      (do node "SpreadElement" start none [.single "argument" (← make .assignment)] : Maker NodeId)
      builder (Makes builder) := by
  refine (phrases _ _).bind fun inner _ _ made => ?_
  exact node_mirrors start none (by decide) (.single (.some made) .nil)

theorem argument_mirrors : Mirrors (argument read) (argument make) builder (Makes builder) :=
  .share .here fun start => .share (.eatPunct "...") fun _ =>
    .ite _ (spread_mirrors phrases start) (phrases _ _)

private theorem objectProperty_mirrors {before : Builder} {key : Draft} {number : NodeId} (start : Pos)
    (keyToken : Option Token) (keyMade : Makes before key number builder) :
    Mirrors (objectProperty read start keyToken key) (objectProperty make start keyToken number) builder
      (Makes before) := by
  refine .share (.atPunct "(") fun called => ?_
  refine .ite _ (method_mirrors phrases start none (by decide) keyMade) ?_
  refine .share (.eatPunct ":") fun colon => .ite _ ?_ ?_
  · refine (phrases _ _).bind fun value _ _ valueMade => ?_
    exact node_mirrors start none (by decide) (.single (.some keyMade) (.single (.some valueMade) .nil))
  · split
    · split
      · refine .ite _ (.failExpected _) ?_
        refine (makeLeaf_mirrors _ (by decide)).bind fun value _ _ valueMade => ?_
        exact node_mirrors start _ (by decide)
          (.single (.some keyMade) (.single (.some valueMade) .nil))
      · exact .failExpected _
    · exact .failExpected _

/-- A member of an object is made after its key and its value, a short one with two leaves of one token. -/
theorem objectMember_mirrors :
    Mirrors (objectMember read) (objectMember make) builder (Makes builder) := by
  refine .share .here fun start => .share (.eatPunct "...") fun _ => ?_
  refine .ite _ (spread_mirrors phrases start) (.share .get fun cursor => ?_)
  refine (propertyKey_mirrors phrases).bind fun key _ _ keyMade => ?_
  exact objectProperty_mirrors phrases start _ keyMade

private theorem array_mirrors : Mirrors (array read) (array make) builder (Makes builder) := by
  refine .share .here fun start => .share .advance fun _ => ?_
  refine (list_mirrors "]" (fun _ => argument_mirrors phrases) builder).bind fun _ _ _ each => ?_
  exact node_mirrors start none (by decide) (.list each .nil)

private theorem object_mirrors : Mirrors (object read) (object make) builder (Makes builder) := by
  refine .share .here fun start => .share .advance fun _ => ?_
  refine (list_mirrors _ (fun _ => objectMember_mirrors phrases) builder).bind fun _ _ _ each => ?_
  exact node_mirrors start none (by decide) (.list each .nil)

/-- A primary expression is made as it is read. -/
theorem primary_mirrors : Mirrors (primary read) (primary make) builder (Makes builder) := by
  refine .share .get fun cursor => ?_
  split
  · exact .failExpected _
  · split
    · exact literal_mirrors _ (by decide)
    · exact literal_mirrors _ (by decide)
    · exact literal_mirrors _ (by decide)
    · exact literal_mirrors _ (by decide)
    · exact constant_mirrors (by decide)
    · exact constant_mirrors (by decide)
    · exact function_mirrors phrases false (by decide)
    · exact .ite _ (.failExpected _) (literal_mirrors _ (by decide))
    · exact parenthesized_mirrors phrases
    · exact array_mirrors phrases
    · exact object_mirrors phrases
    · exact .failExpected _

section Members

variable {before : Builder} {inner : Draft} {number : NodeId} (start : Pos)
  (innerMade : Makes before inner number builder)

include innerMade

private theorem computedMember_mirrors :
    Mirrors (computedMember read start inner) (computedMember make start number) builder
      (Makes before) := by
  refine (expression_mirrors phrases).bind fun property _ _ propertyMade => ?_
  refine .share (.expectPunct "]") fun _ => ?_
  exact node_mirrors start _ (by decide) (.single (.some innerMade) (.single (.some propertyMade) .nil))

private theorem memberOrCall_mirrors :
    Mirrors (memberOrCall read start inner) (memberOrCall make start number) builder
      (Extends before builder) := by
  refine .share (.eatPunct ".") fun _ => .ite _ ?_ (.share (.eatPunct "?.") fun _ => .ite _ ?_ ?_)
  · exact (namedMember_mirrors start (by decide) innerMade).bind fun _ _ _ made => .pure (.go made)
  · exact (optionalMember_mirrors start innerMade).bind fun _ _ _ made => .pure (.go made)
  refine .share (.eatPunct "[") fun _ => .ite _ ?_ (.share (.eatPunct "(") fun _ => .ite _ ?_ ?_)
  · exact (computedMember_mirrors phrases start innerMade).bind fun _ _ _ made => .pure (.go made)
  · refine (list_mirrors ")" (fun _ => argument_mirrors phrases) builder).bind fun _ _ _ each => ?_
    exact (node_mirrors start none (by decide) (.single (.some innerMade) (.list each .nil))).bind
      fun _ _ _ made => .pure (.go made)
  · exact .pure .stop

private theorem constructedMember_mirrors :
    Mirrors (constructedMember read start inner) (constructedMember make start number) builder
      (Extends before builder) := by
  refine .share (.eatPunct ".") fun _ => .ite _ ?_ (.share (.eatPunct "[") fun _ => .ite _ ?_ ?_)
  · exact (namedMember_mirrors start (by decide) innerMade).bind fun _ _ _ made => .pure (.go made)
  · exact (computedMember_mirrors phrases start innerMade).bind fun _ _ _ made => .pure (.go made)
  · exact .pure .stop

private theorem operation_mirrors (least : Nat) (allowIn : Bool) :
    Mirrors (operation read start least allowIn inner) (operation make start least allowIn number) builder
      (Extends before builder) := by
  refine .share .peek fun next => ?_
  split
  · exact .pure .stop
  · rename_i operator _
    refine .ite _ (.pure .stop) (.share .advance fun _ => ?_)
    refine (phrases _ _).bind fun right _ _ rightMade => ?_
    have forward : operator.nodeKind ≠ "DoWhileStatement" := by
      unfold Operator.nodeKind
      split <;> decide
    exact (node_mirrors start _ forward (.single (.some innerMade) (.single (.some rightMade) .nil))).bind
      fun _ _ _ made => .pure (.go made)

private theorem assignmentTo_mirrors :
    Mirrors (assignmentTo read start inner) (assignmentTo make start number) builder (Makes before) := by
  refine .share .peek fun next => ?_
  split
  · exact .pure innerMade
  · refine .share .advance fun _ => (phrases _ _).bind fun right _ _ rightMade => ?_
    exact node_mirrors start _ (by decide) (.single (.some innerMade) (.single (.some rightMade) .nil))

end Members

/-- Each member or call is made around what was made before it. -/
theorem chain_mirrors : Mirrors (chain read) (chain make) builder (Makes builder) := by
  have grown (start : Pos) (inner : Draft) (number : NodeId) (later : Builder)
      (made : Makes builder inner number later) :
      Mirrors (grow (memberOrCall read start) inner) (grow (memberOrCall make start) number) later
        (Makes builder) :=
    grow_mirrors (fun _ _ _ => memberOrCall_mirrors phrases start) made
  refine .share .here fun start => .share (.atWord "new") fun isNew => .ite _ ?_ ?_
  · exact (phrases _ _).bind (grown start)
  · exact (primary_mirrors phrases).bind (grown start)

/-- A construction is made after what is constructed and its arguments. -/
theorem construction_mirrors :
    Mirrors (construction read) (construction make) builder (Makes builder) := by
  have rest (start : Pos) (inner : Draft) (number : NodeId) (later : Builder)
      (made : Makes builder inner number later) :
      Mirrors
        (do
          let callee ← grow (constructedMember read start) inner
          let arguments ← if ← eatPunct "(" then list ")" (argument read) else pure []
          node "NewExpression" start none [.single "callee" callee, .list "arguments" arguments])
        (do
          let callee ← grow (constructedMember make start) number
          let arguments ← if ← eatPunct "(" then list ")" (argument make) else pure []
          node "NewExpression" start none [.single "callee" callee, .list "arguments" arguments])
        later (Makes builder) := by
    refine (grow_mirrors (fun _ _ _ => constructedMember_mirrors phrases start) made).bind
      fun callee _ middle calleeMade => ?_
    refine .share (.eatPunct "(") fun called => .ite _ ?_ ?_
    · refine (list_mirrors ")" (fun _ => argument_mirrors phrases) middle).bind fun _ _ _ each => ?_
      exact node_mirrors start none (by decide) (.single (.some calleeMade) (.list each .nil))
    · exact node_mirrors start none (by decide) (.single (.some calleeMade) (.list .nil .nil))
  refine .share .here fun start => .share .advance fun _ => .share (.atWord "new") fun isNew => ?_
  refine .ite _ ?_ ?_
  · exact (Mirrors.nested (phrases _ _)).bind (rest start)
  · exact (primary_mirrors phrases).bind (rest start)

private theorem postfixed_mirrors : Mirrors (postfixed read) (postfixed make) builder (Makes builder) := by
  refine .share .here fun start => (chain_mirrors phrases).bind fun inner _ _ made => ?_
  refine .share .get fun cursor => ?_
  split
  · exact .pure made
  · exact .share .advance fun _ => node_mirrors start _ (by decide) (.single (.some made) .nil)

/-- Operators in front are made after their operands, from the inside out. -/
theorem unary_mirrors : Mirrors (unary read) (unary make) builder (Makes builder) := by
  refine .share .here fun start => .share .peek fun next => ?_
  split
  · exact postfixed_mirrors phrases
  · rename_i kind operator leads
    refine .share .advance fun _ => (phrases _ _).bind fun inner _ _ made => ?_
    exact node_mirrors start _ (leadingOperator?_forward leads) (.single (.some made) .nil)

/-- Operations are made as they are grouped, each after its operands. -/
theorem binary_mirrors (least : Nat) (allowIn : Bool) :
    Mirrors (binary read least allowIn) (binary make least allowIn) builder (Makes builder) := by
  refine .share .here fun start => (phrases _ _).bind fun first _ _ made => ?_
  exact grow_mirrors (fun _ _ _ makes => operation_mirrors phrases start makes least allowIn) made

private theorem conditional_mirrors :
    Mirrors (conditional read) (conditional make) builder (Makes builder) := by
  refine .share .here fun start => (phrases _ _).bind fun test _ _ testMade => ?_
  refine .share (.eatPunct "?") fun asked => .ite _ ?_ (.pure testMade)
  refine (phrases _ _).bind fun consequent _ _ consequentMade => .share (.expectPunct ":") fun _ => ?_
  refine (phrases _ _).bind fun alternate _ _ alternateMade => ?_
  exact node_mirrors start none (by decide)
    (.single (.some testMade) (.single (.some consequentMade) (.single (.some alternateMade) .nil)))

private theorem arrow_mirrors : Mirrors (arrow read) (arrow make) builder (Makes builder) := by
  have rest (start : Pos) (parameters : List Draft) (numbers : List NodeId) (later : Builder)
      (each : Each Makes builder parameters numbers later) :
      Mirrors
        (do
          expectPunct "=>"
          let body ← if ← atPunct "\x7b" then block read else read .assignment
          node "ArrowFunctionExpression" start none [.list "params" parameters, .single "body" body])
        (do
          expectPunct "=>"
          let body ← if ← atPunct "\x7b" then block make else make .assignment
          node "ArrowFunctionExpression" start none [.list "params" numbers, .single "body" body])
        later (Makes builder) := by
    refine .share (.expectPunct "=>") fun _ => .share (.atPunct _) fun braced => .ite _ ?_ ?_
    · refine (block_mirrors phrases).bind fun body _ _ made => ?_
      exact node_mirrors start none (by decide) (.list each (.single (.some made) .nil))
    · refine (phrases _ _).bind fun body _ _ made => ?_
      exact node_mirrors start none (by decide) (.list each (.single (.some made) .nil))
  refine .share .here fun start => .share (.atPunct "(") fun listed => .ite _ ?_ ?_
  · exact (params_mirror phrases).bind (rest start)
  · refine bindingName_mirrors.bind fun name _ _ made => ?_
    exact rest start _ _ _ (.cons made .nil)

/-- An assignment or an arrow function is made after its parts. -/
theorem assignment_mirrors : Mirrors (assignment read) (assignment make) builder (Makes builder) := by
  refine .share .get fun cursor => .ite _ (arrow_mirrors phrases) ?_
  refine .share .here fun start => (conditional_mirrors phrases).bind fun left _ _ made => ?_
  exact assignmentTo_mirrors phrases start made

theorem headExpression_mirrors :
    Mirrors (headExpression read) (headExpression make) builder (Makes builder) := by
  refine sequence_mirrors fun _ => .share .here fun start => ?_
  exact (phrases _ _).bind fun left _ _ made => assignmentTo_mirrors phrases start made

end Productions

end SyntaxNav.Script

import SyntaxNav.Proofs.Script.Rereading

/-! # Written tokens are balanced

In what is written for a draft every bracket has its partner, and every token is a mark of the printer or
comes from a leaf. So a look ahead for an arrow passes over written tokens (`Balanced.arrowBehind_append`),
and all written tokens have a property that the marks and the leaves have (`Formed.balanced`).
-/

namespace SyntaxNav.Script

def TokenKind.isBracket : TokenKind → Bool
  | .punct text => isOpening text || isClosing text
  | _ => false

/-- Whether a token is a mark that the printer writes: a keyword, a word that is one in places, or a
punctuator that is no bracket. -/
def TokenKind.isPrinted : TokenKind → Bool
  | .word text => isKeyword text || text = "let" || text = "static"
  | .punct text => punctuators.contains text && !(TokenKind.punct text).isBracket
  | _ => false

private theorem TokenKind.not_bracket {kind : TokenKind} (printed : kind.isPrinted = true) :
    kind.isBracket = false := by
  cases kind with
  | word text | number text | string text => rfl
  | punct text => simpa using (Bool.and_eq_true_iff.mp printed).2

/-- Tokens in which every bracket has its partner, and all others have some property. -/
inductive Balanced (fine : TokenKind → Prop) : List TokenKind → Prop
  | nil : Balanced fine []
  | token {kind : TokenKind} {rest : List TokenKind} : fine kind → kind.isBracket = false →
      Balanced fine rest → Balanced fine (kind :: rest)
  | pair {left right : String} {inner rest : List TokenKind} : (left, right) ∈ bracketPairs →
      Balanced fine inner → Balanced fine rest →
      Balanced fine (.punct left :: (inner ++ .punct right :: rest))

namespace Balanced

variable {fine : TokenKind → Prop} {kinds others rest : List TokenKind}

/-- Balanced tokens behind balanced tokens are balanced. -/
theorem append (first : Balanced fine kinds) (second : Balanced fine others) :
    Balanced fine (kinds ++ others) := by
  induction first with
  | nil => exact second
  | token isFine plain _ ih => exact .token isFine plain ih
  | pair known inner _ _ ih =>
    rw [List.cons_append, List.append_assoc, List.cons_append]
    exact .pair known inner ih

private theorem parens (inner : Balanced fine kinds) : Balanced fine (parens kinds) :=
  .pair (by decide) inner .nil

/-- Balanced tokens stay so in brackets. -/
theorem brackets (inner : Balanced fine kinds) : Balanced fine (brackets kinds) :=
  .pair (by decide) inner .nil

private theorem braces (inner : Balanced fine kinds) : Balanced fine (braces kinds) :=
  .pair (by decide) inner .nil

private theorem flatMap {α : Type} {items : List α} {write : α → List TokenKind}
    (each : ∀ item ∈ items, Balanced fine (write item)) : Balanced fine (items.flatMap write) := by
  induction items with
  | nil => exact .nil
  | cons first others ih =>
    obtain ⟨here, later⟩ := List.forall_mem_cons.mp each
    rw [List.flatMap_cons]
    exact here.append (ih later)

/-- Every token has the property, if the brackets do. -/
theorem all (balanced : Balanced fine kinds)
    (pairs : ∀ pair ∈ bracketPairs, fine (.punct pair.1) ∧ fine (.punct pair.2)) :
    ∀ kind ∈ kinds, fine kind := by
  induction balanced with
  | nil => exact List.forall_mem_nil _
  | token isFine _ _ ih => exact List.forall_mem_cons.mpr ⟨isFine, ih⟩
  | pair known _ _ ihInner ihRest =>
    obtain ⟨left, right⟩ := pairs _ known
    rw [List.forall_mem_cons, List.forall_mem_append, List.forall_mem_cons]
    exact ⟨left, ihInner, right, ihRest⟩

/-- The look for an arrow behind open brackets passes over balanced tokens. -/
theorem arrowBehind_append (balanced : Balanced fine kinds) (opened : Nat) (rest : List TokenKind) :
    arrowBehind (opened + 1) ((kinds ++ rest).map written) =
      arrowBehind (opened + 1) (rest.map written) := by
  induction balanced generalizing opened rest with
  | nil => rfl
  | @token kind others _ plain _ ih =>
    have passed : arrowBehind (opened + 1) (written kind :: (others ++ rest).map written) =
        arrowBehind (opened + 1) ((others ++ rest).map written) := by
      cases kind with
      | word | number | string => rfl
      | punct text =>
        obtain ⟨notOpening, notClosing⟩ := Bool.or_eq_false_iff.mp plain
        simp [arrowBehind, written, notOpening, notClosing]
    rw [List.cons_append, List.map_cons, passed, ih]
  | @pair left right inner others known _ _ ihInner ihRest =>
    have sides : isOpening left = true ∧ isOpening right = false ∧ isClosing right = true := by
      simp only [bracketPairs, List.mem_cons, Prod.mk.injEq, List.not_mem_nil, or_false] at known
      rcases known with ⟨rfl, rfl⟩ | ⟨rfl, rfl⟩ | ⟨rfl, rfl⟩ <;> decide
    obtain ⟨opens, notOpening, closes⟩ := sides
    rw [List.cons_append, List.append_assoc, List.cons_append, List.map_cons]
    have entered : arrowBehind (opened + 1)
        (written (.punct left) :: (inner ++ .punct right :: (others ++ rest)).map written) =
        arrowBehind (opened + 2) ((inner ++ .punct right :: (others ++ rest)).map written) := by
      simp [arrowBehind, written, opens]
    have left : arrowBehind (opened + 2) ((.punct right :: (others ++ rest)).map written) =
        arrowBehind (opened + 1) ((others ++ rest).map written) := by
      simp [arrowBehind, written, notOpening, closes]
    -- Inside the pair one more bracket is open, which is why the number of open ones varies.
    rw [entered, ihInner, left, ihRest]

/-- In front of parentheses there is an arrow function just if an arrow follows them. -/
theorem atArrow_parens (balanced : Balanced fine kinds) (depth : Nat) :
    (Cursor.over (Script.parens kinds ++ rest) depth).atArrow =
      startsWithArrow (rest.map written) := by
  have inside : (Cursor.over (Script.parens kinds ++ rest) depth).atArrow =
      arrowBehind 1 ((kinds ++ .punct ")" :: rest).map written) := by
    simp [Script.parens, Cursor.atArrow, Cursor.over, written]
  rw [inside, balanced.arrowBehind_append]
  rfl

end Balanced

/-- A leaf has a property if what is written for it has. -/
def LeafFine (fine : TokenKind → Prop) (inner : Draft) : Prop :=
  inner.label.kind ∈ leafKinds → ∀ kind ∈ tokensOf inner, fine kind

/-- What holds in a branch holds in its parts. -/
theorem everywhere_below {holds : Draft → Prop} {kind : String} {text : Option String}
    {fields : List (Field Draft)} (everywhere : (tree kind text fields).Everywhere holds) :
    ∀ child ∈ fields.flatMap Field.contents, child.Everywhere holds := by
  intro child member inner occurs
  rw [← Field.map_snd_spread] at member
  obtain ⟨slotted, listed, rfl⟩ := List.mem_map.mp member
  exact everywhere inner ((SlotTree.Occurs.root.child listed).trans occurs)

def textTokens (text : Option String) : String → List TokenKind
  | "Identifier" | "BooleanLiteral" | "VariableDeclaration" => [.word (text.getD "")]
  | "NumericLiteral" => [.number (text.getD "")]
  | "StringLiteral" => [.string (text.getD "")]
  | "UnaryExpression" | "UpdateExpression" | "BinaryExpression" | "LogicalExpression"
  | "AssignmentExpression" => [spell (text.getD "")]
  | _ => []

section Writing

variable {fine : TokenKind → Prop} {kinds : List TokenKind} {kind : TokenKind} {piece : Piece}
  {parts : Parts} {text : Option String}

namespace Balanced

/-- An operand is balanced, with or without parentheses around it. -/
theorem operand (balanced : Balanced fine piece.tokens) : Balanced fine piece.operand := by
  unfold Piece.operand
  split
  · exact balanced
  · exact balanced.parens

private theorem argument (balanced : Balanced fine piece.tokens) : Balanced fine piece.argument := by
  unfold Piece.argument
  split
  · exact balanced
  · exact balanced.operand

private theorem arrowBody (balanced : Balanced fine piece.tokens) : Balanced fine piece.arrowBody := by
  unfold Piece.arrowBody
  split
  · exact balanced
  · exact balanced.operand

private theorem key (balanced : Balanced fine piece.tokens) : Balanced fine piece.key := by
  unfold Piece.key
  split
  · exact balanced
  · exact balanced.operand.brackets

private theorem loopInit (balanced : Balanced fine piece.tokens) : Balanced fine piece.loopInit := by
  unfold Piece.loopInit
  split
  · exact balanced
  · exact balanced.parens

end Balanced

variable (marks : ∀ kind, kind.isPrinted = true → fine kind)
  (balanced : ∀ field, ∀ piece ∈ parts field, Balanced fine piece.tokens)

include marks

private theorem Balanced.mark (printed : kind.isPrinted = true) (rest : Balanced fine kinds) :
    Balanced fine (kind :: kinds) :=
  .token (marks kind printed) (TokenKind.not_bracket printed) rest

private theorem Balanced.commas {runs : List (List TokenKind)} (each : ∀ run ∈ runs, Balanced fine run) :
    Balanced fine (commas runs) := by
  cases runs with
  | nil => exact .nil
  | cons first others =>
    obtain ⟨here, later⟩ := List.forall_mem_cons.mp each
    rw [commas_cons]
    apply here.append
    apply Balanced.flatMap
    intro run member
    exact .mark marks rfl (later run member)

private theorem Balanced.closed (balanced : Balanced fine piece.tokens) : Balanced fine piece.closed := by
  unfold Piece.closed
  split
  · exact balanced.append (.mark marks rfl .nil)
  · exact balanced

private theorem balanced_static : Balanced fine (staticTokens text) := by
  unfold staticTokens
  split
  · exact .mark marks rfl .nil
  · exact .nil

include balanced

omit marks in
private theorem balanced_each (field : String) {write : Piece → List TokenKind}
    (writes : ∀ piece, Balanced fine piece.tokens → Balanced fine (write piece)) :
    Balanced fine (parts.each field write) :=
  .flatMap fun piece member => writes piece (balanced field piece member)

private theorem balanced_listed (field : String) {write : Piece → List TokenKind}
    (writes : ∀ piece, Balanced fine piece.tokens → Balanced fine (write piece)) :
    Balanced fine (parts.listed field write) := by
  apply Balanced.commas marks
  intro run isRun
  obtain ⟨piece, member, rfl⟩ := List.mem_map.mp isRun
  exact writes piece (balanced field piece member)

private theorem balanced_callable : Balanced fine parts.callable :=
  (balanced_listed marks balanced "params" fun _ => id).parens.append
    (balanced_each balanced "body" fun _ => id)

private theorem balanced_function : Balanced fine parts.function :=
  .mark marks rfl ((balanced_each balanced "id" fun _ => id).append (balanced_callable marks balanced))

variable {kind : String} (texts : Balanced fine (textTokens text kind))

include texts

private theorem statementTokens_balanced : Balanced fine (statementTokens text parts kind) := by
  have each (field : String) := balanced_each balanced field fun _ => id
  have operands (field : String) := balanced_each balanced field fun _ => Balanced.operand
  have statements (field : String) := balanced_each balanced field fun _ => Balanced.closed marks
  unfold statementTokens
  split
  · exact statements "body"
  · exact (statements "body").braces
  · exact .mark marks rfl .nil
  · exact balanced_function marks balanced
  · apply Balanced.mark marks rfl
    apply (each "id").append
    apply Balanced.append _ (each "body")
    exact balanced_each balanced "superClass" fun _ inner => .mark marks rfl inner.operand
  · exact texts.append (balanced_listed marks balanced "declarations" fun _ => id)
  · apply Balanced.mark marks rfl
    apply (operands "test").parens.append
    apply (statements "consequent").append
    exact balanced_each balanced "alternate" fun _ inner => .mark marks rfl (inner.closed marks)
  · apply Balanced.mark marks rfl
    apply Balanced.append (.parens _) (statements "body")
    apply (balanced_each balanced "init" fun _ => Balanced.loopInit).append
    exact .mark marks rfl ((operands "test").append (.mark marks rfl (operands "update")))
  · exact .mark marks rfl ((operands "test").parens.append (statements "body"))
  · exact .mark marks rfl ((statements "body").append (.mark marks rfl (operands "test").parens))
  · exact .mark marks rfl (operands "argument")
  · exact .mark marks rfl (operands "argument")
  · exact .mark marks rfl .nil
  · exact .mark marks rfl .nil
  · apply Balanced.mark marks rfl
    apply (each "block").append
    apply (each "handler").append
    exact balanced_each balanced "finalizer" fun _ inner => .mark marks rfl inner
  · exact .mark marks rfl ((operands "discriminant").parens.append (each "cases").braces)
  · exact balanced_each balanced "expression" fun _ => Balanced.parens
  · exact .nil

private theorem partTokens_balanced : Balanced fine (partTokens text parts kind) := by
  have each (field : String) := balanced_each balanced field fun _ => id
  have operands (field : String) := balanced_each balanced field fun _ => Balanced.operand
  have keys := balanced_each balanced "key" fun _ => Balanced.key
  have values (field : String) :
      Balanced fine (parts.each field fun piece => .punct "=" :: piece.operand) :=
    balanced_each balanced field fun _ inner => .mark marks rfl inner.operand
  unfold partTokens
  split
  · exact (each "id").append (values "init")
  · apply Balanced.mark marks rfl
    exact (balanced_each balanced "param" fun _ => Balanced.parens).append (each "body")
  · have statements := balanced_each balanced "consequent" fun _ => Balanced.closed marks
    apply Balanced.append _ (.mark marks rfl statements)
    split
    · exact .mark marks rfl .nil
    · exact .mark marks rfl (operands "test")
  · exact .mark marks rfl (operands "argument")
  · exact .mark marks rfl (operands "argument")
  · exact (each "left").append (.mark marks rfl (operands "right"))
  · split
    · exact each "key"
    · exact keys.append (.mark marks rfl (operands "value"))
  · exact keys.append (balanced_callable marks balanced)
  · exact (balanced_static marks).append (keys.append (balanced_callable marks balanced))
  · exact (balanced_static marks).append (keys.append (values "value"))
  · exact (balanced_each balanced "body" fun _ => Balanced.closed marks).braces
  · exact statementTokens_balanced marks balanced texts

/-- What is written for a node is balanced if what is written for its text and its parts is. -/
theorem nodeTokens_balanced : Balanced fine (nodeTokens text parts kind) := by
  have operands (field : String) := balanced_each balanced field fun _ => Balanced.operand
  have arguments := balanced_listed marks balanced "arguments" fun _ => Balanced.argument
  unfold nodeTokens
  split
  · exact texts
  · exact texts
  · exact texts
  · exact texts
  · exact .mark marks rfl .nil
  · exact .mark marks rfl .nil
  · exact balanced_function marks balanced
  · exact (balanced_listed marks balanced "elements" fun _ => Balanced.argument).brackets
  · exact (balanced_listed marks balanced "properties" fun _ => id).braces
  · apply (operands "object").append
    split
    · exact (operands "property").brackets
    · exact .mark marks rfl (balanced_each balanced "property" fun _ => id)
  · exact (operands "object").append
      (.mark marks rfl (balanced_each balanced "property" fun _ => id))
  · exact (operands "callee").append arguments.parens
  · exact .mark marks rfl ((operands "callee").append arguments.parens)
  · exact texts.append (operands "argument")
  · exact texts.append (operands "argument")
  · exact (operands "left").append (texts.append (operands "right"))
  · exact (operands "left").append (texts.append (operands "right"))
  · exact (operands "left").append (texts.append (operands "right"))
  · apply (operands "test").append
    exact .mark marks rfl ((operands "consequent").append (.mark marks rfl (operands "alternate")))
  · apply (balanced_listed marks balanced "params" fun _ => id).parens.append
    exact .mark marks rfl (balanced_each balanced "body" fun _ => Balanced.arrowBody)
  · exact balanced_listed marks balanced "expressions" fun _ => Balanced.operand
  · exact partTokens_balanced marks balanced texts

end Writing

section Operators

variable {operator : String}

private theorem leading_printed {kind : String}
    (known : leadingOperator? (spell operator) = some (kind, operator)) :
    (spell operator).isPrinted = true := by
  unfold leadingOperator? at known
  split at known <;> cases known <;> decide

private theorem operator_printed {operator : Operator}
    (known : Operator.ofToken? (spell operator.text) = some operator) :
    (spell operator.text).isPrinted = true := by
  obtain ⟨text, spelled, known⟩ := Option.bind_eq_some_iff.mp known
  obtain ⟨precedence, known, same⟩ := Option.bind_eq_some_iff.mp known
  cases same
  unfold Operator.precedence? at known
  split at known <;> first | (cases known; decide) | cases known

private theorem assigning_printed (known : assignmentOperator? (spell operator) = some operator) :
    (spell operator).isPrinted = true := by
  have all : ∀ text ∈ assignmentOperators, (spell text).isPrinted = true := by decide
  unfold assignmentOperator? at known
  split at known
  · split at known
    · rename_i listed
      cases known
      exact all _ (List.contains_iff_mem.mp listed)
    · cases known
  · cases known

end Operators

section Forms

variable {fine : TokenKind → Prop} {draft : Draft}

/-- A leaf is written as one token that is no bracket. -/
theorem balanced_atom {kind text : String} (isLeaf : kind ∈ leafKinds)
    (leaves : (atom kind text).Everywhere (LeafFine fine)) :
    Balanced fine (tokensOf (atom kind text)) := by
  have isFine := leaves _ .root isLeaf
  simp only [leafKinds, List.mem_cons, List.not_mem_nil, or_false] at isLeaf
  rcases isLeaf with rfl | rfl | rfl | rfl
  all_goals exact .token (isFine _ List.mem_cons_self) rfl .nil

variable (marks : ∀ kind, kind.isPrinted = true → fine kind)

include marks

/-- A branch is balanced if its text and all its parts are. -/
theorem balanced_tree {kind : String} {text : Option String} {fields : List (Field Draft)}
    (texts : Balanced fine (textTokens text kind))
    (each : ∀ child ∈ fields.flatMap Field.contents,
      child.Everywhere (LeafFine fine) → Balanced fine (tokensOf child))
    (leaves : (tree kind text fields).Everywhere (LeafFine fine)) :
    Balanced fine (tokensOf (tree kind text fields)) := by
  rw [tokensOf_tree]
  apply nodeTokens_balanced marks _ texts
  intro name piece member
  obtain ⟨field, listed, member⟩ := List.mem_flatMap.mp member
  split at member
  · obtain ⟨child, inside, rfl⟩ := List.mem_map.mp member
    have part := List.mem_flatMap.mpr ⟨field, listed, inside⟩
    exact each child part (everywhere_below leaves child part)
  · cases member

/-- What is written for a well-formed draft is balanced, and its tokens are marks or come from leaves. -/
theorem Formed.balanced {category : Category} (formed : Formed category draft) :
    draft.Everywhere (LeafFine fine) → Balanced fine (tokensOf draft) := by
  induction formed with
  | name | number | string | boolean | word => exact balanced_atom (by decide)
  | identifier _ ih | ofBare _ ih | ofCompound _ ih | value _ ih | ofExpression _ ih | param _ ih
  | ofBlock _ ih | ofDeclaration _ ih => exact ih
  | null | this | empty | breakStatement | continueStatement =>
    exact balanced_tree marks .nil (List.forall_mem_nil _)
  | array _ ih | object _ ih | block _ ih | sequence _ ih =>
    exact balanced_tree marks .nil (by simpa using ih)
  | spread _ ih | spreadProperty _ ih | restParam _ ih | throwStatement _ ih
  | expressionStatement _ ih => exact balanced_tree marks .nil (by simpa using ih)
  | returnStatement _ ih => exact balanced_tree marks .nil (by simpa using ih)
  | named word _ ih | optional word _ ih =>
    have name : (atom "Identifier" word).Everywhere (LeafFine fine) →
        Balanced fine (tokensOf (atom "Identifier" word)) := balanced_atom (by decide)
    exact balanced_tree marks .nil (by simpa using ⟨ih, name⟩)
  | @shorthand text =>
    have name : (atom "Identifier" text).Everywhere (LeafFine fine) →
        Balanced fine (tokensOf (atom "Identifier" text)) := balanced_atom (by decide)
    exact balanced_tree marks .nil (by simpa using name)
  | leading known _ ih =>
    have texts := Balanced.mark marks (leading_printed known) .nil
    rcases leadingKind known with rfl | rfl
    all_goals exact balanced_tree marks texts (by simpa using ih)
  | @operation operator _ _ known _ _ ihLeft ihRight =>
    have texts := Balanced.mark marks (operator_printed known) .nil
    rcases operationKind operator with same | same
    all_goals
      rw [same]
      exact balanced_tree marks texts (by simpa using ⟨ihLeft, ihRight⟩)
  | assignment known _ _ ihLeft ihRight =>
    have texts := Balanced.mark marks (assigning_printed known) .nil
    exact balanced_tree marks texts (by simpa using ⟨ihLeft, ihRight⟩)
  | @declaration word _ _ known _ ih =>
    have texts : Balanced fine [.word word] := by
      rcases known with rfl | rfl | rfl
      all_goals exact Balanced.mark marks (by decide) .nil
    exact balanced_tree marks texts (by simpa using ih)
  | computed _ _ ihFirst ihSecond | call _ _ ihFirst ihSecond | construction _ _ ihFirst ihSecond
  | property _ _ ihFirst ihSecond | defaultParam _ _ ihFirst ihSecond
  | declarator _ _ ihFirst ihSecond | whileStatement _ _ ihFirst ihSecond
  | doWhileStatement _ _ ihFirst ihSecond | switchStatement _ _ ihFirst ihSecond
  | catchClause _ _ ihFirst ihSecond | switchCase _ _ ihFirst ihSecond
  | arrow _ _ _ ihFirst ihSecond | classProperty _ _ _ ihFirst ihSecond =>
    exact balanced_tree marks .nil (by simpa [or_imp, forall_and] using ⟨ihFirst, ihSecond⟩)
  | conditional _ _ _ ihFirst ihSecond ihThird | function _ _ _ ihFirst ihSecond ihThird
  | functionDeclaration _ _ _ ihFirst ihSecond ihThird | method _ _ _ ihFirst ihSecond ihThird
  | classMethod _ _ _ _ ihFirst ihSecond ihThird =>
    exact balanced_tree marks .nil
      (by simpa [or_imp, forall_and] using ⟨ihFirst, ihSecond, ihThird⟩)
  | ifStatement _ _ _ _ ihTest ihConsequent ihAlternate =>
    exact balanced_tree marks .nil
      (by simpa [or_imp, forall_and] using ⟨ihTest, ihConsequent, ihAlternate⟩)
  | tryStatement _ _ _ _ ihBody ihHandler ihFinalizer =>
    exact balanced_tree marks .nil
      (by simpa [or_imp, forall_and] using ⟨ihBody, ihHandler, ihFinalizer⟩)
  | forStatement _ _ _ _ _ ihInit ihTest ihUpdate ihBody =>
    exact balanced_tree marks .nil
      (by simpa [or_imp, forall_and] using ⟨ihInit, ihTest, ihUpdate, ihBody⟩)
  | @classDeclaration _ _ members _ _ _ ihName ihSuper ihMembers =>
    have body : (tree "ClassBody" none [.list "body" members]).Everywhere (LeafFine fine) →
        Balanced fine (tokensOf (tree "ClassBody" none [.list "body" members])) :=
      balanced_tree marks .nil (by simpa using ihMembers)
    exact balanced_tree marks .nil
      (by simpa [or_imp, forall_and] using ⟨ihName, ihSuper, body⟩)

omit marks in
/-- In what is written for a well-formed draft every bracket has its partner. -/
theorem Formed.paired {category : Category} (formed : Formed category draft) :
    Balanced (fun _ => True) (tokensOf draft) :=
  formed.balanced (fun _ _ => trivial) fun _ _ _ _ _ => trivial

omit marks in
/-- Balanced runs with commas between them are balanced. -/
theorem paired_commas {category : Category} {drafts : List Draft}
    (formed : ∀ draft ∈ drafts, Formed category draft) :
    Balanced (fun _ => True) (commas (drafts.map tokensOf)) := by
  apply Balanced.commas fun _ _ => trivial
  intro run isRun
  obtain ⟨draft, member, rfl⟩ := List.mem_map.mp isRun
  exact (formed draft member).paired

end Forms

end SyntaxNav.Script

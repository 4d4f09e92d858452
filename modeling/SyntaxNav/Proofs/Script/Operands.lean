import SyntaxNav.Proofs.Script.Balance

/-! # Reading operands

Inside other nodes an expression is written as an operand: a single token, or tokens in parentheses. An
operand is read as a primary expression, and then by every reader around it up to that of whole
expressions, as long as no token follows that would extend it on the way. The readers unroll the grammar
once for each level, so that an operand of `n` tokens needs no more than `5 * n` unrollings.
-/

namespace SyntaxNav.Script

open Phrase (readWithin)

/-- Tokens start with one that is allowed. -/
def Starts (kinds : List TokenKind) (allowed : TokenKind → Bool) : Prop :=
  ∃ kind more, kinds = kind :: more ∧ allowed kind = true

namespace Starts

variable {kinds : List TokenKind} {allowed : TokenKind → Bool}

theorem cons {kind : TokenKind} (isAllowed : allowed kind = true) : Starts (kind :: kinds) allowed :=
  ⟨kind, kinds, rfl, isAllowed⟩

/-- What stands behind tokens does not change how they start. -/
theorem append (starts : Starts kinds allowed) (rest : List TokenKind) :
    Starts (kinds ++ rest) allowed := by
  obtain ⟨kind, more, rfl, isAllowed⟩ := starts
  exact .cons isAllowed

/-- Tokens that start as allowed start as is more widely allowed. -/
theorem mono {wider : TokenKind → Bool} (starts : Starts kinds allowed)
    (imp : ∀ kind, allowed kind = true → wider kind = true) : Starts kinds wider := by
  obtain ⟨kind, more, rfl, isAllowed⟩ := starts
  exact .cons (imp kind isAllowed)

/-- Tokens do not start with one that is not allowed. -/
theorem head?_ne (starts : Starts kinds allowed) {kind : TokenKind} (other : allowed kind = false) :
    kinds.head? ≠ some kind := by
  obtain ⟨first, more, rfl, isAllowed⟩ := starts
  rintro ⟨⟩
  rw [other] at isAllowed
  cases isAllowed

/-- Tokens that start with one are some. -/
theorem length_pos (starts : Starts kinds allowed) : 0 < kinds.length := by
  obtain ⟨first, more, rfl, isAllowed⟩ := starts
  exact Nat.succ_pos _

theorem ne_nil (starts : Starts kinds allowed) : kinds ≠ [] :=
  List.length_pos_iff.mp starts.length_pos

end Starts

def isOperandStart : TokenKind → Bool
  | .number _ | .string _ => true
  | .word text => !isKeyword text || ["true", "false", "null", "this"].contains text
  | .punct text => text = "("

/-- Whether a token extends an operand in front of it by itself. -/
def extendsOperand (kind : TokenKind) : Bool :=
  [".", "?.", "[", "(", "++", "--"].any fun text => kind = .punct text

def expressionEnds : List String := [")", "]", "\x7d", ",", ";", ":"]

/-- No token that starts an operand is an operator in front of one. -/
theorem leadingOperator?_operandStart {kind : TokenKind} (starts : isOperandStart kind = true) :
    leadingOperator? kind = none := by
  unfold leadingOperator?
  split
  all_goals first | rfl | exact absurd starts (by decide)

/-- Written tokens whose first one is no arrow do not start with an arrow. -/
theorem startsWithArrow_written {rest : List TokenKind} (noArrow : rest.head? ≠ some (.punct "=>")) :
    startsWithArrow (rest.map written) = false := by
  cases rest with
  | nil => rfl
  | cons kind rest =>
    simp only [List.head?_cons, ne_eq, Option.some.injEq] at noArrow
    simpa [startsWithArrow, written] using noArrow

section Climbing

variable {read : PhraseReader} {kinds rest : List TokenKind} {draft inner : Draft} {next : TokenKind}
  {start : Pos} {allowed : TokenKind → Bool}

/-- No member or call is read where none is written. -/
theorem memberOrCall_ends (ends : extendsOperand next = false) :
    Rereads (memberOrCall read start inner) [] none (next :: rest) := by
  intro depth
  simp only [extendsOperand, List.any_cons, List.any_nil, Bool.or_false, Bool.or_eq_false_iff,
    decide_eq_false_iff_not] at ends
  obtain ⟨point, optional, bracket, parenthesis, -, -⟩ := ends
  simp [memberOrCall, point, optional, bracket, parenthesis]

theorem constructedMember_ends (ends : next = .punct "(") :
    Rereads (constructedMember read start inner) [] none (next :: rest) := by
  intro depth
  simp [constructedMember, ends]

private theorem trailingOperator?_ends (ends : extendsOperand next = false) (depth : Nat) :
    trailingOperator? (.over (next :: rest) depth) = none := by
  simp only [extendsOperand, List.any_cons, List.any_nil, Bool.or_false, Bool.or_eq_false_iff,
    decide_eq_false_iff_not] at ends
  unfold trailingOperator?
  split
  · rename_i same
    obtain ⟨same, -⟩ := List.cons.inj same
    exact absurd (congrArg Token.kind same) (by simp_all [written])
  · rename_i same
    obtain ⟨same, -⟩ := List.cons.inj same
    exact absurd (congrArg Token.kind same) (by simp_all [written])
  · rfl

private theorem rereads_chain (reads : Rereads (primary read) kinds draft (next :: rest))
    (starts : Starts kinds allowed) (notNew : allowed (.word "new") = false)
    (ends : extendsOperand next = false) : Rereads (chain read) kinds draft (next :: rest) := by
  intro depth
  have primary := (starts.append (next :: rest)).head?_ne notNew
  simp only [chain, gives_bind, gives_here, gives_atWord, primary, decide_false,
    Bool.false_eq_true, ↓reduceIte]
  apply reads.gives
  apply grow_none (memberOrCall_ends ends)
  exact ⟨rfl, rfl⟩

private theorem rereads_unary (reads : Rereads (chain read) kinds draft (next :: rest))
    (starts : Starts kinds allowed)
    (noOperator : ∀ kind, allowed kind = true → leadingOperator? kind = none)
    (ends : extendsOperand next = false) : Rereads (unary read) kinds draft (next :: rest) := by
  intro depth
  have plain : (kinds ++ next :: rest).head?.bind leadingOperator? = none := by
    obtain ⟨kind, more, rfl, isAllowed⟩ := starts
    exact noOperator kind isAllowed
  simp only [unary, gives_bind, gives_here, gives_peek, plain, postfixed]
  apply reads.gives
  simp only [gives_get, trailingOperator?_ends ends, gives_pure, and_self]

private theorem rereads_binary (reads : Rereads (read .unary) kinds draft (next :: rest)) (least : Nat)
    (allowIn : Bool) (ends : Operator.ofToken? next = none) :
    Rereads (binary read least allowIn) kinds draft (next :: rest) := by
  intro depth
  have noOperation : Rereads (operation read .origin least allowIn draft) [] none (next :: rest) := by
    intro depth
    simp [operation, ends]
  simp only [binary, gives_bind, gives_here]
  apply reads.gives
  apply grow_none noOperation
  exact ⟨rfl, rfl⟩

/-- What is read as an operation is read as an expression that is no arrow function. -/
theorem rereads_assignmentOrConditional
    (reads : Rereads (read (.binary 1 true)) kinds draft (next :: rest)) (noMark : next ≠ .punct "?")
    (ends : assignmentOperator? next = none) :
    Rereads (assignmentOrConditional read) kinds draft (next :: rest) := by
  intro depth
  simp only [assignmentOrConditional, conditional, gives_bind, gives_here]
  apply reads.gives
  simp [noMark, assignmentTo, ends]

private theorem rereads_assignment (reads : Rereads (assignmentOrConditional read) kinds draft (next :: rest))
    (noArrow : ∀ depth, (Cursor.over (kinds ++ next :: rest) depth).atArrow = false) :
    Rereads (assignment read) kinds draft (next :: rest) := by
  intro depth
  simp only [assignment, gives_bind, gives_get, noArrow, Bool.false_eq_true, ↓reduceIte]
  exact reads depth

/-- A single item is read back as a sequence. -/
theorem rereads_sequence {item : Reader Draft} {close : String}
    (reads : Rereads item kinds draft (.punct close :: rest)) (closes : close ≠ ",") :
    Rereads (sequence item) kinds draft (.punct close :: rest) := by
  intro depth
  have noMore : Gives (many (do return !(← eatPunct ",")) item) (.over (.punct close :: rest) depth)
      fun others after => others = [] ∧ after = .over (.punct close :: rest) depth := by
    simp only [many, manyUpTo, gives_bind, gives_get]
    simp [closes]
  simp only [sequence, commaSeparated, gives_bind, gives_here, gives_pure]
  apply reads.gives
  apply noMore.mono
  rintro _ _ ⟨rfl, rfl⟩
  exact ⟨rfl, rfl⟩

/-- The parentheses around an expression leave no trace. -/
theorem rereads_parenthesized
    (reads : Rereads (expression read) kinds draft (.punct ")" :: rest)) :
    Rereads (parenthesized read) (parens kinds) draft rest := by
  intro depth
  simp only [parenthesized, parens, List.cons_append, List.append_assoc, List.nil_append, gives_bind,
    gives_expectPunct]
  apply reads.gives
  simp

end Climbing

/-- Tokens that are read back as an expression wherever an operand may stand. -/
structure Operand (kinds : List TokenKind) (draft : Draft) : Prop where
  starts : Starts kinds isOperandStart
  noArrow : ∀ rest depth, rest.head? ≠ some (.punct "=>") →
    (Cursor.over (kinds ++ rest) depth).atArrow = false
  reads : ∀ limit rest, 5 * kinds.length ≤ limit + 5 →
    Rereads (primary (readWithin limit)) kinds draft rest

namespace Operand

variable {kinds rest : List TokenKind} {draft : Draft} {limit : Nat} {next : TokenKind} {close : String}

/-- An operand is read back with no member or call behind it. -/
theorem chain (operand : Operand kinds draft) (enough : 5 * kinds.length ≤ limit + 5)
    (ends : extendsOperand next = false) :
    Rereads (chain (readWithin limit)) kinds draft (next :: rest) :=
  rereads_chain (operand.reads limit (next :: rest) enough) operand.starts (by decide) ends

/-- An operand is read back with no operator in front of it. -/
theorem unary (operand : Operand kinds draft) (enough : 5 * kinds.length ≤ limit + 4)
    (ends : extendsOperand next = false) :
    Rereads (readWithin limit .unary) kinds draft (next :: rest) := by
  have := operand.starts.length_pos
  obtain ⟨inner, rfl⟩ : ∃ inner, limit = inner + 1 := ⟨limit - 1, by omega⟩
  apply Rereads.nested
  apply rereads_unary (operand.chain (by omega) ends) operand.starts _ ends
  exact fun _ => leadingOperator?_operandStart

/-- An operand is read back with no operator behind it. -/
theorem binary (operand : Operand kinds draft) (enough : 5 * kinds.length ≤ limit + 3)
    (ends : extendsOperand next = false) (noOperator : Operator.ofToken? next = none) (least : Nat)
    (allowIn : Bool) : Rereads (readWithin limit (.binary least allowIn)) kinds draft (next :: rest) := by
  have := operand.starts.length_pos
  obtain ⟨inner, rfl⟩ : ∃ inner, limit = inner + 1 := ⟨limit - 1, by omega⟩
  exact rereads_binary (operand.unary (by omega) ends) least allowIn noOperator

/-- An operand is read back with nothing assigned to it. -/
theorem assignment (operand : Operand kinds draft) (enough : 5 * kinds.length ≤ limit + 2)
    (ends : close ∈ expressionEnds) :
    Rereads (readWithin limit .assignment) kinds draft (.punct close :: rest) := by
  have := operand.starts.length_pos
  obtain ⟨inner, rfl⟩ : ∃ inner, limit = inner + 1 := ⟨limit - 1, by omega⟩
  have facts : ∀ close ∈ expressionEnds, extendsOperand (.punct close) = false ∧
      Operator.ofToken? (.punct close) = none ∧ close ≠ "?" ∧ close ≠ "=>" ∧
      assignmentOperator? (.punct close) = none := by decide
  obtain ⟨alone, noOperator, noMark, noArrow, noAssignment⟩ := facts close ends
  apply rereads_assignment
  · exact rereads_assignmentOrConditional (operand.binary (by omega) alone noOperator 1 true)
      (by simpa using noMark) noAssignment
  · intro depth
    exact operand.noArrow _ depth (by simpa using noArrow)

/-- An operand is read back as an expression, up to what ends it. -/
theorem expression (operand : Operand kinds draft) (enough : 5 * kinds.length ≤ limit + 2)
    (ends : close ∈ expressionEnds) (closes : close ≠ ",") :
    Rereads (expression (readWithin limit)) kinds draft (.punct close :: rest) :=
  rereads_sequence (operand.assignment enough ends) closes

/-- An operand is read back from between parentheses. -/
theorem parenthesized (operand : Operand kinds draft) (enough : 5 * kinds.length ≤ limit + 2) :
    Rereads (parenthesized (readWithin limit)) (parens kinds) draft rest :=
  rereads_parenthesized (operand.expression enough (by decide) (by decide))

end Operand

/-- What is written for an expression is read back in front of a closing parenthesis. -/
def Enclosed (draft : Draft) : Prop :=
  ∀ limit rest, 5 * (tokensOf draft).length ≤ limit →
    Rereads (expression (readWithin limit)) (tokensOf draft) draft (.punct ")" :: rest)

section Enclosing

variable {draft : Draft} {kinds : List TokenKind}

/-- An enclosed expression in parentheses is an operand. -/
theorem Enclosed.operand (enclosed : Enclosed draft) {fine : TokenKind → Prop}
    (balanced : Balanced fine (tokensOf draft)) : Operand (parens (tokensOf draft)) draft where
  starts := .cons rfl
  noArrow rest depth noArrow := by
    rw [balanced.atArrow_parens]
    exact startsWithArrow_written noArrow
  reads limit rest enough := by
    have size : (parens (tokensOf draft)).length = (tokensOf draft).length + 2 := by simp [parens]
    exact rereads_parenthesized (enclosed limit rest (by omega))

variable {rest : List TokenKind} {limit : Nat} {allowed : TokenKind → Bool}

/-- In parentheses, what is read back as an assignment is read back as an expression. -/
theorem climb_assignment
    (reads : Rereads (assignment (readWithin limit)) kinds draft (.punct ")" :: rest)) :
    Rereads (expression (readWithin (limit + 1))) kinds draft (.punct ")" :: rest) :=
  rereads_sequence reads (by decide)

variable (noArrow : ∀ depth, (Cursor.over (kinds ++ .punct ")" :: rest) depth).atArrow = false)

include noArrow

/-- In parentheses, what is read back where no arrow function starts is read back as an expression. -/
theorem climb_conditional
    (reads : Rereads (assignmentOrConditional (readWithin limit)) kinds draft (.punct ")" :: rest)) :
    Rereads (expression (readWithin (limit + 1))) kinds draft (.punct ")" :: rest) :=
  climb_assignment (rereads_assignment reads noArrow)

/-- In parentheses, operands joined by operators are read back as an expression. -/
theorem climb_binary
    (reads : Rereads (binary (readWithin limit) 1 true) kinds draft (.punct ")" :: rest)) :
    Rereads (expression (readWithin (limit + 2))) kinds draft (.punct ")" :: rest) :=
  climb_conditional noArrow (rereads_assignmentOrConditional reads (by decide) (by decide))

/-- In parentheses, an operand with operators in front is read back as an expression. -/
theorem climb_unary
    (reads : Rereads (unary (readWithin limit)) kinds draft (.punct ")" :: rest)) :
    Rereads (expression (readWithin (limit + 3))) kinds draft (.punct ")" :: rest) :=
  climb_binary noArrow (rereads_binary reads.nested 1 true (by decide))

/-- In parentheses, an operand with members and calls is read back as an expression. -/
theorem climb_chain
    (reads : Rereads (chain (readWithin limit)) kinds draft (.punct ")" :: rest))
    (starts : Starts kinds allowed)
    (noOperator : ∀ kind, allowed kind = true → leadingOperator? kind = none) :
    Rereads (expression (readWithin (limit + 3))) kinds draft (.punct ")" :: rest) :=
  climb_unary noArrow (rereads_unary reads starts noOperator (by decide))

/-- In parentheses, a primary expression is read back as an expression. -/
theorem climb_primary
    (reads : Rereads (primary (readWithin limit)) kinds draft (.punct ")" :: rest))
    (starts : Starts kinds allowed) (notNew : allowed (.word "new") = false)
    (noOperator : ∀ kind, allowed kind = true → leadingOperator? kind = none) :
    Rereads (expression (readWithin (limit + 3))) kinds draft (.punct ")" :: rest) :=
  climb_chain noArrow (rereads_chain reads starts notNew (by decide)) starts noOperator

end Enclosing

end SyntaxNav.Script

import SyntaxNav.Proofs.Script.MadeStatements
import SyntaxNav.Proofs.Script.Reading

/-! # Operators group their operands by precedence

Reading operands joined by operators gives a tree whose inner nodes are the operators. What is read is a
row of operands with operators between them, and the tree is a grouping of this row: read from left to
right it is the row again. A grouping is in order if every operator binds at most as tightly as those in
its operands; equal ones group to the left, except for powers, which group to the right. A row has only
one grouping in order (`Grouping.InOrder.unique`), so this says which tree is built.

The recursion for the right operand and the repetition for the left one share the work. What carries both
is the operator that comes next: it may take all that was read so far as its left operand
(`Ready`).
-/

namespace SyntaxNav.Script

namespace Operator

/-- Whether an operator may stand in the left operand of another one. -/
def TakesLeft (operator inner : Operator) : Prop :=
  if operator.text = "**" then operator.precedence < inner.precedence
  else operator.precedence ≤ inner.precedence

/-- Whether an operator may stand in the right operand of another one. -/
def TakesRight (operator inner : Operator) : Prop :=
  if operator.text = "**" then operator.precedence ≤ inner.precedence
  else operator.precedence < inner.precedence

/-- Whether an operator may be read where operators have at least a precedence and `in` may not be one of
them. -/
def Admitted (least : Nat) (allowIn : Bool) (operator : Operator) : Prop :=
  least ≤ operator.precedence ∧ (operator.text = "in" → allowIn = true)

variable {operator inner next : Operator} {kind : TokenKind}

/-- Powers are the operators that bind tightest. -/
theorem isPower_iff (isOperator : ofToken? kind = some operator) :
    operator.precedence ≤ 12 ∧ (operator.text = "**" ↔ operator.precedence = 12) := by
  obtain ⟨text, spelled, known⟩ := Option.bind_eq_some_iff.mp isOperator
  obtain ⟨precedence, known, same⟩ := Option.bind_eq_some_iff.mp known
  cases same
  unfold precedence? at known
  split at known <;> cases known <;> decide

private theorem takesRight_iff : operator.TakesRight inner ↔ operator.rightLeast ≤ inner.precedence := by
  simp only [TakesRight, rightLeast, isRightAssociative, decide_eq_true_eq]
  split
  · exact Iff.rfl
  · exact Nat.lt_iff_add_one_le

private theorem TakesLeft.precedence_le (takes : operator.TakesLeft inner) :
    operator.precedence ≤ inner.precedence := by
  unfold TakesLeft at takes
  split at takes <;> omega

private theorem TakesLeft.of_le (takes : next.TakesLeft operator)
    (tighter : operator.precedence ≤ inner.precedence) : next.TakesLeft inner := by
  unfold TakesLeft at takes ⊢
  split at takes
  · rw [if_pos ‹_›]
    omega
  · rw [if_neg ‹_›]
    omega

/-- An operator that the right operand of another one does not take may take the other one to its left. -/
theorem takesLeft_of_lt_rightLeast {otherKind : TokenKind} (isOperator : ofToken? kind = some operator)
    (isNext : ofToken? otherKind = some next) (looser : next.precedence < operator.rightLeast) :
    next.TakesLeft operator := by
  obtain ⟨atMost, isPower⟩ := isPower_iff isOperator
  obtain ⟨-, nextIsPower⟩ := isPower_iff isNext
  simp only [rightLeast, isRightAssociative, decide_eq_true_eq] at looser
  unfold TakesLeft
  split at looser <;> split <;> simp_all <;> omega

/-- No operator takes another one to its right that takes it to its left. -/
theorem not_takesRight_of_takesLeft {otherKind : TokenKind} (isOperator : ofToken? kind = some operator)
    (isInner : ofToken? otherKind = some inner) (takesLeft : inner.TakesLeft operator) :
    ¬ operator.TakesRight inner := by
  intro takesRight
  obtain ⟨-, isPower⟩ := isPower_iff isOperator
  obtain ⟨atMost, innerIsPower⟩ := isPower_iff isInner
  have order := takesLeft.precedence_le
  unfold TakesLeft at takesLeft
  unfold TakesRight at takesRight
  split at takesRight
  · have power := isPower.mp ‹_›
    rw [if_pos (innerIsPower.mpr (by omega))] at takesLeft
    omega
  · omega

private theorem precedence_le_rightLeast (operator : Operator) :
    operator.precedence ≤ operator.rightLeast := by
  unfold rightLeast
  split <;> omega

end Operator

/-- A part of a row of operands joined by operators. -/
inductive RowPart where
  /-- An operand, which is not looked into. -/
  | operand (draft : Draft)
  /-- An operator between two operands. -/
  | operator (operator : Operator)

/-- A row of operands joined by operators, put into groups of two. -/
inductive Grouping where
  /-- An operand, which is not looked into. -/
  | operand (draft : Draft)
  /-- An operator with the groups to its left and right. -/
  | operation (operator : Operator) (left right : Grouping)

namespace Grouping

def row : Grouping → List RowPart
  | operand draft => [.operand draft]
  | operation operator left right => left.row ++ .operator operator :: right.row

def operators : Grouping → List Operator
  | operand _ => []
  | operation operator left right => left.operators ++ operator :: right.operators

/-- A draft is built as a grouping says: a node for each operator, over what is built for its groups. -/
def Builds : Grouping → Draft → Prop
  | operand inner, draft => draft = inner
  | operation operator left right, draft => ∃ span leftDraft rightDraft,
      left.Builds leftDraft ∧ right.Builds rightDraft ∧
        draft = .branch ⟨operator.nodeKind, some span, some operator.text⟩
          [.single "left" (some leftDraft), .single "right" (some rightDraft)]

/-- Every operator may take those of its two groups into its operands. -/
def InOrder : Grouping → Prop
  | operand _ => True
  | operation operator left right => left.InOrder ∧ right.InOrder ∧
      (∀ inner ∈ left.operators, operator.TakesLeft inner) ∧
      ∀ inner ∈ right.operators, operator.TakesRight inner

private theorem mem_row_iff {grouping : Grouping} {operator : Operator} :
    .operator operator ∈ grouping.row ↔ operator ∈ grouping.operators := by
  induction grouping with
  | operand draft => simp [row, operators]
  | operation other left right ihLeft ihRight =>
    simp only [row, operators, List.mem_append, List.mem_cons, ihLeft, ihRight, RowPart.operator.injEq]

def KnownOperators (row : List RowPart) : Prop :=
  ∀ operator, .operator operator ∈ row → ∃ kind, Operator.ofToken? kind = some operator

variable {operator other : Operator} {left right otherLeft otherRight : Grouping}

/-- Two groupings of a row do not have their topmost operators in different places. -/
theorem InOrder.not_crossed (known : KnownOperators (operation operator left right).row)
    (inOrder : (operation operator left right).InOrder)
    (otherInOrder : (operation other otherLeft otherRight).InOrder) {between : List RowPart}
    (first : otherLeft.row = left.row ++ .operator operator :: between)
    (second : right.row = between ++ .operator other :: otherRight.row) : False := by
  have isLeft : operator ∈ otherLeft.operators := mem_row_iff.mp (by simp [first])
  have isRight : other ∈ right.operators := mem_row_iff.mp (by simp [second])
  obtain ⟨kind, isOperator⟩ := known operator (by simp [row])
  obtain ⟨otherKind, isOther⟩ := known other (by simp [row, second])
  obtain ⟨-, -, -, takesRight⟩ := inOrder
  obtain ⟨-, -, takesLeft, -⟩ := otherInOrder
  exact Operator.not_takesRight_of_takesLeft isOperator isOther (takesLeft operator isLeft)
    (takesRight other isRight)

/-- A row has no two groupings in order. -/
theorem InOrder.unique {first second : Grouping} (known : KnownOperators first.row)
    (inOrder : first.InOrder) (otherInOrder : second.InOrder) (same : first.row = second.row) :
    first = second := by
  induction first generalizing second with
  | operand draft =>
    cases second with
    | operand other => simpa [row] using same
    | operation other otherLeft otherRight =>
      have member : .operator other ∈ (operand draft).row := by rw [same]; simp [row]
      exact absurd (mem_row_iff.mp member) List.not_mem_nil
  | operation operator left right ihLeft ihRight =>
    cases second with
    | operand draft =>
      have member : .operator operator ∈ (operand draft).row := by rw [← same]; simp [row]
      exact absurd (mem_row_iff.mp member) List.not_mem_nil
    | operation other otherLeft otherRight =>
      have otherKnown : KnownOperators (operation other otherLeft otherRight).row := same ▸ known
      -- The topmost operators stand in the same place, or one of them lies in an operand of the other.
      obtain ⟨leftRow, rfl, rightRow⟩ : left.row = otherLeft.row ∧ operator = other ∧
          right.row = otherRight.row := by
        rcases List.append_eq_append_iff.mp same with ⟨between, leftRow, behind⟩ | ⟨between, leftRow, behind⟩
        · cases between with
          | nil => simp_all
          | cons part between =>
            obtain ⟨rfl, rightRow⟩ := List.cons.inj behind
            exact (not_crossed known inOrder otherInOrder leftRow rightRow).elim
        · cases between with
          | nil => simp_all
          | cons part between =>
            obtain ⟨rfl, rightRow⟩ := List.cons.inj behind
            exact (not_crossed otherKnown otherInOrder inOrder leftRow rightRow).elim
      have knownLeft : KnownOperators left.row := fun inner member =>
        known inner (List.mem_append_left _ member)
      have knownRight : KnownOperators right.row := fun inner member =>
        known inner (List.mem_append_right _ (List.mem_cons_of_mem _ member))
      rw [ihLeft knownLeft inOrder.1 otherInOrder.1 leftRow,
        ihRight knownRight inOrder.2.1 otherInOrder.2.1 rightRow]

end Grouping

/-- A row of operands joined by operators is read: each operand as one phrase, each operator as one token. -/
inductive RowRead : Cursor → List RowPart → Cursor → Prop
  | operand {cursor after : Cursor} {draft : Draft} {limit : Nat} :
      Phrase.readWithin (m := Reader) limit .unary cursor = .ok draft after →
        RowRead cursor [.operand draft] after
  | operator {cursor middle after : Cursor} {draft : Draft} {operator : Operator} {row : List RowPart}
      {limit : Nat} :
      Phrase.readWithin (m := Reader) limit .unary cursor = .ok draft middle →
      middle.next?.bind Operator.ofToken? = some operator → RowRead middle.advance row after →
      RowRead cursor (.operand draft :: .operator operator :: row) after

namespace RowRead

variable {cursor middle after : Cursor} {row others : List RowPart} {operator : Operator}

private theorem join (first : RowRead cursor row middle)
    (next : middle.next?.bind Operator.ofToken? = some operator)
    (second : RowRead middle.advance others after) :
    RowRead cursor (row ++ .operator operator :: others) after := by
  induction first with
  | operand read => exact .operator read next second
  | operator read between _ ih => exact .operator read between (ih next second)

private theorem knownOperators (read : RowRead cursor row after) : Grouping.KnownOperators row := by
  induction read with
  | operand => simp [Grouping.KnownOperators]
  | operator _ between _ ih =>
    obtain ⟨kind, -, isOperator⟩ := Option.bind_eq_some_iff.mp between
    intro other member
    simp only [List.mem_cons, reduceCtorEq, RowPart.operator.injEq, false_or] at member
    rcases member with rfl | member
    · exact ⟨kind, isOperator⟩
    · exact ih other member

end RowRead

/-- A draft was read as a grouping in order of a row with operators that may be read. -/
structure Grouped (least : Nat) (allowIn : Bool) (before : Cursor) (grouping : Grouping) (draft : Draft)
    (after : Cursor) : Prop where
  builds : grouping.Builds draft
  read : RowRead before grouping.row after
  inOrder : grouping.InOrder
  admitted : ∀ operator ∈ grouping.operators, operator.Admitted least allowIn

/-- The next token, if it is an operator, does not belong to what was read. -/
def EndsRow (least : Nat) (allowIn : Bool) (after : Cursor) : Prop :=
  ∀ operator, after.next?.bind Operator.ofToken? = some operator → ¬ operator.Admitted least allowIn

/-- The next token, if it is an operator, may take the grouping as its left operand. -/
def Ready (allowIn : Bool) (grouping : Grouping) (after : Cursor) : Prop :=
  ∀ operator, after.next?.bind Operator.ofToken? = some operator → operator.Admitted 0 allowIn →
    ∀ inner ∈ grouping.operators, operator.TakesLeft inner

section Step

variable {least : Nat} {allowIn : Bool} {before cursor after : Cursor} {left right : Grouping}
  {operator : Operator} {leftDraft rightDraft : Draft}

/-- A group with an operator and a further group behind it is a larger group. -/
theorem Grouped.operation (span : Span) (grouped : Grouped least allowIn before left leftDraft cursor)
    (ready : Ready allowIn left cursor)
    (next : cursor.next?.bind Operator.ofToken? = some operator)
    (admitted : operator.Admitted least allowIn)
    (behind : Grouped operator.rightLeast allowIn cursor.advance right rightDraft after) :
    Grouped least allowIn before (.operation operator left right)
      (.branch ⟨operator.nodeKind, some span, some operator.text⟩
        [.single "left" (some leftDraft), .single "right" (some rightDraft)]) after where
  builds := ⟨span, leftDraft, rightDraft, grouped.builds, behind.builds, rfl⟩
  read := grouped.read.join next behind.read
  inOrder := by
    refine ⟨grouped.inOrder, behind.inOrder, ?_, ?_⟩
    · exact ready operator next ⟨Nat.zero_le _, admitted.2⟩
    · exact fun inner member => Operator.takesRight_iff.mpr (behind.admitted inner member).1
  admitted := by
    have tighter := operator.precedence_le_rightLeast
    refine List.forall_mem_append.mpr ⟨grouped.admitted, List.forall_mem_cons.mpr ⟨admitted, ?_⟩⟩
    intro inner member
    obtain ⟨enough, allowed⟩ := behind.admitted inner member
    exact ⟨Nat.le_trans admitted.1 (Nat.le_trans tighter enough), allowed⟩

/-- What follows the larger group may take all of it as its left operand. -/
theorem Ready.operation (ready : Ready allowIn left cursor)
    (next : cursor.next?.bind Operator.ofToken? = some operator)
    (admitted : operator.Admitted least allowIn)
    (behind : Grouped operator.rightLeast allowIn cursor.advance right rightDraft after)
    (ends : EndsRow operator.rightLeast allowIn after) :
    Ready allowIn (.operation operator left right) after := by
  intro further nextBehind allowed
  obtain ⟨kind, -, isOperator⟩ := Option.bind_eq_some_iff.mp next
  obtain ⟨furtherKind, -, isFurther⟩ := Option.bind_eq_some_iff.mp nextBehind
  have looser : further.precedence < operator.rightLeast :=
    Nat.lt_of_not_le fun enough => ends further nextBehind ⟨enough, allowed.2⟩
  have takes := Operator.takesLeft_of_lt_rightLeast isOperator isFurther looser
  refine List.forall_mem_append.mpr ⟨?_, List.forall_mem_cons.mpr ⟨takes, ?_⟩⟩
  · intro inner member
    have above := ready operator next ⟨Nat.zero_le _, admitted.2⟩ inner member
    exact takes.of_le above.precedence_le
  · intro inner member
    have enough := (behind.admitted inner member).1
    exact takes.of_le (Nat.le_trans operator.precedence_le_rightLeast enough)

end Step

section Reading

variable {read : PhraseReader} {allowIn : Bool}

/-- What was read is a group, which the next operator may take as its left operand. -/
def Grows (least : Nat) (allowIn : Bool) (before : Cursor) (draft : Draft) (after : Cursor) : Prop :=
  ∃ grouping, Grouped least allowIn before grouping draft after ∧ Ready allowIn grouping after

/-- What was read is a group, and no operator that belongs to it follows. -/
def Ends (least : Nat) (allowIn : Bool) (before : Cursor) (draft : Draft) (after : Cursor) : Prop :=
  ∃ grouping, Grouped least allowIn before grouping draft after ∧ EndsRow least allowIn after

/-- A reader of operands joined by operators groups them in order, and reads all that it may read. -/
def GroupsBinary (read : PhraseReader) (allowIn : Bool) : Prop :=
  ∀ least cursor, Ensures (read (.binary least allowIn)) cursor (Ends least allowIn cursor)

/-- One more operator makes a larger group, or the row has ended. -/
theorem operation_groups (groups : GroupsBinary read allowIn) (start : Pos) {least : Nat}
    {before cursor : Cursor} {draft : Draft} (grows : Grows least allowIn before draft cursor) :
    Ensures (operation read start least allowIn draft) cursor fun extended after =>
      extended.elim (Ends least allowIn before draft after)
        fun larger => Grows least allowIn before larger after := by
  obtain ⟨left, grouped, ready⟩ := grows
  simp only [operation, ensures_bind, ensures_peek]
  split
  · rename_i none
    rw [ensures_pure]
    refine ⟨left, grouped, ?_⟩
    intro operator next
    cases none.symm.trans next
  · rename_i operator next
    simp only [ensures_ite, ensures_pure, ensures_bind, ensures_advance, ensures_node]
    constructor
    · intro refused
      refine ⟨left, grouped, ?_⟩
      intro other nextOther admitted
      cases next.symm.trans nextOther
      simp only [Bool.or_eq_true, Bool.and_eq_true, decide_eq_true_eq, Bool.not_eq_true'] at refused
      obtain ⟨enough, allowed⟩ := admitted
      rcases refused with looser | ⟨isIn, barred⟩
      · omega
      · rw [allowed isIn] at barred
        cases barred
    · intro accepted
      have admitted : operator.Admitted least allowIn := by
        simp only [Bool.or_eq_true, Bool.and_eq_true, decide_eq_true_eq, Bool.not_eq_true', not_or,
          not_and, Bool.not_eq_false] at accepted
        exact ⟨Nat.le_of_not_lt accepted.1, accepted.2⟩
      refine (groups _ _).mono ?_
      rintro rightDraft after ⟨right, behind, ends⟩
      exact ⟨_, grouped.operation _ ready next admitted behind, ready.operation next admitted behind ends⟩

/-- Operands joined by operators are grouped in order, and all operators that may be read are. -/
theorem readWithin_groups (limit : Nat) (allowIn : Bool) :
    GroupsBinary (Phrase.readWithin limit) allowIn := by
  induction limit with
  | zero => exact fun least cursor => ensures_fail .stalled
  | succ limit ih =>
    intro least cursor
    have production : Phrase.readWithin (m := Reader) (limit + 1) (.binary least allowIn) =
        binary (Phrase.readWithin limit) least allowIn := rfl
    simp only [production, binary, ensures_bind, ensures_here]
    intro first next read
    have alone : Grouped least allowIn cursor (.operand first) first next :=
      ⟨rfl, .operand read, trivial, List.forall_mem_nil _⟩
    have ready : Ready allowIn (.operand first) next := fun _ _ _ => List.forall_mem_nil _
    have grows : Grows least allowIn cursor first next := ⟨_, alone, ready⟩
    exact ensures_grow_until (fun _ _ => operation_groups ih cursor.start) grows

/-- Operands joined by operators are read as a row and made as its one grouping in order: an operator has
operators in its left operand that bind at least as tightly and in its right operand ones that bind more
tightly, the other way round if it is a power. All operators have at least the asked precedence, `in` is
among them only if it is allowed, and no further operator that might be read follows. -/
theorem binary_groups_by_precedence {limit least : Nat} {allowIn : Bool} {bench after : Workbench}
    {number : NodeId}
    (made : Phrase.readWithin (m := Maker) limit (.binary least allowIn) bench = .ok number after) :
    ∃ (draft : Draft) (grouping : Grouping),
      Phrase.readWithin (m := Reader) limit (.binary least allowIn) bench.cursor =
        .ok draft after.cursor ∧
      draft.plant makingOrder bench.builder = .ok (number, after.builder) ∧
      grouping.Builds draft ∧ RowRead bench.cursor grouping.row after.cursor ∧
      grouping.InOrder ∧
      (∀ operator ∈ grouping.operators,
        least ≤ operator.precedence ∧ (operator.text = "in" → allowIn = true)) ∧
      (∀ operator, after.cursor.next?.bind Operator.ofToken? = some operator →
        operator.precedence < least ∨ operator.text = "in" ∧ allowIn = false) ∧
      ∀ other : Grouping, other.InOrder → other.row = grouping.row → other = grouping := by
  obtain ⟨draft, read, planted⟩ := (readWithin_mirrors limit (.binary least allowIn) bench.builder).of_ok made
  obtain ⟨grouping, grouped, ends⟩ := readWithin_groups limit allowIn least _ draft _ read
  refine ⟨draft, grouping, read, planted, grouped.builds, grouped.read, grouped.inOrder, grouped.admitted,
    ?_, ?_⟩
  · intro operator next
    have refused := ends operator next
    rw [Operator.Admitted, Classical.not_and_iff_not_or_not, Nat.not_le, Classical.not_imp,
      Bool.not_eq_true] at refused
    exact refused
  · intro other inOrder same
    exact inOrder.unique (same ▸ grouped.read.knownOperators) grouped.inOrder same

/-- Powers and differences in front of an `in` that does not belong to them. -/
theorem powers_and_differences_are_grouped :
    ∃ number after draft, ∃ grouping : Grouping, Phrase.readWithin (m := Maker) 20 (.binary 1 false)
        ⟨.first (scan "a ** b ** c - d - e in f".toList).tokens ⟨1, 24⟩, .empty⟩ = .ok number after ∧
      after.cursor.next? = some (.word "in") ∧
      draft.plant makingOrder .empty = .ok (number, after.builder) ∧
      grouping.Builds draft ∧ grouping.InOrder := by
  have stops : EStateM.run' (Phrase.readWithin (m := Maker) 20 (.binary 1 false) >>= fun _ => peek)
      ⟨.first (scan "a ** b ** c - d - e in f".toList).tokens ⟨1, 24⟩, .empty⟩ =
        some (some (.word "in")) := by
    decide +kernel
  delta EStateM.run' at stops
  cases made : Phrase.readWithin (m := Maker) 20 (.binary 1 false)
      ⟨.first (scan "a ** b ** c - d - e in f".toList).tokens ⟨1, 24⟩, .empty⟩ with
  | ok number after =>
    simp only [EStateM.run, bind, EStateM.bind, made] at stops
    obtain ⟨draft, grouping, -, planted, builds, -, inOrder, -⟩ := binary_groups_by_precedence made
    exact ⟨number, after, draft, grouping, rfl, Option.some.inj stops, planted, builds, inOrder⟩
  | error stop after =>
    simp only [EStateM.run, bind, EStateM.bind, made] at stops
    cases stops

end Reading

end SyntaxNav.Script

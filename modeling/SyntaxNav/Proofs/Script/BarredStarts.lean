import SyntaxNav.Proofs.Script.Reading

/-! # Where no phrase starts

No statement and no expression starts at the end of the tokens, and none starts with the word `else`. So
what follows a conditional statement is never taken for something else than its alternative.
-/

namespace SyntaxNav.Script

/-- There is no next token, or it is the word for an alternative. -/
def Cursor.Barred (cursor : Cursor) : Prop :=
  cursor.next? = none ∨ cursor.next? = some (.word "else")

/-- No phrase starts at the end of the tokens. -/
theorem Cursor.barred_of_nil {cursor : Cursor} (nothing : cursor.rest = []) : cursor.Barred :=
  .inl (by rw [next?, nothing]; rfl)

private theorem Cursor.Barred.cases {cursor : Cursor} (barred : cursor.Barred) :
    cursor.rest = [] ∨ ∃ token rest, cursor.rest = token :: rest ∧ token.kind = .word "else" := by
  rcases barred with next | next
  · exact .inl (by simpa [next?] using next)
  · obtain ⟨token, head, kind⟩ := Option.map_eq_some_iff.mp next
    obtain ⟨rest, ahead⟩ := List.head?_eq_some_iff.mp head
    exact .inr ⟨token, rest, ahead, kind⟩

variable {α β : Type}

/-- A reader fails where no phrase starts. -/
def Stuck (reader : Reader α) : Prop :=
  ∀ cursor : Cursor, cursor.Barred → Ensures reader cursor fun _ _ => False

/-- A reader that is stuck keeps all behind it from being read. -/
theorem Stuck.bind {reader : Reader α} (stuck : Stuck reader) (next : α → Reader β) :
    Stuck (reader >>= next) := by
  intro cursor barred
  rw [ensures_bind]
  exact (stuck cursor barred).mono fun _ _ => False.elim

private theorem Stuck.behind_here {next : Pos → Reader α} (stuck : ∀ start, Stuck (next start)) :
    Stuck (here >>= next) := by
  intro cursor barred
  rw [ensures_bind, ensures_here]
  exact stuck cursor.start cursor barred

/-- A stuck reader is stuck one level deeper. -/
theorem Stuck.nested {reader : Reader α} (stuck : Stuck reader) : Stuck (nested reader) :=
  fun cursor barred => ensures_nested (stuck { cursor with depth := cursor.depth + 1 } barred)

/-- A sequence is stuck if its first item is. -/
theorem Stuck.sequence {item : Reader Draft} (stuck : Stuck item) : Stuck (sequence item) :=
  .behind_here fun _ => (stuck.bind _).bind _

variable {read : PhraseReader}

private theorem primary_stuck : Stuck (primary read) := by
  intro cursor barred
  simp only [primary, ensures_bind, ensures_get]
  rcases barred.cases with nothing | ⟨token, rest, ahead, kind⟩
  · simp only [nothing]
    exact ensures_failExpected _
  · simp only [ahead, kind]
    exact ensures_failExpected _

private theorem chain_stuck : Stuck (chain read) := by
  refine .behind_here fun start cursor barred => ?_
  have notNew : cursor.atWord "new" = false := by
    rcases barred with next | next <;> rw [Cursor.atWord, next] <;> rfl
  rw [ensures_bind, ensures_atWord, notNew]
  exact primary_stuck.bind _ cursor barred

private theorem unary_stuck : Stuck (unary read) := by
  refine .behind_here fun start cursor barred => ?_
  have noOperator : cursor.next?.bind leadingOperator? = none := by
    rcases barred with next | next <;> rw [next] <;> rfl
  rw [ensures_bind, ensures_peek, noOperator]
  exact Stuck.behind_here (fun _ => chain_stuck.bind _) cursor barred

private theorem assignmentOrConditional_stuck (tests : Stuck (read (.binary 1 true))) :
    Stuck (assignmentOrConditional read) :=
  .behind_here fun _ => (Stuck.behind_here fun _ => tests.bind _).bind _

private theorem assignment_stuck (tests : Stuck (read (.binary 1 true))) : Stuck (assignment read) := by
  intro cursor barred
  have noArrow : cursor.atArrow = false := by
    unfold Cursor.atArrow
    rcases barred.cases with nothing | ⟨token, rest, ahead, kind⟩
    · rw [nothing]
    · simp only [ahead, kind]
      rfl
  rw [assignment, ensures_bind, ensures_get, noArrow]
  exact assignmentOrConditional_stuck tests cursor barred

private theorem statement_stuck (expressions : Stuck (read .assignment)) : Stuck (statement read) := by
  intro cursor barred
  rw [statement, ensures_bind, ensures_here, ensures_bind, ensures_peek]
  rcases barred with next | next
  · rw [next]
    exact ensures_failExpected _
  · rw [next]
    exact Stuck.behind_here (fun _ => expressions.sequence.bind _) cursor (.inr next)

/-- No phrase but a construction, which is only read from its word on, can be read where none starts. -/
theorem readWithin_stuck (limit : Nat) (phrase : Phrase) (other : phrase ≠ .construction) :
    Stuck (Phrase.readWithin limit phrase) := by
  induction limit generalizing phrase with
  | zero => exact fun _ _ => ensures_fail _
  | succ limit ih =>
    cases phrase with
    | statement => exact (statement_stuck (ih .assignment nofun)).nested
    | assignment => exact assignment_stuck (ih (.binary 1 true) nofun)
    | binary least allowIn => exact .behind_here fun _ => (ih .unary nofun).bind _
    | unary => exact unary_stuck.nested
    | construction => exact absurd rfl other

end SyntaxNav.Script

import SyntaxNav.Proofs.Text.Offsets

/-! # What a deletion does to positions

Deleting a span takes its text out and leaves the rest as it is. Positions up to the span stay where they
are. Positions behind it are drawn up: those on the line on which the span ends come to stand on the line on
which it starts, and those on later lines keep their column.
-/

namespace SyntaxNav

/-- Where a position behind a span goes when the span is deleted. -/
def Span.drawUp (span : Span) (pos : Pos) : Pos :=
  if pos.line = span.stop.line then
    ⟨span.start.line, span.start.column + pos.column - span.stop.column⟩
  else
    ⟨pos.line - (span.stop.line - span.start.line), pos.column⟩

/-- A text leads equally far from any two positions: along the line, or to the same column of a later
line. -/
theorem Pos.after_alike (text : List Char) (pos other : Pos) :
    (∃ columns, pos.after text = ⟨pos.line, pos.column + columns⟩ ∧
        other.after text = ⟨other.line, other.column + columns⟩) ∨
      ∃ lines column, pos.after text = ⟨pos.line + 1 + lines, column⟩ ∧
        other.after text = ⟨other.line + 1 + lines, column⟩ := by
  induction text generalizing pos other with
  | nil => exact .inl ⟨0, rfl, rfl⟩
  | cons c text ih =>
    have further := ih (pos.next c) (other.next c)
    simp only [after_cons]
    by_cases newline : c = '\n'
    · simp only [next, if_pos newline, Nat.zero_add] at further ⊢
      rcases further with ⟨columns, first, second⟩ | ⟨lines, column, first, second⟩
      · exact .inr ⟨0, columns, first, second⟩
      · refine .inr ⟨1 + lines, column, ?_, ?_⟩
        · rw [first, Nat.add_assoc _ 1]
        · rw [second, Nat.add_assoc _ 1]
    · simp only [next, if_neg newline] at further ⊢
      rcases further with ⟨columns, first, second⟩ | later
      · refine .inl ⟨1 + columns, ?_, ?_⟩
        · rw [first, Nat.add_assoc]
        · rw [second, Nat.add_assoc]
      · exact .inr later

/-- What a text leads to from the end of a span is drawn up to what it leads to from the start. -/
theorem Span.drawUp_after (span : Span) (order : span.start ≤ span.stop) (text : List Char) :
    span.drawUp (span.stop.after text) = span.start.after text := by
  have lines : span.start.line ≤ span.stop.line := by
    rcases order with earlier | ⟨same, -⟩
    · exact Nat.le_of_lt earlier
    · exact Nat.le_of_eq same
  rcases Pos.after_alike text span.start span.stop with ⟨columns, first, second⟩ |
    ⟨later, column, first, second⟩
  · rw [drawUp, first, second, if_pos rfl, Pos.mk.injEq]
    exact ⟨rfl, by simp only; omega⟩
  · rw [drawUp, first, second, if_neg (by simp only; omega), Pos.mk.injEq]
    exact ⟨by simp only; omega, rfl⟩

section Parts

variable {kept removed rest : List Char} {pos : Pos} {offset : Nat}

/-- A position up to the deleted part stays a position with the same offset. -/
theorem Pos.offset?_of_kept (found : pos.offset? (kept ++ removed ++ rest) = some offset)
    (before : offset ≤ Text.byteLength kept) : pos.offset? (kept ++ rest) = some offset := by
  obtain ⟨front, isFront, rfl, rfl⟩ := offset?_eq_some_iff.mp found
  have isKept : kept <+: kept ++ removed ++ rest :=
    (List.prefix_append kept removed).trans (List.prefix_append _ rest)
  have reaches := (Text.byteLength_le_iff isFront isKept).mp before
  have within := prefix_of_after_le .origin isFront isKept reaches
  exact offset?_of_prefix (within.trans (List.prefix_append kept rest))

/-- A position behind the deleted part is drawn up by the bytes of that part. -/
theorem Pos.offset?_drawUp (found : pos.offset? (kept ++ removed ++ rest) = some offset)
    (behind : Text.byteLength (kept ++ removed) ≤ offset) :
    origin.after (kept ++ removed) ≤ pos ∧
      ((⟨origin.after kept, origin.after (kept ++ removed)⟩ : Span).drawUp pos).offset? (kept ++ rest) =
        some (offset - Text.byteLength removed) := by
  obtain ⟨front, isFront, rfl, rfl⟩ := offset?_eq_some_iff.mp found
  have isPassed : kept ++ removed <+: kept ++ removed ++ rest := List.prefix_append _ rest
  have reaches := (Text.byteLength_le_iff isPassed isFront).mp behind
  obtain ⟨more, rfl⟩ := prefix_of_after_le .origin isPassed isFront reaches
  refine ⟨reaches, ?_⟩
  have order : origin.after kept ≤ origin.after (kept ++ removed) := by
    rw [after_append]
    exact le_after _ removed
  have target := Span.drawUp_after ⟨origin.after kept, origin.after (kept ++ removed)⟩ order more
  rw [after_append origin (kept ++ removed), target, ← after_append]
  have isMore : more <+: rest := (List.prefix_append_right_inj _).mp isFront
  have moved : kept ++ more <+: kept ++ rest := (List.prefix_append_right_inj kept).mpr isMore
  rw [Pos.offset?_of_prefix moved]
  simp only [Text.byteLength_append, Option.some.injEq]
  omega

end Parts

/-- A span is deleted only if it has a range. -/
theorem Span.deleteFrom?_eq_none {span : Span} {text : List Char} (noRange : span.range? text = none) :
    span.deleteFrom? text = none := by
  unfold range? at noRange
  unfold deleteFrom?
  simp only [Pos.offset?, Option.bind_eq_bind] at noRange ⊢
  cases start : span.start.before? text with
  | none => rfl
  | some kept =>
    cases stop : span.stop.before? text with
    | none => rfl
    | some passed =>
      rw [start, stop] at noRange
      simpa using noRange

/-- Deleting a span whose ends lie in a text, in order, joins what stands before and behind it. A position up
to the span keeps its offset. A position behind the span goes to the line of its start, as many columns
behind it as it was behind the stop, if it was on the line of the stop, and else up by the lines that are
gone; its offset is less by the bytes that are gone. Any other span cannot be deleted. -/
theorem deletion_draws_up (span : Span) (text : List Char) :
    (∀ start stop, span.start.offset? text = some start → span.stop.offset? text = some stop →
      start ≤ stop → ∃ kept removed rest, text = kept ++ removed ++ rest ∧
        Text.byteLength kept = start ∧ Text.byteLength (kept ++ removed) = stop ∧
        span.deleteFrom? text = some (kept ++ rest) ∧
        (∀ pos : Pos, ∀ offset, pos.offset? text = some offset → offset ≤ start →
          pos.offset? (kept ++ rest) = some offset) ∧
        ∀ pos : Pos, ∀ offset, pos.offset? text = some offset → stop ≤ offset → span.stop ≤ pos ∧
          (span.drawUp pos).offset? (kept ++ rest) = some (offset - (stop - start))) ∧
    ((span.start.offset? text = none ∨ span.stop.offset? text = none ∨
        ∃ start stop, span.start.offset? text = some start ∧ span.stop.offset? text = some stop ∧
          stop < start) → span.deleteFrom? text = none) := by
  obtain ⟨first, last⟩ := span
  constructor
  · intro start stop foundStart foundStop order
    obtain ⟨kept, isKept, rfl, rfl⟩ := Pos.offset?_eq_some_iff.mp foundStart
    obtain ⟨passed, isPassed, rfl, rfl⟩ := Pos.offset?_eq_some_iff.mp foundStop
    have reaches := (Text.byteLength_le_iff isKept isPassed).mp order
    obtain ⟨removed, rfl⟩ := Pos.prefix_of_after_le .origin isKept isPassed reaches
    obtain ⟨rest, rfl⟩ := isPassed
    refine ⟨kept, removed, rest, rfl, rfl, rfl, Span.deleteFrom?_of_prefix kept removed rest, ?_, ?_⟩
    · exact fun pos offset => Pos.offset?_of_kept
    · intro pos offset found behind
      rw [Text.byteLength_append, Nat.add_sub_cancel_left]
      exact Pos.offset?_drawUp found behind
  · intro outside
    apply Span.deleteFrom?_eq_none
    rw [Option.eq_none_iff_forall_not_mem]
    rintro ⟨start, stop⟩ range
    obtain ⟨foundStart, foundStop, order⟩ := Span.range?_eq_some_iff.mp range
    rcases outside with missing | missing | ⟨_, _, otherStart, otherStop, reversed⟩
    · cases foundStart.symm.trans missing
    · cases foundStop.symm.trans missing
    · have reversed := mt (Pos.le_iff_offset_le otherStart otherStop).mp (Nat.not_le.mpr reversed)
      exact reversed order

end SyntaxNav

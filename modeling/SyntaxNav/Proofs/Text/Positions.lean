import Mathlib.Order.Defs.LinearOrder
import SyntaxNav.Text.Span

/-! # Positions and the text before them

Positions are linearly ordered, and reading characters only moves forward. `Pos.before?` undoes
`Pos.after`: the part of a text before the position that a prefix reaches is that prefix. So spans
whose ends are reached by two prefixes, one of the other, can be deleted, and what stands before the
span stays where it was.

`SpansBetween` says that spans follow one another between two positions.
-/

namespace SyntaxNav

namespace Pos

/-- Positions are compared by line, and in a line by column. -/
theorem lt_def (p q : Pos) : p < q ↔ p.line < q.line ∨ p.line = q.line ∧ p.column < q.column := Iff.rfl

theorem le_def (p q : Pos) : p ≤ q ↔ p.line < q.line ∨ p.line = q.line ∧ p.column ≤ q.column := Iff.rfl

instance : LinearOrder Pos where
  le_refl p := by rw [le_def]; omega
  le_trans p q r := by simp only [le_def]; omega
  le_antisymm p q := by
    obtain ⟨line, column⟩ := p
    obtain ⟨line', column'⟩ := q
    simp only [le_def, mk.injEq]
    omega
  le_total p q := by simp only [le_def]; omega
  lt_iff_le_not_ge p q := by simp only [le_def, lt_def]; omega
  toDecidableLE := inferInstance
  toDecidableEq := inferInstance
  toDecidableLT := inferInstance

private theorem lt_next (pos : Pos) (c : Char) : pos < pos.next c := by
  unfold next
  split
  · exact .inl (Nat.lt_succ_self _)
  · exact .inr ⟨rfl, Nat.lt_succ_self _⟩

/-- Reading goes forward. -/
theorem le_after (pos : Pos) (text : List Char) : pos ≤ pos.after text := by
  induction text generalizing pos with
  | nil => exact le_refl pos
  | cons c rest ih => exact le_trans (le_of_lt (pos.lt_next c)) (ih (pos.next c))

/-- Reading at least one character goes further forward. -/
theorem lt_after (pos : Pos) {text : List Char} (someText : text ≠ []) : pos < pos.after text := by
  obtain ⟨c, rest, rfl⟩ := List.exists_cons_of_ne_nil someText
  exact lt_of_lt_of_le (pos.lt_next c) (le_after _ rest)

/-- Of two prefixes of a text, the one that reaches no further is a prefix of the other. -/
theorem prefix_of_after_le {first second text : List Char} (pos : Pos) (left : first <+: text)
    (right : second <+: text) (order : pos.after first ≤ pos.after second) : first <+: second := by
  rcases List.prefix_or_prefix_of_prefix left right with shorter | ⟨more, rfl⟩
  · exact shorter
  · rw [after_append] at order
    cases more with
    | nil => exact ⟨[], by simp⟩
    | cons c rest => exact absurd (lt_after _ (List.cons_ne_nil c rest)) (not_lt.mpr order)

/-- A position is reached by reading the front of a text. -/
def Reached (text : List Char) (pos : Pos) : Prop :=
  ∃ front, front <+: text ∧ pos = origin.after front

end Pos

namespace Text

variable {front text : List Char} {mark : Char}

/-- The text before a mark is what stands in front of its first occurrence. -/
theorem takeWhile_until (absent : mark ∉ front) (rest : List Char) :
    (front ++ mark :: rest).takeWhile (· ≠ mark) = front := by
  rw [List.takeWhile_append_of_pos (fun c member => by simpa using ne_of_mem_of_not_mem member absent),
    List.takeWhile_cons_of_neg (by simp), List.append_nil]

/-- What is left behind that text starts with the mark. -/
theorem dropWhile_until (absent : mark ∉ front) (rest : List Char) :
    (front ++ mark :: rest).dropWhile (· ≠ mark) = mark :: rest := by
  rw [List.dropWhile_append_of_pos (fun c member => by simpa using ne_of_mem_of_not_mem member absent),
    List.dropWhile_cons_of_neg (by simp)]

theorem not_mem_takeWhile_until (mark : Char) (text : List Char) :
    mark ∉ text.takeWhile (· ≠ mark) := by
  intro member
  simpa using List.all_eq_true.mp List.all_takeWhile _ member

/-- What is found by looking for a mark starts with the mark, and follows what stands before it. -/
theorem parts_of_dropWhile_until {c : Char} {rest : List Char}
    (found : text.dropWhile (· ≠ mark) = c :: rest) :
    c = mark ∧ text = text.takeWhile (· ≠ mark) ++ mark :: rest := by
  obtain rfl : c = mark := by
    have stops := List.head?_dropWhile_not (· ≠ mark) text
    rw [found] at stops
    simpa using stops
  exact ⟨rfl, by rw [← found, List.takeWhile_append_dropWhile]⟩

theorem byteLength_append (first second : List Char) :
    byteLength (first ++ second) = byteLength first + byteLength second := by
  induction first with
  | nil => exact (Nat.zero_add _).symm
  | cons c rest ih =>
    simp only [byteLength, List.cons_append, List.foldr_cons] at ih ⊢
    rw [ih, Nat.add_assoc]

/-- A text is the lines before its last line, and that line. Splitting after the lines finds the line
again, whatever follows it, and the position behind the text counts the lines and the line. The front
of the first line may have been read before. -/
theorem splitLines_append (plain : '\n' ∉ front) (kept rest : List Char) (line : Nat) :
    ∃ count lines last, front ++ kept = lines ++ last ∧ '\n' ∉ last ∧
      splitLines count (front ++ kept ++ rest) = some (lines, last ++ rest) ∧
      (⟨line, front.length⟩ : Pos).after kept = ⟨line + count, last.length⟩ := by
  induction kept generalizing front line with
  | nil => exact ⟨0, [], front, List.append_nil _, plain, by simp [splitLines], rfl⟩
  | cons c kept ih =>
    by_cases newline : c = '\n'
    · subst newline
      obtain ⟨count, lines, last, whole, plainLast, split, reached⟩ := ih List.not_mem_nil (line + 1)
      refine ⟨count + 1, front ++ '\n' :: lines, last, ?_, plainLast, ?_, ?_⟩
      · rw [List.append_assoc, List.cons_append, ← whole, List.nil_append]
      · rw [List.nil_append] at split
        rw [List.append_assoc, List.cons_append, splitLines, dropWhile_until plain,
          takeWhile_until plain]
        simp only [split, Option.map_some]
      · simpa [Pos.next, Nat.add_assoc, Nat.add_comm 1] using reached
    · have plainFront : '\n' ∉ front ++ [c] := by
        simp [plain, Ne.symm newline]
      obtain ⟨count, lines, last, whole, plainLast, split, reached⟩ := ih plainFront line
      refine ⟨count, lines, last, by simpa using whole, plainLast, by simpa using split, ?_⟩
      simpa [Pos.next, newline] using reached

end Text

namespace Pos

/-- What stands before the position that a prefix of a text reaches is that prefix. -/
theorem before?_after (kept rest : List Char) :
    (origin.after kept).before? (kept ++ rest) = some kept := by
  obtain ⟨count, lines, last, whole, plain, split, reached⟩ :=
    Text.splitLines_append List.not_mem_nil kept rest 1
  rw [List.nil_append] at whole split
  have line : (last ++ rest).takeWhile (· ≠ '\n') = last ++ rest.takeWhile (· ≠ '\n') :=
    List.takeWhile_append_of_pos fun c member => by simpa using ne_of_mem_of_not_mem member plain
  have position : origin.after kept = ⟨count + 1, last.length⟩ := by
    rw [Nat.add_comm]
    exact reached
  simp only [before?, position, split, Option.bind_eq_bind, Option.bind_some, line,
    List.length_append, Nat.le_add_right, ↓reduceIte, List.take_left]
  rw [← whole]

/-- A front of a text is found again from the position behind it. -/
theorem before?_of_prefix {kept text : List Char} (isPrefix : kept <+: text) :
    (origin.after kept).before? text = some kept := by
  obtain ⟨rest, rfl⟩ := isPrefix
  exact before?_after kept rest

/-- The offset of the position behind a front of a text is the length of that front. -/
theorem offset?_of_prefix {kept text : List Char} (isPrefix : kept <+: text) :
    (origin.after kept).offset? text = some (Text.byteLength kept) := by
  rw [offset?, before?_of_prefix isPrefix, Option.map_some]

end Pos

/-- A span between the ends of two prefixes is deleted by keeping the shorter one and dropping the
longer one. -/
theorem Span.deleteFrom?_of_prefix (kept removed rest : List Char) :
    (⟨Pos.origin.after kept, Pos.origin.after (kept ++ removed)⟩ : Span).deleteFrom?
      (kept ++ removed ++ rest) = some (kept ++ rest) := by
  have start : (Pos.origin.after kept).before? (kept ++ removed ++ rest) = some kept :=
    Pos.before?_of_prefix ((List.prefix_append kept removed).trans (List.prefix_append _ rest))
  have stop := Pos.before?_after (kept ++ removed) rest
  simp only [deleteFrom?, start, stop, Option.bind_eq_bind, Option.bind_some, Text.byteLength_append,
    Nat.le_add_right, ↓reduceIte, List.drop_left]

/-- A span in order whose ends are reached is the place of a part of the text. -/
theorem Span.parts_of_reached {span : Span} {text : List Char} (start : span.start.Reached text)
    (stop : span.stop.Reached text) (order : span.start ≤ span.stop) :
    ∃ kept inside rest, text = kept ++ inside ++ rest ∧
      span = ⟨Pos.origin.after kept, Pos.origin.after (kept ++ inside)⟩ := by
  obtain ⟨start, stop⟩ := span
  obtain ⟨kept, keptFront, rfl⟩ := start
  obtain ⟨passed, passedFront, rfl⟩ := stop
  obtain ⟨inside, rfl⟩ := Pos.prefix_of_after_le .origin keptFront passedFront order
  obtain ⟨rest, rfl⟩ := passedFront
  exact ⟨kept, inside, rest, rfl, rfl⟩

/-- Spans lie between two positions one after another, none of them empty. -/
def SpansBetween (first : Pos) : List Span → Pos → Prop
  | [], last => first ≤ last
  | span :: spans, last =>
    first ≤ span.start ∧ span.start < span.stop ∧ SpansBetween span.stop spans last

namespace SpansBetween

variable {first last : Pos} {spans front back : List Span}

@[simp] theorem nil_iff : SpansBetween first [] last ↔ first ≤ last := Iff.rfl

@[simp] theorem cons_iff {span : Span} : SpansBetween first (span :: spans) last ↔
    first ≤ span.start ∧ span.start < span.stop ∧ SpansBetween span.stop spans last := Iff.rfl

/-- Spans stay between two positions if the first one moves back. -/
theorem start_le {first' : Pos} (order : first' ≤ first) (between : SpansBetween first spans last) :
    SpansBetween first' spans last := by
  cases spans with
  | nil => exact le_trans order (nil_iff.mp between)
  | cons span spans =>
    obtain ⟨before, inside, behind⟩ := cons_iff.mp between
    exact cons_iff.mpr ⟨le_trans order before, inside, behind⟩

private theorem le (between : SpansBetween first spans last) : first ≤ last := by
  induction spans generalizing first with
  | nil => exact nil_iff.mp between
  | cons span spans ih =>
    obtain ⟨before, inside, behind⟩ := cons_iff.mp between
    exact le_trans before (le_trans (le_of_lt inside) (ih behind))

/-- Spans are in order just if two parts of them are, with some position between the parts. -/
theorem append_iff : SpansBetween first (front ++ back) last ↔
    ∃ middle, SpansBetween first front middle ∧ SpansBetween middle back last := by
  induction front generalizing first with
  | nil =>
    constructor
    · exact fun between => ⟨first, le_refl first, between⟩
    · rintro ⟨middle, before, between⟩
      exact between.start_le (nil_iff.mp before)
  | cons span front ih =>
    simp only [List.cons_append, cons_iff, ih, exists_and_left, and_assoc]

/-- Each span is not empty and lies between the two positions. -/
theorem enclosed (between : SpansBetween first spans last) :
    ∀ span ∈ spans, first ≤ span.start ∧ span.start < span.stop ∧ span.stop ≤ last := by
  induction spans generalizing first with
  | nil => exact nofun
  | cons span spans ih =>
    obtain ⟨before, inside, behind⟩ := cons_iff.mp between
    refine List.forall_mem_cons.mpr ⟨⟨before, inside, behind.le⟩, ?_⟩
    intro other member
    exact ih (behind.start_le (le_trans before (le_of_lt inside))) other member

/-- Spans in order do not overlap. -/
theorem pairwise (between : SpansBetween first spans last) :
    spans.Pairwise fun left right => left.stop ≤ right.start := by
  induction spans generalizing first with
  | nil => exact .nil
  | cons span spans ih =>
    obtain ⟨-, -, behind⟩ := cons_iff.mp between
    exact .cons (fun other member => (behind.enclosed other member).1) (ih behind)

/-- Spans follow one another between the start of the first and the stop of the last of them. -/
theorem tighten {leftmost rightmost : Span} (between : SpansBetween first spans last)
    (head : spans.head? = some leftmost) (final : spans.getLast? = some rightmost) :
    SpansBetween leftmost.start spans rightmost.stop ∧ first ≤ leftmost.start ∧
      leftmost.start < rightmost.stop ∧ rightmost.stop ≤ last := by
  obtain ⟨init, rfl⟩ := List.getLast?_eq_some_iff.mp final
  obtain ⟨middle, front, back⟩ := append_iff.mp between
  obtain ⟨before, inside, behind⟩ := cons_iff.mp back
  have closed : SpansBetween first (init ++ [rightmost]) rightmost.stop :=
    append_iff.mpr ⟨middle, front, cons_iff.mpr ⟨before, inside, le_refl _⟩⟩
  obtain ⟨rest, whole⟩ := List.head?_eq_some_iff.mp head
  rw [whole] at closed ⊢
  obtain ⟨startsBehind, nonempty, rest⟩ := cons_iff.mp closed
  exact ⟨cons_iff.mpr ⟨le_refl _, nonempty, rest⟩, startsBehind, lt_of_lt_of_le nonempty rest.le,
    nil_iff.mp behind⟩

end SpansBetween

end SyntaxNav

import SyntaxNav.Proofs.Text.Positions

/-! # Positions and byte offsets

A byte offset into a source lies between two characters or inside one. Those between characters are the
boundaries of the source, and each is reached by reading the source from its start. Reading counts lines
and columns forward, while `Pos.offset?` looks for newlines and then walks along one line. The two are
inverse to each other, and both keep the order.
-/

namespace SyntaxNav

section Reading

variable {text lines rest kept first second : List Char} {pos : Pos}

/-- A text without newlines moves along the line. -/
theorem Pos.after_of_plain (plain : '\n' ∉ text) (pos : Pos) :
    pos.after text = ⟨pos.line, pos.column + text.length⟩ := by
  induction text generalizing pos with
  | nil => rfl
  | cons c text ih =>
    obtain ⟨noNewline, plainRest⟩ := not_or.mp (mt List.mem_cons.mpr plain)
    rw [after_cons, ih plainRest, next, if_neg (Ne.symm noNewline), List.length_cons, Nat.add_assoc,
      Nat.add_comm 1]

/-- Reading so many lines leads to the start of the line behind them. -/
theorem Text.parts_of_splitLines {count : Nat} (split : splitLines count text = some (lines, rest))
    (pos : Pos) (lineStart : pos.column = 0) :
    text = lines ++ rest ∧ pos.after lines = ⟨pos.line + count, 0⟩ := by
  induction count generalizing text lines pos with
  | zero =>
    cases split
    obtain ⟨line, column⟩ := pos
    cases lineStart
    exact ⟨rfl, rfl⟩
  | succ count ih =>
    rw [splitLines] at split
    split at split
    · cases split
    · rename_i newline behind found
      obtain ⟨⟨later, last⟩, splitLater, same⟩ := Option.map_eq_some_iff.mp split
      cases same
      obtain ⟨rfl, whole⟩ := parts_of_dropWhile_until found
      obtain ⟨rfl, reached⟩ := ih splitLater ⟨pos.line + 1, 0⟩ rfl
      constructor
      · rw [List.append_assoc, List.cons_append, ← whole]
      · rw [Pos.after_append, Pos.after_of_plain (not_mem_takeWhile_until _ text), Pos.after_cons,
          Pos.next, if_pos rfl, reached, Nat.add_assoc, Nat.add_comm 1]

/-- What stands before a position in a text is the part of the text that leads to the position. -/
theorem Pos.before?_eq_some_iff :
    pos.before? text = some kept ↔ kept <+: text ∧ origin.after kept = pos := by
  constructor
  · intro found
    obtain ⟨line, column⟩ := pos
    cases line with
    | zero => cases found
    | succ earlier =>
      simp only [before?, Option.bind_eq_bind] at found
      obtain ⟨⟨lines, rest⟩, split, found⟩ := Option.bind_eq_some_iff.mp found
      obtain ⟨fits, same⟩ := Option.ite_none_right_eq_some.mp found
      cases same
      obtain ⟨rfl, reached⟩ := Text.parts_of_splitLines split origin rfl
      have inLine : (rest.takeWhile (· ≠ '\n')).take column <+: rest :=
        (List.take_prefix _ _).trans (List.takeWhile_prefix _)
      have plain : '\n' ∉ (rest.takeWhile (· ≠ '\n')).take column := fun member =>
        Text.not_mem_takeWhile_until _ rest (List.mem_of_mem_take member)
      refine ⟨(List.prefix_append_right_inj lines).mpr inLine, ?_⟩
      rw [after_append, reached, after_of_plain plain, List.length_take_of_le fits, Nat.zero_add,
        origin, Nat.add_comm]
  · rintro ⟨isPrefix, rfl⟩
    exact before?_of_prefix isPrefix

/-- A position has an offset just if it is reached by reading a front of the text of that many bytes. -/
theorem Pos.offset?_eq_some_iff {offset : Nat} : pos.offset? text = some offset ↔
    ∃ kept, kept <+: text ∧ origin.after kept = pos ∧ Text.byteLength kept = offset := by
  rw [offset?, Option.map_eq_some_iff]
  simp only [before?_eq_some_iff, and_assoc]

private theorem Text.byteLength_pos (someText : text ≠ []) : 0 < byteLength text := by
  obtain ⟨c, rest, rfl⟩ := List.exists_cons_of_ne_nil someText
  exact Nat.add_pos_left c.utf8Size_pos _

/-- Of two prefixes of a text, the one that reaches no further has no more bytes. -/
theorem Text.byteLength_le_iff (left : first <+: text) (right : second <+: text) :
    byteLength first ≤ byteLength second ↔ Pos.origin.after first ≤ Pos.origin.after second := by
  constructor
  · intro fewer
    rcases List.prefix_or_prefix_of_prefix left right with ⟨more, rfl⟩ | ⟨more, rfl⟩
    · rw [Pos.after_append]
      exact Pos.le_after _ more
    · have nothing : more = [] := by
        by_contra someText
        have positive := byteLength_pos someText
        rw [byteLength_append] at fewer
        omega
      rw [nothing, List.append_nil]
  · intro order
    obtain ⟨more, rfl⟩ := Pos.prefix_of_after_le .origin left right order
    rw [byteLength_append]
    exact Nat.le_add_right _ _

/-- Positions of a text are in the order of their offsets. -/
theorem Pos.le_iff_offset_le {other : Pos} {offset otherOffset : Nat} (found : pos.offset? text = some offset)
    (otherFound : other.offset? text = some otherOffset) : pos ≤ other ↔ offset ≤ otherOffset := by
  obtain ⟨kept, isPrefix, rfl, rfl⟩ := offset?_eq_some_iff.mp found
  obtain ⟨others, isOtherPrefix, rfl, rfl⟩ := offset?_eq_some_iff.mp otherFound
  exact (Text.byteLength_le_iff isPrefix isOtherPrefix).symm

end Reading

section Boundaries

variable {source : String}

/-- Lengths in bytes are those of the encoded text. -/
theorem Text.byteLength_eq_utf8ByteSize (text : List Char) :
    byteLength text = (String.ofList text).utf8ByteSize := by
  induction text with
  | nil => rfl
  | cons c rest ih =>
    rw [String.ofList_cons, String.utf8ByteSize_append, String.utf8ByteSize_singleton, ← ih]
    rfl

/-- The bytes in front of a part of a source end between characters. -/
theorem Text.isValid_of_parts {before after : List Char} (whole : source.toList = before ++ after) :
    String.Pos.Raw.IsValid source ⟨byteLength before⟩ := by
  rw [String.Pos.Raw.isValid_iff_exists_append]
  refine ⟨String.ofList before, String.ofList after, ?_, ?_⟩
  · rw [← String.ofList_append, ← whole, String.ofList_toList]
  · rw [byteLength_eq_utf8ByteSize]
    rfl

/-- The position that reading a source from its start up to a boundary between characters reaches. -/
def Pos.upTo (boundary : source.Pos) : Pos :=
  origin.after (source.sliceTo boundary).copy.toList

/-- Boundaries are where the prefixes of a source end. -/
theorem Pos.exists_boundary_iff {pos : Pos} {offset : Nat} :
    (∃ boundary : source.Pos, boundary.offset.byteIdx = offset ∧ upTo boundary = pos) ↔
      ∃ kept, kept <+: source.toList ∧ origin.after kept = pos ∧ Text.byteLength kept = offset := by
  constructor
  · rintro ⟨boundary, rfl, rfl⟩
    have splits := boundary.splits
    refine ⟨_, ⟨(source.sliceFrom boundary).copy.toList, ?_⟩, rfl, ?_⟩
    · rw [← String.toList_append, ← splits.eq_append]
    · rw [Text.byteLength_eq_utf8ByteSize, String.ofList_toList, splits.offset_eq_rawEndPos]
      rfl
  · rintro ⟨kept, ⟨rest, whole⟩, rfl, rfl⟩
    have parts : source = String.ofList kept ++ String.ofList rest := by
      rw [← String.ofList_append, whole, String.ofList_toList]
    have bytes := congrArg String.Pos.Raw.mk (Text.byteLength_eq_utf8ByteSize kept)
    refine ⟨⟨_, Text.isValid_of_parts whole.symm⟩, rfl, ?_⟩
    rw [upTo, String.copy_sliceTo_eq_iff_exists_splits.mpr ⟨_, parts, bytes⟩, String.toList_ofList]

/-- A span has a range just if both its ends have offsets and it does not run backward. -/
theorem Span.range?_eq_some_iff {span : Span} {text : List Char} {start stop : Nat} :
    span.range? text = some (start, stop) ↔ span.start.offset? text = some start ∧
      span.stop.offset? text = some stop ∧ span.start ≤ span.stop := by
  simp only [range?, Option.bind_eq_bind, Option.bind_eq_some_iff, Option.ite_none_right_eq_some,
    Option.some.injEq, Prod.mk.injEq]
  constructor
  · rintro ⟨_, foundStart, _, foundStop, order, rfl, rfl⟩
    exact ⟨foundStart, foundStop, (Pos.le_iff_offset_le foundStart foundStop).mpr order⟩
  · rintro ⟨foundStart, foundStop, order⟩
    exact ⟨start, foundStart, stop, foundStop,
      (Pos.le_iff_offset_le foundStart foundStop).mp order, rfl, rfl⟩

private theorem Pos.offset?_eq_some_iff_boundary {pos : Pos} {offset : Nat} :
    pos.offset? source.toList = some offset ↔
      ∃ boundary : source.Pos, boundary.offset.byteIdx = offset ∧ upTo boundary = pos := by
  rw [offset?_eq_some_iff, exists_boundary_iff]

/-- Positions and byte offsets are inverse to each other. The position that is reached by reading up to a
boundary has the boundary as its offset; a position with an offset is the one that is reached by reading up
to there, which is a boundary; no other position has an offset. Offsets are in the order of the positions,
and a span has a range if and only if its ends are positions of the source, in order. -/
theorem positions_match_boundaries (source : String) :
    (∀ boundary : source.Pos,
      (Pos.upTo boundary).offset? source.toList = some boundary.offset.byteIdx) ∧
    (∀ pos : Pos, ∀ offset, pos.offset? source.toList = some offset →
      ∃ boundary : source.Pos, boundary.offset.byteIdx = offset ∧ Pos.upTo boundary = pos) ∧
    (∀ pos, (∀ boundary : source.Pos, Pos.upTo boundary ≠ pos) → pos.offset? source.toList = none) ∧
    (∀ pos other : Pos, ∀ offset otherOffset, pos.offset? source.toList = some offset →
      other.offset? source.toList = some otherOffset → (pos < other ↔ offset < otherOffset)) ∧
    ∀ span : Span, (span.range? source.toList).isSome = true ↔
      (∃ boundary : source.Pos, Pos.upTo boundary = span.start) ∧
        (∃ boundary : source.Pos, Pos.upTo boundary = span.stop) ∧ span.start ≤ span.stop := by
  refine ⟨?_, ?_, ?_, ?_, ?_⟩
  · exact fun boundary => Pos.offset?_eq_some_iff_boundary.mpr ⟨boundary, rfl, rfl⟩
  · exact fun pos offset => Pos.offset?_eq_some_iff_boundary.mp
  · intro pos unreached
    by_contra found
    obtain ⟨offset, found⟩ := Option.ne_none_iff_exists'.mp found
    obtain ⟨boundary, -, reached⟩ := Pos.offset?_eq_some_iff_boundary.mp found
    exact unreached boundary reached
  · intro pos other offset otherOffset found otherFound
    rw [← not_le, ← Nat.not_le, Pos.le_iff_offset_le otherFound found]
  · intro span
    rw [Option.isSome_iff_exists]
    constructor
    · rintro ⟨⟨start, stop⟩, range⟩
      obtain ⟨foundStart, foundStop, order⟩ := Span.range?_eq_some_iff.mp range
      obtain ⟨first, -, reachedStart⟩ := Pos.offset?_eq_some_iff_boundary.mp foundStart
      obtain ⟨last, -, reachedStop⟩ := Pos.offset?_eq_some_iff_boundary.mp foundStop
      exact ⟨⟨first, reachedStart⟩, ⟨last, reachedStop⟩, order⟩
    · rintro ⟨⟨first, reachedStart⟩, ⟨last, reachedStop⟩, order⟩
      exact ⟨_, Span.range?_eq_some_iff.mpr
        ⟨Pos.offset?_eq_some_iff_boundary.mpr ⟨first, rfl, reachedStart⟩,
          Pos.offset?_eq_some_iff_boundary.mpr ⟨last, rfl, reachedStop⟩, order⟩⟩

example : (⟨2, 3⟩ : Pos).offset? "ab\ncdé\n\nf".toList = some 7 := by decide

end Boundaries

end SyntaxNav

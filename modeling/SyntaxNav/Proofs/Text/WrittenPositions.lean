import Mathlib.Data.Nat.Digits.Defs
import SyntaxNav.Proofs.Text.Positions

/-! # Written positions

A number is spelled with decimal digits, perhaps behind a plus sign and with blanks around, and a position as
two numbers with a colon between them (`Pos.Spelled`). A number has many spellings, since it may have leading
zeros. `Pos.read` accepts every spelling and nothing else; `Pos.render` writes the shortest one.
-/

namespace SyntaxNav

namespace Text

/-- Digits that stand for a number in the decimal system, the most significant one first. -/
structure Decimal (digits : List Char) (value : Nat) : Prop where
  someDigit : digits ≠ []
  onlyDigits : ∀ digit ∈ digits, '0' ≤ digit ∧ digit ≤ '9'
  value_eq : value = Nat.ofDigits 10 (digits.reverse.map fun digit => digit.toNat - '0'.toNat)

/-- A number in the decimal system, perhaps with a plus sign. -/
inductive Numeral : List Char → Nat → Prop
  | plain {digits : List Char} {value : Nat} (decimal : Decimal digits value) : Numeral digits value
  | plus {digits : List Char} {value : Nat} (decimal : Decimal digits value) : Numeral ('+' :: digits) value

/-- A text of blanks. -/
def Blank (text : List Char) : Prop :=
  ∀ c ∈ text, isBlank c = true

/-- A number that fits 64 bits, perhaps with blanks around it. -/
def Padded (text : List Char) (value : Nat) : Prop :=
  ∃ left numeral right, text = left ++ numeral ++ right ∧ Blank left ∧ Blank right ∧
    Numeral numeral value ∧ value < UInt64.size

section Decimals

variable {c : Char} {text digits : List Char} {value : Nat}

private theorem isDigit_iff : c.isDigit = true ↔ '0' ≤ c ∧ c ≤ '9' := by
  rw [Char.isDigit_iff_toNat, Char.le_def, Char.le_def, UInt32.le_iff_toNat_le, UInt32.le_iff_toNat_le]
  rfl

private theorem not_blank_of_isDigit (digit : c.isDigit = true) : isBlank c = false := by
  obtain ⟨low, high⟩ := Char.isDigit_iff_toNat.mp digit
  simp only [Char.reduceToNat] at low high
  refine List.any_eq_false.mpr fun range member => ?_
  have apart : range.2 < 48 ∨ 57 < range.1 := by
    revert range
    decide
  simp only [Bool.and_eq_true, decide_eq_true_eq]
  omega

/-- Reading digits one after another gives the sum of their values at their places. -/
theorem digitsValue_eq_ofDigits (digits : List Char) :
    digitsValue digits = Nat.ofDigits 10 (digits.reverse.map fun digit => digit.toNat - '0'.toNat) := by
  rw [Nat.ofDigits_eq_foldr, List.foldr_map, List.foldr_reverse, digitsValue]
  congr 1
  funext value digit
  rw [Nat.cast_id, Nat.mul_comm, Nat.add_comm]

private theorem digitsValue_toDigits (value : Nat) : digitsValue (Nat.toDigits 10 value) = value := by
  calc digitsValue (Nat.toDigits 10 value)
    _ = Nat.ofDigitChars 10 (Nat.toDigits 10 value) 0 := by
      rw [Nat.ofDigitChars_eq_foldl, digitsValue]
      simp only [Nat.mul_comm]
    _ = value := Nat.ofDigitChars_ten_toDigits

private theorem decimal_iff :
    Decimal digits value ↔ digits ≠ [] ∧ digits.all Char.isDigit = true ∧ digitsValue digits = value := by
  simp only [List.all_eq_true, isDigit_iff, digitsValue_eq_ofDigits]
  constructor
  · rintro ⟨someDigit, onlyDigits, rfl⟩
    exact ⟨someDigit, onlyDigits, rfl⟩
  · rintro ⟨someDigit, onlyDigits, rfl⟩
    exact ⟨someDigit, onlyDigits, rfl⟩

/-- Every number is written in the decimal system. -/
theorem decimal_toDigits (value : Nat) : Decimal (Nat.toDigits 10 value) value := by
  refine decimal_iff.mpr ⟨Nat.toDigits_ne_nil, List.all_eq_true.mpr fun digit member => ?_,
    digitsValue_toDigits value⟩
  exact Nat.isDigit_of_mem_toDigits (by decide) (by decide) member

/-- Without its plus sign, if it has one, a numeral is a row of digits. -/
theorem numeral_iff_unsignedDigits : Numeral text value ↔ Decimal (unsignedDigits text) value := by
  constructor
  · rintro (decimal | decimal)
    · rw [unsignedDigits]
      · exact decimal
      -- a plus sign is no digit, so none is taken off a row of digits
      · rintro digits rfl
        exact absurd (decimal.onlyDigits '+' List.mem_cons_self) (by decide)
    · exact decimal
  · intro decimal
    unfold unsignedDigits at decimal
    split at decimal
    · exact .plus decimal
    · exact .plain decimal

private theorem readUnsigned?_eq_some_iff :
    readUnsigned? text = some value ↔ Numeral text value ∧ value < UInt64.size := by
  rw [readUnsigned?, Option.ite_none_right_eq_some, numeral_iff_unsignedDigits, decimal_iff]
  constructor
  · rintro ⟨⟨someDigit, onlyDigits, fits⟩, ⟨⟩⟩
    exact ⟨⟨someDigit, onlyDigits, rfl⟩, fits⟩
  · rintro ⟨⟨someDigit, onlyDigits, rfl⟩, fits⟩
    exact ⟨⟨someDigit, onlyDigits, fits⟩, rfl⟩

private theorem Decimal.not_blank (decimal : Decimal digits value) : ∀ c ∈ digits, isBlank c = false :=
  fun c member => not_blank_of_isDigit (isDigit_iff.mpr (decimal.onlyDigits c member))

private theorem Numeral.not_blank (numeral : Numeral text value) : ∀ c ∈ text, isBlank c = false := by
  cases numeral with
  | plain decimal => exact decimal.not_blank
  | plus decimal => exact List.forall_mem_cons.mpr ⟨by decide, decimal.not_blank⟩

private theorem Numeral.ne_nil (numeral : Numeral text value) : text ≠ [] := by
  cases numeral with
  | plain decimal => exact decimal.someDigit
  | plus decimal => exact List.cons_ne_nil _ _

end Decimals

section Trimming

variable {text core left right : List Char} {value : Nat}

private theorem blank_takeWhile (text : List Char) : Blank (text.takeWhile isBlank) :=
  List.all_eq_true.mp List.all_takeWhile

private theorem Blank.reverse (blank : Blank text) : Blank text.reverse :=
  fun c member => blank c (List.mem_reverse.mp member)

/-- Trimming takes only blanks away. -/
theorem exists_blanks_around_trim (text : List Char) :
    ∃ left right, text = left ++ trim text ++ right ∧ Blank left ∧ Blank right := by
  have parts := List.takeWhile_append_dropWhile (p := isBlank) (l := (text.dropWhile isBlank).reverse)
  refine ⟨text.takeWhile isBlank, ((text.dropWhile isBlank).reverse.takeWhile isBlank).reverse, ?_,
    blank_takeWhile text, (blank_takeWhile _).reverse⟩
  rw [trim, List.append_assoc, ← List.reverse_append, parts, List.reverse_reverse,
    List.takeWhile_append_dropWhile]

private theorem dropWhile_blank_append (blank : Blank left) (dark : ∀ c ∈ core, isBlank c = false)
    (someText : core ≠ []) (rest : List Char) :
    (left ++ (core ++ rest)).dropWhile isBlank = core ++ rest := by
  obtain ⟨c, more, rfl⟩ := List.exists_cons_of_ne_nil someText
  have stops : ¬ isBlank c = true := by
    rw [dark c List.mem_cons_self]
    exact Bool.false_ne_true
  rw [List.dropWhile_append_of_pos blank, List.cons_append, List.dropWhile_cons_of_neg stops]

/-- Trimming takes all blanks around a text away. -/
theorem trim_blank_append (blankLeft : Blank left) (blankRight : Blank right)
    (dark : ∀ c ∈ core, isBlank c = false) (someText : core ≠ []) :
    trim (left ++ core ++ right) = core := by
  have darkReverse : ∀ c ∈ core.reverse, isBlank c = false :=
    fun c member => dark c (List.mem_reverse.mp member)
  have someReverse := mt List.reverse_eq_nil_iff.mp someText
  have back := dropWhile_blank_append blankRight.reverse darkReverse someReverse []
  rw [List.append_nil, ← List.reverse_append] at back
  rw [trim, List.append_assoc, dropWhile_blank_append blankLeft dark someText, back, List.reverse_reverse]

private theorem readUnsigned?_trim_eq_some_iff : readUnsigned?
    (trim text) = some value ↔ Padded text value := by
  rw [readUnsigned?_eq_some_iff]
  constructor
  · rintro ⟨numeral, fits⟩
    obtain ⟨left, right, whole, blankLeft, blankRight⟩ := exists_blanks_around_trim text
    exact ⟨left, trim text, right, whole, blankLeft, blankRight, numeral, fits⟩
  · rintro ⟨left, core, right, rfl, blankLeft, blankRight, numeral, fits⟩
    rw [trim_blank_append blankLeft blankRight numeral.not_blank numeral.ne_nil]
    exact ⟨numeral, fits⟩

private theorem Padded.fits (padded : Padded text value) : value < UInt64.size := by
  obtain ⟨_, _, _, -, -, -, -, fits⟩ := padded
  exact fits

private theorem padded_toDigits (fits : value < UInt64.size) : Padded (Nat.toDigits 10 value) value :=
  ⟨[], Nat.toDigits 10 value, [], by simp, List.forall_mem_nil _, List.forall_mem_nil _,
    .plain (decimal_toDigits value), fits⟩

end Trimming

end Text

namespace Pos

variable {text : List Char} {pos : Pos}

/-- The line and the column of a position, with a colon between them that is the first one of the text. Lines
count from one. -/
def Spelled (text : List Char) (pos : Pos) : Prop :=
  ∃ before after, text = before ++ ':' :: after ∧ ':' ∉ before ∧
    Text.Padded before pos.line ∧ Text.Padded after pos.column ∧ pos.line ≠ 0

private theorem read?_eq_some_iff : read? text = some pos ↔ Spelled text pos := by
  unfold read?
  constructor
  · intro found
    split at found
    · cases found
    · rename_i c after behind
      obtain ⟨-, whole⟩ := Text.parts_of_dropWhile_until behind
      obtain ⟨line, readLine, found⟩ := Option.bind_eq_some_iff.mp found
      obtain ⟨column, readColumn, found⟩ := Option.bind_eq_some_iff.mp found
      obtain ⟨positive, same⟩ := Option.ite_none_left_eq_some.mp found
      cases same
      exact ⟨_, after, whole, Text.not_mem_takeWhile_until ':' text,
        Text.readUnsigned?_trim_eq_some_iff.mp readLine, Text.readUnsigned?_trim_eq_some_iff.mp readColumn,
        positive⟩
  · rintro ⟨before, after, rfl, first, line, column, positive⟩
    rw [Text.takeWhile_until first, Text.dropWhile_until first]
    simp only [Text.readUnsigned?_trim_eq_some_iff.mpr line, Text.readUnsigned?_trim_eq_some_iff.mpr column,
      Option.bind_eq_bind, Option.bind_some, if_neg positive]

private theorem read_eq_ok_iff {text : String} : read text = .ok pos ↔ Spelled text.toList pos := by
  rw [← read?_eq_some_iff, read]
  cases read? text.toList <;> simp

private theorem read_eq_error_iff {text : String} :
    read text = .error ⟨text⟩ ↔ ∀ pos, ¬ Spelled text.toList pos := by
  simp only [← read?_eq_some_iff, read]
  cases read? text.toList <;> simp

private theorem toList_render (pos : Pos) :
    pos.render.toList = Nat.toDigits 10 pos.line ++ ':' :: Nat.toDigits 10 pos.column := by
  simp [render]

/-- What is written for a position spells it, unless it has no line or a number does not fit 64 bits. -/
theorem spelled_render_iff :
    Spelled pos.render.toList pos ↔
      1 ≤ pos.line ∧ pos.line < UInt64.size ∧ pos.column < UInt64.size := by
  constructor
  · rintro ⟨before, after, -, -, line, column, positive⟩
    exact ⟨Nat.one_le_iff_ne_zero.mpr positive, line.fits, column.fits⟩
  · rintro ⟨positive, lineFits, columnFits⟩
    refine ⟨_, _, toList_render pos, fun colon => ?_, Text.padded_toDigits lineFits,
      Text.padded_toDigits columnFits, Nat.one_le_iff_ne_zero.mp positive⟩
    exact absurd ((Text.decimal_toDigits pos.line).onlyDigits ':' colon) (by decide)

end Pos

/-- Reading a position is exact. A text is read if and only if it spells a position, which is the one that is
read; every other text is reported. What is written for a position is read back, if its line is at least one
and its numbers fit 64 bits. -/
theorem reading_is_exact_and_undoes_rendering :
    (∀ text pos, Pos.read text = .ok pos ↔ Pos.Spelled text.toList pos) ∧
    (∀ text, Pos.read text = .error ⟨text⟩ ↔ ∀ pos, ¬ Pos.Spelled text.toList pos) ∧
    ∀ pos : Pos, Pos.read pos.render = .ok pos ↔
      1 ≤ pos.line ∧ pos.line < UInt64.size ∧ pos.column < UInt64.size :=
  ⟨fun _ _ => Pos.read_eq_ok_iff, fun _ => Pos.read_eq_error_iff,
    fun _ => Pos.read_eq_ok_iff.trans Pos.spelled_render_iff⟩

example : (Pos.read "\u00a0+007\t: 18446744073709551615").toOption = some ⟨7, 18446744073709551615⟩ := by
  decide

end SyntaxNav

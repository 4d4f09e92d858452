import Mathlib.Data.List.Find
import SyntaxNav.Proofs.Script.Relocation
import SyntaxNav.Proofs.Script.TextBrackets

/-! # Scans of joined texts

A newline ends every token and every line comment. So if two texts can be scanned, then so can the first
one with a newline and the second one behind it. The tokens are those of both; those of the second text
have moved down (`Pos.down`), and the newline is before the first of them (`breakBefore`).
-/

namespace SyntaxNav

namespace Pos

/-- The position so many lines further down, in the same column. -/
def down (lines : Nat) (pos : Pos) : Pos := ⟨pos.line + lines, pos.column⟩

private theorem next_down (lines : Nat) (pos : Pos) (c : Char) :
    (pos.down lines).next c = (pos.next c).down lines := by
  unfold next
  split
  · exact congrArg (mk · 0) (Nat.add_right_comm _ _ _)
  · rfl

/-- Reading further down leads further down. -/
theorem after_down (lines : Nat) (pos : Pos) (text : List Char) :
    (pos.down lines).after text = (pos.after text).down lines := by
  induction text generalizing pos with
  | nil => rfl
  | cons c rest ih => rw [after_cons, next_down, ih, after_cons]

/-- Each newline that is read leads to the next line. -/
theorem line_after (pos : Pos) (text : List Char) :
    (pos.after text).line = pos.line + text.count '\n' := by
  induction text generalizing pos with
  | nil => rfl
  | cons c rest ih =>
    rw [after_cons, ih, List.count_cons, next]
    by_cases newline : c = '\n'
    · rw [if_pos newline, if_pos (beq_iff_eq.mpr newline), Nat.add_right_comm]
      rfl
    · rw [if_neg newline, if_neg (fun same => newline (beq_iff_eq.mp same))]
      rfl

/-- Behind a newline the text starts again, further down. -/
theorem next_newline (text : List Char) :
    (origin.after text).next '\n' = origin.down (text.count '\n' + 1) := by
  rw [next, if_pos rfl, line_after]
  rfl

end Pos

namespace Script

def breakBefore : List Token → List Token
  | [] => []
  | token :: rest => { token with newlineBefore := true } :: rest

section Newlines

variable {c : Char} {rest : List Char} {kind : TokenKind} (behind : List Char)

private theorem separated_nil : Separated [] := by
  rintro c ⟨⟩

private theorem separated_newline : Separated ('\n' :: behind) := by
  rintro c ⟨⟩
  exact .inr rfl

private theorem takeWhile_append_newline {among : Char → Bool} (ends : among '\n' = false)
    (text : List Char) :
    (text ++ '\n' :: behind).takeWhile among = text.takeWhile among := by
  induction text with
  | nil => exact List.takeWhile_cons_of_neg (by rw [ends]; exact Bool.false_ne_true)
  | cons d text ih => rw [List.cons_append, List.takeWhile_cons, List.takeWhile_cons, ih]

private theorem startsNumber_append_newline (c : Char) (rest : List Char) :
    startsNumber c (rest ++ '\n' :: behind) = startsNumber c rest := by
  cases rest with
  | nil =>
    rw [List.nil_append, startsNumber_of_separated c (separated_newline behind),
      startsNumber_of_separated c separated_nil]
  | cons d rest => rfl

private theorem find_punct_append_newline (text : List Char) :
    punctuators.find? (·.toList.isPrefixOf (text ++ '\n' :: behind)) =
      punctuators.find? (·.toList.isPrefixOf text) := by
  refine List.find?_congr fun punct member => ?_
  rw [Bool.eq_iff_iff, List.isPrefixOf_iff_prefix, List.isPrefixOf_iff_prefix]
  constructor
  · exact fun fits => prefix_of_unspaced fits (punctuators_unspaced punct member) (separated_newline behind)
  · exact fun fits => fits.trans (List.prefix_append _ _)

/-- A token is read again if a newline is put behind the text. -/
theorem TokenAt.append_newline (token : TokenAt c rest kind) :
    TokenAt c (rest ++ '\n' :: behind) kind := by
  cases token with
  | @string length quote closed =>
    have again := stringLength?_take closed (rest.drop length ++ '\n' :: behind)
    rw [← List.append_assoc, List.take_append_drop] at again
    have token := TokenAt.string quote again
    rwa [List.take_append_of_le_length (stringLength?_le closed)] at token
  | number starts =>
    have fits := bounded_numberLength (c :: rest)
    have same : numberLength (c :: rest ++ '\n' :: behind) = numberLength (c :: rest) := by
      have stable : numberLength (c :: rest ++ '\n' :: behind) = numberLength (c :: rest ++ []) :=
        stable_numberLength (by rwa [List.append_nil]) (separated_newline behind)
      rwa [List.append_nil] at stable
    have token := TokenAt.number ((startsNumber_append_newline behind c rest).trans starts)
    rwa [← List.cons_append, same, List.take_append_of_le_length fits] at token
  | word noNumber starts =>
    have token := TokenAt.word ((startsNumber_append_newline behind c rest).trans noNumber) starts
    rwa [← List.cons_append, takeWhile_append_newline behind (by decide)] at token
  | punct noComment noNumber found =>
    refine .punct ?_ ((startsNumber_append_newline behind c rest).trans noNumber) ?_
    · rintro ⟨slash, star⟩
      have inside : (rest ++ []).head? = some '*' :=
        head?_append_separated (separated_newline behind) (by decide) (by decide) star
      rw [List.append_nil] at inside
      exact noComment ⟨slash, inside⟩
    · rw [← List.cons_append, find_punct_append_newline, found]

/-- A gap at the end of a text goes on behind a newline. -/
theorem gapLength_append_newline {gap : List Char} (whole : gapLength gap = gap.length) :
    gapLength (gap ++ '\n' :: behind) = (gap ++ ['\n']).length + gapLength behind := by
  have newline : gapLength ('\n' :: behind) = 1 + gapLength behind := by
    rw [gapLength_of_no_comment (by simp) (by simp), if_pos (by decide)]
  have gapped : gapLength (gap ++ []) = gap.length := by rw [List.append_nil, whole]
  rw [gapLength_append_of_lines gapped, newline, List.length_append, List.length_singleton,
    Nat.add_assoc]
  intro tail _ _
  rw [takeWhile_append_newline behind (by decide), List.append_nil]

end Newlines

section Scans

variable {pos : Pos} {text later : List Char} {tokens others : List Token}

/-- A text that stands elsewhere has the same tokens, elsewhere. -/
theorem Scans.down (lines : Nat) (scans : Scans pos text tokens) :
    Scans (pos.down lines) text (tokens.map (Token.relocate (Pos.down lines))) := by
  induction scans with
  | done whole => exact .done whole
  | token gapped read written _ ih =>
    rw [← Pos.after_down, ← Pos.after_down] at ih
    have scans := Scans.token gapped read written ih
    rw [Pos.after_down, Pos.after_down] at scans
    exact scans

/-- A gap and a newline in front of a text put a newline before its first token. -/
theorem Scans.behind_gap {gap : List Char} (whole : gapLength gap = gap.length)
    (scans : Scans ((pos.after gap).next '\n') later others) :
    Scans pos (gap ++ '\n' :: later) (breakBefore others) := by
  have longer (behind : List Char) : gap ++ '\n' :: behind = (gap ++ ['\n']) ++ behind := by simp
  have reached (behind : List Char) :
      pos.after (gap ++ ['\n'] ++ behind) = ((pos.after gap).next '\n').after behind := by
    rw [Pos.after_append, Pos.after_append]
    rfl
  generalize start : (pos.after gap).next '\n' = place at scans
  subst start
  cases scans with
  | done ended =>
    refine .done ?_
    rw [gapLength_append_newline later whole, ended, ← List.length_append, ← longer]
  | @token _ further more rest c kind tokens gapped read written scans =>
    have together : gapLength (gap ++ ['\n'] ++ further ++ c :: (more ++ rest)) =
        (gap ++ ['\n'] ++ further).length := by
      rw [List.append_assoc, ← longer, gapLength_append_newline _ whole, gapped, ← List.length_append]
    rw [← reached] at scans
    have joined := Scans.token together read written scans
    rw [reached] at joined
    have broken : (gap ++ ['\n'] ++ further).contains '\n' = true := by simp
    rw [broken] at joined
    rw [longer, ← List.append_assoc]
    exact joined

/-- Two texts with a newline between them have the tokens of both. -/
theorem Scans.join (scans : Scans pos text tokens)
    (behind : Scans ((pos.after text).next '\n') later others) :
    Scans pos (text ++ '\n' :: later) (tokens ++ breakBefore others) := by
  induction scans with
  | done whole => exact behind.behind_gap whole
  | @token pos gap more rest c kind tokens gapped read written _ ih =>
    have tokenAt := readToken_eq_ok_iff.mp read
    have again := readToken_eq_ok_iff.mpr (tokenAt.append_newline later)
    have noGap : gapLength (c :: (more ++ rest ++ '\n' :: later)) = 0 := by
      rw [← List.append_nil (more ++ rest)] at tokenAt
      refine gapLength_separated tokenAt ?_ (separated_newline later)
      rw [List.append_nil]
      exact gapLength_behind_gap gapped
    have stillGapped := gapLength_append gapped (c :: (more ++ rest ++ '\n' :: later))
    rw [noGap, Nat.add_zero] at stillGapped
    rw [List.append_assoc] at again stillGapped
    have moved : pos.after (gap ++ c :: (more ++ rest)) =
        ((pos.after gap).after (c :: more)).after rest := by
      rw [Pos.after_append, ← List.cons_append, Pos.after_append]
    rw [moved] at behind
    have joined := Scans.token stillGapped again written (ih behind)
    simpa only [List.append_assoc, List.cons_append] using joined

/-- Texts without a fault can be joined by a newline. -/
theorem scan_join {first second : List Char} (cleanFirst : (scan first).error = none)
    (cleanSecond : (scan second).error = none) :
    scan (first ++ '\n' :: second) = ⟨(scan first).tokens ++
      breakBefore ((scan second).tokens.map (Token.relocate (Pos.down (first.count '\n' + 1)))),
      none⟩ := by
  have behind := (scanFrom_scans cleanSecond).down (first.count '\n' + 1)
  rw [← Pos.next_newline] at behind
  exact ((scanFrom_scans cleanFirst).join behind).scanFrom_eq

end Scans

end Script

end SyntaxNav

import SyntaxNav.Proofs.Script.BalancedRuns
import SyntaxNav.Proofs.Script.Respacing
import SyntaxNav.Proofs.Script.TokenLeaves

/-! # The brackets of a text

`bracketsIn` finds the brackets of a text character by character, without scanning it: it only steps over
comments and strings. In a text that can be scanned they are the brackets among the tokens. What stands
in front of a token keeps its brackets whatever follows it instead, unless a slash in front of it meets
a slash or a star.
-/

namespace SyntaxNav.Script

def bracketChars : List Char := ['(', ')', '[', ']', '\x7b', '\x7d']

/-- The bracket that a character is, as a token. -/
def bracketOf (c : Char) : List TokenKind :=
  if bracketChars.contains c then [.punct (String.singleton c)] else []

/-- How many of the characters behind one belong to the comment or string that it opens. A comment
without an end goes on to the end of the text, and a quote without a partner opens nothing. -/
def coveredLength (c : Char) (rest : List Char) : Nat :=
  if c = '/' ∧ rest.head? = some '/' then (rest.takeWhile (· ≠ '\n')).length
  else if c = '/' ∧ rest.head? = some '*' then
    ((commentLength? rest.tail).map (· + 1)).getD rest.length
  else if c = '\x22' ∨ c = '\x27' then (stringLength? c rest).getD 0
  else 0

/-- The brackets of a text outside comments and strings, after some characters. -/
def bracketsAfter (skipped : Nat) : List Char → List TokenKind
  | [] => []
  | c :: rest =>
    match skipped with
    | skipped + 1 => bracketsAfter skipped rest
    | 0 => bracketOf c ++ bracketsAfter (coveredLength c rest) rest

/-- The brackets of a text outside comments and strings. -/
def bracketsIn (text : List Char) : List TokenKind :=
  bracketsAfter 0 text

private theorem bracketsAfter_eq (skipped : Nat) (text : List Char) :
    bracketsAfter skipped text = bracketsIn (text.drop skipped) := by
  induction text generalizing skipped with
  | nil => rw [List.drop_nil, bracketsAfter, bracketsIn, bracketsAfter]
  | cons c rest ih =>
    cases skipped with
    | zero => rfl
    | succ skipped => rw [bracketsAfter, ih, List.drop_succ_cons]

private theorem bracketsIn_cons (c : Char) (rest : List Char) :
    bracketsIn (c :: rest) = bracketOf c ++ bracketsIn (rest.drop (coveredLength c rest)) := by
  rw [← bracketsAfter_eq]
  rfl

section Characters

/-- The characters that matter to brackets: the brackets, and those that open comments and strings. -/
def specialChars : List Char := '/' :: '\x22' :: '\x27' :: bracketChars

private theorem not_special {among : Char → Bool} (ordinary : specialChars.all (fun c => !among c) = true)
    {c : Char} (isAmong : among c = true) : c ∉ specialChars := by
  intro special
  have excluded := List.all_eq_true.mp ordinary c special
  rw [isAmong] at excluded
  cases excluded

private theorem bracketsIn_ordinary {c : Char} (ordinary : c ∉ specialChars) (rest : List Char) :
    bracketsIn (c :: rest) = bracketsIn rest := by
  simp only [specialChars, List.mem_cons, not_or] at ordinary
  obtain ⟨noSlash, noDouble, noSingle, noBracket⟩ := ordinary
  have bracket : bracketOf c = [] := by simp [bracketOf, noBracket]
  have covered : coveredLength c rest = 0 := by simp [coveredLength, noSlash, noDouble, noSingle]
  rw [bracketsIn_cons, bracket, covered, List.drop_zero, List.nil_append]

private theorem bracketsIn_ordinary_append {text : List Char} (ordinary : ∀ c ∈ text, c ∉ specialChars)
    (behind : List Char) : bracketsIn (text ++ behind) = bracketsIn behind := by
  induction text with
  | nil => rfl
  | cons c rest ih =>
    obtain ⟨here, later⟩ := List.forall_mem_cons.mp ordinary
    rw [List.cons_append, bracketsIn_ordinary here, ih later]

/-- A text starts a comment together with a slash in front of it. -/
def OpensComment (behind : List Char) : Prop :=
  behind.head? = some '/' ∨ behind.head? = some '*'

private theorem bracketsIn_slash {behind : List Char} (free : ¬ OpensComment behind) :
    bracketsIn ('/' :: behind) = bracketsIn behind := by
  obtain ⟨noLine, noBlock⟩ := not_or.mp free
  have covered : coveredLength '/' behind = 0 := by simp [coveredLength, noLine, noBlock]
  rw [bracketsIn_cons, covered, List.drop_zero]
  rfl

end Characters

section Gaps

/-- A gap has no brackets. -/
theorem bracketsIn_drop_gap (text : List Char) :
    bracketsIn (text.drop (gapLength text)) = bracketsIn text := by
  fun_induction gapLength text with
  | case1 rest line ih =>
    have covered : coveredLength '/' ('/' :: rest) = line + 1 := by
      simp [coveredLength, line]
    rw [bracketsIn_cons, covered, Nat.add_assoc, Nat.add_comm 2, List.drop_succ_cons,
      List.drop_succ_cons, ← List.drop_drop, ih, List.drop_succ_cons]
    rfl
  | case2 rest opened => rfl
  | case3 rest comment closed ih =>
    have covered : coveredLength '/' ('*' :: rest) = comment + 1 := by
      simp [coveredLength, closed]
    rw [bracketsIn_cons, covered, Nat.add_assoc, Nat.add_comm 2, List.drop_succ_cons,
      List.drop_succ_cons, ← List.drop_drop, ih, List.drop_succ_cons]
    rfl
  | case4 c rest _ _ blank ih =>
    have ordinary : c ∉ specialChars := not_special (by decide) blank
    rw [Nat.add_comm 1, List.drop_succ_cons, ih, bracketsIn_ordinary ordinary]
  | case5 | case6 => rfl

private theorem two_le_commentLength? {text : List Char} {length : Nat}
    (closed : commentLength? text = some length) : 2 ≤ length := by
  fun_induction commentLength? text generalizing length with
  | case1 => cases closed
  | case2 rest =>
    cases closed
    exact Nat.le_refl 2
  | case3 c rest notEnd ih =>
    obtain ⟨inner, ends, rfl⟩ := Option.map_eq_some_iff.mp closed
    exact Nat.le_succ_of_le (ih ends)

/-- A closed comment is read again, whatever follows it. -/
theorem commentLength?_take {text : List Char} {length : Nat}
    (closed : commentLength? text = some length) (after : List Char) :
    commentLength? (text.take length ++ after) = some length := by
  fun_induction commentLength? text generalizing length with
  | case1 => cases closed
  | case2 rest =>
    cases closed
    rfl
  | case3 c rest notEnd ih =>
    obtain ⟨inner, ends, rfl⟩ := Option.map_eq_some_iff.mp closed
    have stillOpen : ∀ others, c = '*' → rest.take inner ++ after ≠ '/' :: others := by
      intro others star whole
      cases rest with
      | nil => cases ends
      | cons d rest =>
        obtain ⟨inner, rfl⟩ := Nat.exists_eq_add_of_le' (two_le_commentLength? ends)
        rw [List.take_succ_cons, List.cons_append, List.cons.injEq] at whole
        exact notEnd rest star (by rw [whole.1])
    rw [List.take_succ_cons, List.cons_append, commentLength?, ih ends, Option.map_some]
    exact stillOpen

/-- A line that ends within a text ends there whatever follows. -/
theorem takeWhile_append_of_lt {text rest : List Char} {among : Char → Bool}
    (ends : ((text ++ rest).takeWhile among).length < text.length) (behind : List Char) :
    (text ++ behind).takeWhile among = (text ++ rest).takeWhile among := by
  have within : (text.takeWhile among).length ≠ text.length := by
    intro whole
    rw [List.takeWhile_append, if_pos whole, List.length_append] at ends
    omega
  rw [List.takeWhile_append, List.takeWhile_append, if_neg within, if_neg within]

/-- A line comment in a gap ends in the gap. -/
theorem line_ends_in_gap {gap rest : List Char} {c : Char} (noGap : gapLength (c :: rest) = 0)
    (fits : ((gap ++ c :: rest).takeWhile (· ≠ '\n')).length ≤ gap.length) :
    ((gap ++ c :: rest).takeWhile (· ≠ '\n')).length < gap.length := by
  have noNewline : c ≠ '\n' := by
    rintro rfl
    rw [gapLength_of_no_comment (by simp) (by simp), if_pos (by decide)] at noGap
    omega
  rw [List.takeWhile_append] at fits ⊢
  split at fits
  · rw [List.takeWhile_cons_of_pos (by simpa using noNewline), List.length_append,
      List.length_cons] at fits
    omega
  · rename_i within
    rw [if_neg within]
    exact Nat.lt_of_le_of_ne fits within

/-- Behind a whole gap no further gap starts. -/
theorem gapLength_behind_gap {gap rest : List Char} (gapped : gapLength (gap ++ rest) = gap.length) :
    gapLength rest = 0 := by
  have dropped := gapLength_drop_gap (gap ++ rest)
  rwa [gapped, List.drop_left] at dropped

private theorem exists_behind_two {gap rest text : List Char} {first second : Char}
    (whole : gap ++ rest = first :: second :: text) (long : 2 ≤ gap.length) :
    ∃ inner, gap = first :: second :: inner ∧ text = inner ++ rest := by
  obtain _ | ⟨_, _ | ⟨_, inner⟩⟩ := gap
  · simp at long
  · simp at long
  · simp only [List.cons_append, List.cons.injEq] at whole
    obtain ⟨rfl, rfl, rfl⟩ := whole
    exact ⟨inner, rfl, rfl⟩

/-- A comment and the gap behind it make up a gap. -/
theorem gapLength_behind_comment {gap behind : List Char} {comment : Nat} (fits : comment ≤ gap.length)
    (later : gapLength (gap.drop comment ++ behind) = (gap.drop comment).length + gapLength behind) :
    comment + gapLength ((gap ++ behind).drop comment) = gap.length + gapLength behind := by
  rw [List.drop_append_of_le_length fits, later, List.length_drop]
  omega

/-- A gap stays a gap in front of another text, if the lines in it end where they did. -/
theorem gapLength_append_of_lines {gap rest behind : List Char}
    (gapped : gapLength (gap ++ rest) = gap.length)
    (lines : ∀ tail, tail <:+ gap → ((tail ++ rest).takeWhile (· ≠ '\n')).length ≤ tail.length →
      (tail ++ behind).takeWhile (· ≠ '\n') = (tail ++ rest).takeWhile (· ≠ '\n')) :
    gapLength (gap ++ behind) = gap.length + gapLength behind := by
  generalize whole : gap ++ rest = text at gapped
  fun_induction gapLength text generalizing gap with
  | case1 text line =>
    rename_i ih
    obtain ⟨gap, rfl, rfl⟩ := exists_behind_two whole (by omega)
    simp only [List.length_cons] at gapped
    have fits : line ≤ gap.length := by omega
    have inside : gap <:+ '/' :: '/' :: gap := (List.suffix_cons _ _).trans (List.suffix_cons _ _)
    have same := lines gap inside fits
    have later : gapLength (gap.drop line ++ behind) = (gap.drop line).length + gapLength behind := by
      apply ih
      · exact fun tail within => lines tail (within.trans ((List.drop_suffix _ _).trans inside))
      · rw [List.drop_append_of_le_length fits]
      · rw [List.length_drop]
        omega
    have made := gapLength_behind_comment fits later
    simp only [List.cons_append, gapLength, same, List.length_cons]
    change 2 + line + gapLength ((gap ++ behind).drop line) = _
    omega
  | case3 text comment closed ih =>
    obtain ⟨gap, rfl, rfl⟩ := exists_behind_two whole (by omega)
    simp only [List.length_cons] at gapped
    have fits : comment ≤ gap.length := by omega
    have inside : gap <:+ '/' :: '*' :: gap := (List.suffix_cons _ _).trans (List.suffix_cons _ _)
    have same : commentLength? (gap ++ behind) = some comment := by
      have again := commentLength?_take closed (gap.drop comment ++ behind)
      rwa [List.take_append_of_le_length fits, ← List.append_assoc, List.take_append_drop] at again
    have later : gapLength (gap.drop comment ++ behind) =
        (gap.drop comment).length + gapLength behind := by
      apply ih
      · exact fun tail within => lines tail (within.trans ((List.drop_suffix _ _).trans inside))
      · rw [List.drop_append_of_le_length fits]
      · rw [List.length_drop]
        omega
    have made := gapLength_behind_comment fits later
    simp only [List.cons_append, gapLength, same, List.length_cons]
    omega
  | case4 d text noLine noBlock blank ih =>
    cases gap with
    | nil => simp at gapped
    | cons first gap =>
      rw [List.cons_append, List.cons.injEq] at whole
      obtain ⟨rfl, rfl⟩ := whole
      rw [List.length_cons] at gapped
      have later := ih (fun tail within => lines tail (within.trans (List.suffix_cons _ _))) rfl (by omega)
      have noSlash : first ≠ '/' := by
        rintro rfl
        cases blank
      rw [List.cons_append, gapLength_of_no_comment (fun line => noSlash line.1)
        (fun block => noSlash block.1), if_pos blank, later, List.length_cons]
      omega
  | case2 | case5 | case6 =>
    rw [List.length_eq_zero_iff.mp gapped.symm, List.length_nil, List.nil_append, Nat.zero_add]

/-- A gap in front of a token stays a gap in front of anything else. -/
theorem gapLength_append {gap rest : List Char} {c : Char}
    (gapped : gapLength (gap ++ c :: rest) = gap.length) (behind : List Char) :
    gapLength (gap ++ behind) = gap.length + gapLength behind := by
  refine gapLength_append_of_lines gapped fun tail _ fits => ?_
  exact takeWhile_append_of_lt (line_ends_in_gap (gapLength_behind_gap gapped) fits) behind

/-- A gap in front of a token has no brackets, whatever follows it instead. -/
theorem bracketsIn_gap {gap rest : List Char} {c : Char}
    (gapped : gapLength (gap ++ c :: rest) = gap.length) (behind : List Char) :
    bracketsIn (gap ++ behind) = bracketsIn behind := by
  have skipped := bracketsIn_drop_gap (gap ++ behind)
  rw [gapLength_append gapped, List.drop_append, List.drop_of_length_le (Nat.le_add_right _ _),
    List.nil_append, Nat.add_sub_cancel_left, bracketsIn_drop_gap] at skipped
  exact skipped.symm

end Gaps

section Tokens

variable {c : Char} {more rest : List Char} {kind : TokenKind}

def bracketsAmong (kinds : List TokenKind) : List TokenKind :=
  kinds.filter TokenKind.isBracket

private theorem bracketPairs_brackets : ∀ pair ∈ bracketPairs,
    (TokenKind.punct pair.1).isBracket = true ∧ (TokenKind.punct pair.2).isBracket = true := by
  decide

private theorem Matched.bracketsAmong {kinds : List TokenKind} (matched : Matched kinds) :
    Matched (bracketsAmong kinds) := by
  induction matched with
  | nil => exact .nil
  | token _ plain _ ih =>
    rw [Script.bracketsAmong, List.filter_cons_of_neg (by simp [plain])]
    exact ih
  | pair known _ _ ihInner ihRest =>
    obtain ⟨opens, closes⟩ := bracketPairs_brackets _ known
    rw [Script.bracketsAmong, List.filter_cons_of_pos opens, List.filter_append,
      List.filter_cons_of_pos closes]
    exact .pair known ihInner ihRest

private theorem bracketsAmong_plain (plain : kind.isBracket = false) : bracketsAmong [kind] = [] := by
  rw [bracketsAmong, List.filter_singleton, plain]
  rfl

/-- A punctuator starts with a slash, is a bracket or has nothing to do with brackets. -/
theorem punctuators_brackets : ∀ punct ∈ punctuators,
    punct = "/" ∨ punct = "/=" ∨ (∃ bracket ∈ bracketChars, punct = String.singleton bracket) ∨
      (∀ d ∈ punct.toList, d ∉ specialChars) ∧ (TokenKind.punct punct).isBracket = false := by
  have checked : punctuators.all (fun punct => punct = "/" || punct = "/=" ||
      (bracketChars.any fun bracket => punct = String.singleton bracket) ||
      ((punct.toList.all fun d => !specialChars.contains d) && !(TokenKind.punct punct).isBracket)) =
        true := by
    decide
  intro punct member
  have fits := List.all_eq_true.mp checked punct member
  simpa [or_assoc] using fits

private theorem bracketsIn_bracket {bracket : Char} (isBracket : bracket ∈ bracketChars)
    (behind : List Char) : bracketsIn (bracket :: behind) =
      bracketsAmong [.punct (String.singleton bracket)] ++ bracketsIn behind := by
  have checked : bracketChars.all (fun bracket =>
      bracket ≠ '/' && bracket ≠ '\x22' && bracket ≠ '\x27' &&
        (TokenKind.punct (String.singleton bracket)).isBracket) = true := by
    decide
  have facts := List.all_eq_true.mp checked bracket isBracket
  simp only [Bool.and_eq_true, decide_eq_true_eq] at facts
  obtain ⟨⟨⟨noSlash, noDouble⟩, noSingle⟩, isToken⟩ := facts
  have covered : coveredLength bracket behind = 0 := by
    simp [coveredLength, noSlash, noDouble, noSingle]
  rw [bracketsIn_cons, covered, List.drop_zero, bracketOf, if_pos (by simpa using isBracket),
    bracketsAmong, List.filter_singleton, isToken]
  rfl

private theorem bracketsIn_punct {punct : String} (known : punct ∈ punctuators) {behind : List Char}
    (free : punct = "/" → ¬ OpensComment behind) :
    bracketsIn (punct.toList ++ behind) =
      bracketsAmong [.punct punct] ++ bracketsIn behind := by
  rcases punctuators_brackets punct known with rfl | rfl | ⟨bracket, member, rfl⟩ | ⟨ordinary, plain⟩
  · exact bracketsIn_slash (free rfl)
  · have noComment : ¬ OpensComment ('=' :: behind) := by simp [OpensComment]
    have equals : '=' ∉ specialChars := by decide
    exact (bracketsIn_slash noComment).trans (bracketsIn_ordinary equals behind)
  · rw [String.toList_singleton]
    exact bracketsIn_bracket member behind
  · rw [bracketsIn_ordinary_append ordinary, bracketsAmong_plain plain, List.nil_append]

/-- A string has no brackets. -/
theorem bracketsIn_string (quote : c = '\x22' ∨ c = '\x27') {length : Nat}
    (closed : stringLength? c (more ++ rest) = some length)
    (written : (more ++ rest).take length = more) (behind : List Char) :
    bracketsIn (c :: more ++ behind) = bracketsIn behind := by
  have noSlash : c ≠ '/' := by rcases quote with rfl | rfl <;> decide
  have noBracket : bracketOf c = [] := by rcases quote with rfl | rfl <;> rfl
  have size : more.length = length := by
    rw [← written, List.length_take_of_le (stringLength?_le closed)]
  have again := stringLength?_take closed behind
  rw [written] at again
  have covered : coveredLength c (more ++ behind) = more.length := by
    simp [coveredLength, noSlash, quote, again, size]
  rw [List.cons_append, bracketsIn_cons, covered, List.drop_left, noBracket, List.nil_append]

/-- A token has the brackets that it is, unless it is a slash that starts a comment with what follows. -/
theorem TokenAt.bracketsIn_eq (token : TokenAt c (more ++ rest) kind)
    (written : kind.text.toList = c :: more) {behind : List Char}
    (free : kind = .punct "/" → ¬ OpensComment behind) :
    bracketsIn (c :: more ++ behind) = bracketsAmong [kind] ++ bracketsIn behind := by
  cases token with
  | @string length quote closed =>
    simp only [TokenKind.text, String.toList_ofList, List.cons.injEq, true_and] at written
    rw [bracketsIn_string quote closed written, bracketsAmong_plain rfl, List.nil_append]
  | number starts =>
    simp only [TokenKind.text, String.toList_ofList] at written
    have ordinary : ∀ d ∈ c :: more, d ∉ specialChars := by
      intro d member
      rw [← written] at member
      exact not_special (by decide) (takesIn_numberLength _ d member)
    rw [bracketsIn_ordinary_append ordinary, bracketsAmong_plain rfl, List.nil_append]
  | word noNumber starts =>
    simp only [TokenKind.text, String.toList_ofList] at written
    have ordinary : ∀ d ∈ c :: more, d ∉ specialChars := by
      intro d member
      rw [← written] at member
      exact not_special (by decide) (List.all_eq_true.mp List.all_takeWhile d member)
    rw [bracketsIn_ordinary_append ordinary, bracketsAmong_plain rfl, List.nil_append]
  | @punct punct noComment noNumber found =>
    have known := List.mem_of_find?_eq_some found
    rw [← written]
    exact bracketsIn_punct known (fun slash => free (congrArg TokenKind.punct slash))

/-- A slash that is a token starts no comment. -/
theorem TokenAt.not_opensComment (token : TokenAt c (more ++ rest) kind)
    (written : kind.text.toList = c :: more) (noGap : gapLength (c :: (more ++ rest)) = 0)
    (slash : kind = .punct "/") : ¬ OpensComment rest := by
  subst slash
  obtain ⟨rfl, rfl⟩ : '/' = c ∧ [] = more := List.cons.inj written
  rintro (line | block)
  · obtain ⟨others, rfl⟩ := List.head?_eq_some_iff.mp line
    rw [List.nil_append, gapLength] at noGap
    omega
  · exact token.no_comment ⟨rfl, block⟩

end Tokens

section Scans

variable {pos : Pos} {text : List Char} {before later : List Token}

private theorem not_opensComment_append {front : List Char} (someText : front ≠ []) {behind : List Char}
    (free : ¬ OpensComment (front ++ behind)) (other : List Char) : ¬ OpensComment (front ++ other) := by
  obtain ⟨c, rest, rfl⟩ := List.exists_cons_of_ne_nil someText
  exact free

/-- The text behind some tokens starts no comment with a slash that is the last of them. -/
def FreeBehind (before : List Token) (behind : List Char) : Prop :=
  ∀ last ∈ before.getLast?, last.kind = .punct "/" → ¬ OpensComment behind

/-- A text falls apart behind any of its tokens. The front keeps its brackets whatever follows it, unless
a comment is started. -/
structure FallsApart (pos : Pos) (before later : List Token) (front tail : List Char) : Prop where
  empty : before = [] ↔ front = []
  stops : ∀ last ∈ before.getLast?, last.span.stop = pos.after front
  free : FreeBehind before tail
  keeps : ∀ behind, FreeBehind before behind →
    bracketsIn (front ++ behind) = bracketsAmong (before.map (·.kind)) ++ bracketsIn behind
  scans : Scans (pos.after front) tail later

/-- A token is put in front of a text that falls apart. -/
theorem FallsApart.token {gap more front tail : List Char} {c : Char} {kind : TokenKind}
    {newlineBefore : Bool}
    (gapped : gapLength (gap ++ c :: (more ++ (front ++ tail))) = gap.length)
    (token : TokenAt c (more ++ (front ++ tail)) kind) (written : kind.text.toList = c :: more)
    (apart : FallsApart ((pos.after gap).after (c :: more)) before later front tail) :
    FallsApart pos (⟨kind, ⟨pos.after gap, (pos.after gap).after (c :: more)⟩, newlineBefore⟩ :: before)
      later (gap ++ (c :: more ++ front)) tail := by
  have noComment := token.not_opensComment written (gapLength_behind_gap gapped)
  have position : pos.after (gap ++ (c :: more ++ front)) =
      ((pos.after gap).after (c :: more)).after front := by
    rw [Pos.after_append, Pos.after_append]
  have keeps {behind : List Char} (later : FreeBehind before behind)
      (here : kind = .punct "/" → ¬ OpensComment (front ++ behind)) :
      bracketsIn (gap ++ (c :: more ++ front) ++ behind) =
        bracketsAmong (kind :: before.map (·.kind)) ++ bracketsIn behind := by
    rw [List.append_assoc, bracketsIn_gap gapped, List.append_assoc, token.bracketsIn_eq written here,
      apart.keeps behind later, ← List.append_assoc, bracketsAmong, bracketsAmong, bracketsAmong,
      ← List.filter_append]
    rfl
  have scans : Scans (pos.after (gap ++ (c :: more ++ front))) tail later := by
    rw [position]
    exact apart.scans
  cases before with
  | nil =>
    obtain rfl := apart.empty.mp rfl
    refine ⟨by simp, ?_, ?_, ?_, scans⟩
    · rintro last ⟨⟩
      exact position.symm
    · rintro last ⟨⟩
      exact noComment
    · intro behind free
      exact keeps nofun (free _ rfl)
  | cons next before =>
    have someText : front ≠ [] := fun none => List.cons_ne_nil _ _ (apart.empty.mpr none)
    refine ⟨by simp, ?_, ?_, ?_, scans⟩
    · intro last isLast
      rw [position]
      exact apart.stops last isLast
    · exact apart.free
    · intro behind free
      exact keeps free fun slash => not_opensComment_append someText (noComment slash) behind

/-- A text falls apart behind any of its tokens. -/
theorem Scans.fallsApart (scans : Scans pos text (before ++ later)) :
    ∃ front tail, text = front ++ tail ∧ FallsApart pos before later front tail := by
  induction before generalizing pos text with
  | nil => exact ⟨[], text, rfl, by simp, nofun, nofun, fun _ _ => rfl, scans⟩
  | cons token before ih =>
    rw [List.cons_append] at scans
    obtain _ | @⟨_, gap, more, rest, c, kind, _, gapped, read, written, further⟩ := scans
    obtain ⟨front, tail, rfl, apart⟩ := ih further
    have token := readToken_eq_ok_iff.mp read
    exact ⟨gap ++ (c :: more ++ front), tail, by simp, apart.token gapped token written⟩

/-- The brackets of a text are those among its tokens. -/
theorem Scans.bracketsIn_eq {tokens : List Token} (scans : Scans pos text tokens) :
    bracketsIn text = bracketsAmong (tokens.map (·.kind)) := by
  rw [← List.append_nil tokens] at scans
  obtain ⟨front, tail, rfl, apart⟩ := scans.fallsApart
  have none : bracketsIn tail = [] := by
    cases apart.scans with
    | done whole =>
      rw [← bracketsIn_drop_gap, whole, List.drop_length]
      rfl
  rw [apart.keeps tail apart.free, none, List.append_nil]

/-- The same, if the slash ends at a position. -/
def FreeAt (pos : Pos) (before : List Token) (behind : List Char) : Prop :=
  ∀ last ∈ before.getLast?, last.kind = .punct "/" → last.span.stop = pos → ¬ OpensComment behind

/-- In front of a token a text falls apart as well, behind the gap in front of it. -/
theorem Scans.front {first : Token} (scans : Scans pos text (before ++ first :: later)) :
    ∃ front tail, text = front ++ tail ∧ first.span.start = pos.after front ∧
      ∀ behind, FreeAt first.span.start before behind →
        bracketsIn (front ++ behind) = bracketsAmong (before.map (·.kind)) ++ bracketsIn behind := by
  obtain ⟨kept, tail, rfl, apart⟩ := scans.fallsApart
  obtain _ | @⟨_, gap, more, rest, c, kind, _, gapped, read, written, further⟩ := apart.scans
  refine ⟨kept ++ gap, c :: (more ++ rest), by simp, (Pos.after_append _ _ _).symm, ?_⟩
  intro behind free
  have freeGap : FreeBehind before (gap ++ behind) := by
    intro last isLast slash
    cases gap with
    | nil => exact free last isLast slash (apart.stops last isLast)
    | cons d gap => exact not_opensComment_append (List.cons_ne_nil _ _) (apart.free last isLast slash) _
  rw [List.append_assoc, apart.keeps _ freeGap, bracketsIn_gap gapped]

end Scans

section Cuts

variable {text : List Char} {label : Label} {before run after : List Token} {span : Span}

/-- What is left of a text when the span of a run of its tokens is cut out has the brackets of the
tokens around the run, unless a slash directly before the run starts a comment with the rest. -/
theorem SpansRun.cut (spans : SpansRun label before run after) (spanned : label.span = some span)
    (scans : Scans .origin text (before ++ run ++ after)) :
    ∃ kept removed rest, text = kept ++ removed ++ rest ∧
      span = ⟨Pos.origin.after kept, Pos.origin.after (kept ++ removed)⟩ ∧
      (FreeAt span.start before rest →
        bracketsIn (kept ++ rest) = bracketsAmong ((before ++ after).map (·.kind))) := by
  obtain ⟨first, last, head, final, same⟩ := spans.ends
  obtain rfl : ⟨first.span.start, last.span.stop⟩ = span := Option.some.inj (same.symm.trans spanned)
  have starts := scans
  obtain ⟨others, rfl⟩ := List.head?_eq_some_iff.mp head
  rw [List.append_assoc, List.cons_append] at starts
  obtain ⟨kept, tail, whole, start, keeps⟩ := starts.front
  obtain ⟨passed, rest, rfl, apart⟩ := scans.fallsApart
  have stop : last.span.stop = Pos.origin.after passed := by
    apply apart.stops
    rw [List.getLast?_append, final]
    rfl
  have order : first.span.start < last.span.stop := by
    have between := scans.spansBetween
    rw [List.append_assoc, List.map_append] at between
    obtain ⟨middle, -, late⟩ := SpansBetween.append_iff.mp between
    exact (between_branch head final late).2.2.1
  rw [start, stop] at order
  obtain ⟨removed, rfl⟩ :=
    Pos.prefix_of_after_le .origin ⟨tail, whole.symm⟩ (List.prefix_append passed rest) (le_of_lt order)
  refine ⟨kept, removed, rest, rfl, by rw [start, stop], ?_⟩
  intro free
  rw [keeps rest free, apart.scans.bracketsIn_eq, List.map_append, bracketsAmong, bracketsAmong,
    bracketsAmong, List.filter_append]

/-- All drafts below a parsed source lie over runs of its tokens. -/
theorem parse_liesOver {source : String} {draft : Draft} (parsed : parse source = .ok draft)
    {child : Slot × Draft} (member : child ∈ draft.children) :
    AllLieOver child.2 (scan source.toList).tokens := by
  obtain ⟨body, -, covers, rfl⟩ := parse_covers_scan parsed
  have inside : child.2 ∈ (Field.spread [.list "body" body]).map (·.2) := List.mem_map_of_mem member
  simp only [Field.map_snd_spread, List.flatMap_singleton] at inside
  exact covers.liesOver child.2 inside

/-- Every node below the root of a parsed script lies over a run of tokens that starts and ends with it.
The tokens in the run are just those within its span, and they are matched, as the tokens around them
are. So the text without the node has no bracket without a partner, unless a slash stands directly
before the node and a slash or a star directly behind it. -/
theorem nodes_lie_over_matched_runs {id : TreeId} {source : String} {tree : Tree}
    (parsed : (language.parse id source).value = .ok tree) (node : Node)
    (occurs : tree.root.Occurs node) (below : node ≠ tree.root) :
    ∃ span tokens before run after kept removed rest,
      node.label.span = some span ∧ Tokenizer.tokens.of source.toList = .ok tokens ∧
      tokens = before ++ run ++ after ∧ run = tokens.filter (Token.liesIn span) ∧
      (∃ first ∈ run.head?, first.span.start = span.start) ∧
      (∃ last ∈ run.getLast?, last.span.stop = span.stop) ∧
      Matched (run.map (·.kind)) ∧ Matched ((before ++ after).map (·.kind)) ∧
      source.toList = kept ++ removed ++ rest ∧
      span = ⟨Pos.origin.after kept, Pos.origin.after (kept ++ removed)⟩ ∧
      span.deleteFrom? source.toList = some (kept ++ rest) ∧
      (FreeAt span.start before rest → Matched (bracketsIn (kept ++ rest))) := by
  have drafted := (toTree_spec parsed).1
  obtain ⟨-, scans, -, -⟩ := parse_covers_scan drafted
  have lies : LiesOver node.label.toLabel (scan source.toList).tokens := by
    rcases SlotTree.occurs_iff.mp occurs with root | ⟨child, member, occurs⟩
    · exact absurd root below
    · have listed : (child.1, child.2.relabel Numbered.toLabel) ∈
          (tree.root.relabel Numbered.toLabel).children := by
        rw [SlotTree.children_relabel]
        exact List.mem_map_of_mem member
      have lies := parse_liesOver drafted listed _ (occurs.relabel Numbered.toLabel)
      simpa only [SlotTree.label_relabel] using lies
  obtain ⟨before, run, after, tokens, spans⟩ := lies
  obtain ⟨first, last, head, final, spanned⟩ := spans.ends
  rw [tokens] at scans
  obtain ⟨kept, removed, rest, parts, place, keeps⟩ := spans.cut spanned scans
  refine ⟨_, _, before, run, after, kept, removed, rest, spanned, tokens_of_parse drafted, tokens, ?_,
    ⟨first, head, rfl⟩, ⟨last, final, rfl⟩, spans.inside, spans.outside, parts, place, ?_, ?_⟩
  · rw [tokens]
    exact spans.run_eq_filter spanned scans.spansBetween
  · rw [place, parts]
    exact Span.deleteFrom?_of_prefix kept removed rest
  · intro free
    rw [keeps free]
    exact spans.outside.bracketsAmong

private theorem exists_node_at {source : String} {span : Span}
    (found : (language.parse 0 source).value.toOption.map (fun tree =>
      tree.root.label.span ≠ some span && tree.root.subtrees.any (·.label.span = some span)) =
        some true) :
    ∃ tree node, (language.parse 0 source).value = .ok tree ∧ tree.root.Occurs node ∧
      node ≠ tree.root ∧ node.label.span = some span := by
  obtain ⟨tree, accepted, facts⟩ := Option.map_eq_some_iff.mp found
  have parsed : (language.parse 0 source).value = .ok tree := by
    cases result : (language.parse 0 source).value <;> simp_all [Except.toOption]
  simp only [Bool.and_eq_true, decide_eq_true_eq, List.any_eq_true] at facts
  obtain ⟨other, node, listed, spanned⟩ := facts
  have below : node ≠ tree.root := by
    rintro rfl
    exact other spanned
  exact ⟨tree, node, parsed, SlotTree.mem_subtrees_iff.mp listed, below, spanned⟩

theorem cut_behind_slash_stays_matched :
    ∃ tree node, (language.parse 0 "f(a / g[x], '(')").value = .ok tree ∧ tree.root.Occurs node ∧
      node.label.span = some ⟨⟨1, 6⟩, ⟨1, 10⟩⟩ ∧
      ∃ left, Span.deleteFrom? ⟨⟨1, 6⟩, ⟨1, 10⟩⟩ "f(a / g[x], '(')".toList = some left ∧
        Matched (bracketsIn left) := by
  obtain ⟨tree, node, parsed, occurs, below, spanned⟩ : ∃ tree node,
      (language.parse 0 "f(a / g[x], '(')").value = .ok tree ∧ tree.root.Occurs node ∧
        node ≠ tree.root ∧ node.label.span = some ⟨⟨1, 6⟩, ⟨1, 10⟩⟩ :=
    exists_node_at (by decide +kernel)
  obtain ⟨span, _, before, run, after, kept, removed, rest, same, tokenized, rfl, -, -, -, -, -, -, -,
    left, matched⟩ := nodes_lie_over_matched_runs parsed node occurs below
  obtain rfl : span = ⟨⟨1, 6⟩, ⟨1, 10⟩⟩ := Option.some.inj (same.symm.trans spanned)
  have apart : ∀ token ∈ (scan "f(a / g[x], '(')".toList).tokens,
      token.kind = .punct "/" → token.span.stop ≠ ⟨1, 6⟩ := by
    decide +kernel
  have free : FreeAt ⟨1, 6⟩ before rest := by
    intro last isLast slash stops
    have member : last ∈ (scan "f(a / g[x], '(')".toList).tokens := by
      rw [Tokenizer.tokens_of_eq_ok_iff.mp tokenized, List.append_assoc]
      exact List.mem_append_left _ (List.mem_of_getLast? isLast)
    exact absurd stops (apart last member slash)
  exact ⟨tree, node, parsed, occurs, spanned, _, left, matched free⟩

private theorem not_matched_single {kind : TokenKind} (isBracket : kind.isBracket = true) :
    ¬ Matched [kind] := by
  intro matched
  generalize alone : [kind] = kinds at matched
  cases matched with
  | nil => cases alone
  | token _ plain _ =>
    obtain ⟨rfl, -⟩ := List.cons.inj alone
    rw [isBracket] at plain
    cases plain
  | pair => simp at alone

/-- The slashes around an operand start a comment when it is cut, and the comment hides a bracket. -/
theorem cut_between_slashes_hides_bracket :
    ∃ tree node span left, (language.parse 0 "f(a/x/b)").value = .ok tree ∧
      tree.root.Occurs node ∧ node ≠ tree.root ∧ node.label.span = some span ∧
      span.deleteFrom? "f(a/x/b)".toList = some left ∧ ¬ Matched (bracketsIn left) := by
  obtain ⟨tree, node, parsed, occurs, below, spanned⟩ : ∃ tree node,
      (language.parse 0 "f(a/x/b)").value = .ok tree ∧ tree.root.Occurs node ∧
        node ≠ tree.root ∧ node.label.span = some ⟨⟨1, 4⟩, ⟨1, 5⟩⟩ :=
    exists_node_at (by decide +kernel)
  have left : Span.deleteFrom? ⟨⟨1, 4⟩, ⟨1, 5⟩⟩ "f(a/x/b)".toList = some "f(a//b)".toList := by
    decide +kernel
  have brackets : bracketsIn "f(a//b)".toList = [.punct "("] := by
    decide +kernel
  refine ⟨tree, node, _, _, parsed, occurs, below, spanned, left, ?_⟩
  rw [brackets]
  exact not_matched_single (by decide)

end Cuts

end SyntaxNav.Script

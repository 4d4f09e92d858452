import SyntaxNav.Proofs.Script.StableLengths

/-! # Tokens between blanks

Before a space, a newline or the end of the text, every token is read again as it was. `respace` writes
tokens with one blank in front of each; scanning what it writes gives tokens of the same kinds with the
same newlines before them.
-/

namespace SyntaxNav.Script

variable {c : Char} {more rest after : List Char} {kind : TokenKind}

section Heads

/-- A character behind the first one is the same whatever follows the token, unless it is a blank. -/
theorem head?_append_separated (separated : Separated after) {d : Char} (space : d ≠ ' ')
    (newline : d ≠ '\n') (behind : (more ++ after).head? = some d) : (more ++ rest).head? = some d := by
  cases more with
  | nil => exact ((separated d behind).elim space newline).elim
  | cons e more => exact behind

/-- Before a blank, only a digit starts a number. -/
theorem startsNumber_of_separated (c : Char) (separated : Separated after) :
    startsNumber c after = c.isDigit := by
  rcases separated.cases with rfl | ⟨rest, rfl | rfl⟩ <;> simp [startsNumber]

private theorem not_startsNumber_separated (noNumber : startsNumber c (more ++ rest) = false)
    (separated : Separated after) : startsNumber c (more ++ after) = false := by
  cases more with
  | nil =>
    rw [List.nil_append, startsNumber_of_separated c separated]
    exact (Bool.or_eq_false_iff.mp noNumber).1
  | cons d more => exact noNumber

private theorem startsNumber_separated (starts : startsNumber c (more ++ rest) = true)
    (length : numberLength (c :: (more ++ rest)) = (c :: more).length) (separated : Separated after) :
    startsNumber c (more ++ after) = true := by
  cases more with
  | nil =>
    rw [List.nil_append, startsNumber_of_separated c separated]
    rcases Bool.or_eq_true_iff.mp starts with digit | point
    · exact digit
    -- A lone point is no number, so this one would have to be longer.
    · simp only [List.nil_append, Bool.and_eq_true, decide_eq_true_eq, Option.any_eq_true] at point
      obtain ⟨rfl, digit, starts, isDigit⟩ := point
      obtain ⟨others, rfl⟩ := List.head?_eq_some_iff.mp starts
      have longer := two_le_numberLength isDigit others
      rw [List.nil_append, List.length_singleton] at length
      omega
  | cons d more => exact starts

end Heads

/-- A string ends in its text. -/
theorem stringLength?_le {quote : Char} {text : List Char} {length : Nat}
    (closed : stringLength? quote text = some length) : length ≤ text.length := by
  fun_induction stringLength? quote text generalizing length with
  | case1 | case2 | case3 => cases closed
  | case4 _ d rest ih =>
    obtain ⟨inner, ends, rfl⟩ := Option.map_eq_some_iff.mp closed
    have shorter := ih ends
    simp only [List.length_cons]
    omega
  | case5 =>
    cases closed
    simp only [List.length_cons]
    omega
  | case6 c rest _ _ _ ih =>
    obtain ⟨inner, ends, rfl⟩ := Option.map_eq_some_iff.mp closed
    have shorter := ih ends
    simp only [List.length_cons]
    omega

/-- A closed string is read again, whatever follows it. -/
theorem stringLength?_take {quote : Char} {text : List Char} {length : Nat}
    (closed : stringLength? quote text = some length) (after : List Char) :
    stringLength? quote (text.take length ++ after) = some length := by
  fun_induction stringLength? quote text generalizing length with
  | case1 | case2 | case3 => cases closed
  | case4 _ d rest ih =>
    obtain ⟨inner, ends, rfl⟩ := Option.map_eq_some_iff.mp closed
    simp [stringLength?, ih ends]
  | case5 rest noNewline noEscape =>
    cases closed
    rw [stringLength?.eq_def]
    simp [noNewline, noEscape]
  | case6 c rest noNewline noEscape noQuote ih =>
    obtain ⟨inner, ends, rfl⟩ := Option.map_eq_some_iff.mp closed
    rw [List.take_succ_cons, List.cons_append, stringLength?.eq_def]
    simp [noNewline, noEscape, noQuote, ih ends]

/-- No punctuator contains a blank. -/
theorem punctuators_unspaced : ∀ punct ∈ punctuators, ∀ d ∈ punct.toList, d ≠ ' ' ∧ d ≠ '\n' := by
  have checked : punctuators.all (fun punct => punct.toList.all fun d =>
      decide (d ≠ ' ' ∧ d ≠ '\n')) = true := by
    decide
  intro punct member d inside
  have unspaced := List.all_eq_true.mp checked punct member
  exact of_decide_eq_true (List.all_eq_true.mp unspaced d inside)

/-- A front without blanks does not reach into what stands behind a blank. -/
theorem prefix_of_unspaced {front text : List Char} (isFront : front <+: text ++ after)
    (unspaced : ∀ d ∈ front, d ≠ ' ' ∧ d ≠ '\n') (separated : Separated after) : front <+: text := by
  obtain ⟨tail, whole⟩ := isFront
  rcases List.append_eq_append_iff.mp whole with ⟨others, rfl, -⟩ | ⟨others, rfl, rfl⟩
  · exact List.prefix_append _ _
  · cases others with
    | nil => exact ⟨[], by rw [List.append_nil, List.append_nil]⟩
    | cons d others =>
      obtain ⟨space, newline⟩ := unspaced d (List.mem_append_right _ List.mem_cons_self)
      exact ((separated d rfl).elim space newline).elim

/-- The punctuator that is found has the whole token, so the longer ones still do not fit. -/
theorem find_punct_separated {punct : String} (written : punct.toList = c :: more)
    (found : punctuators.find? (·.toList.isPrefixOf (c :: (more ++ rest))) = some punct)
    (separated : Separated after) :
    punctuators.find? (·.toList.isPrefixOf (c :: (more ++ after))) = some punct := by
  obtain ⟨-, longer, shorter, listed, unfit⟩ := List.find?_eq_some_iff_append.mp found
  refine List.find?_eq_some_iff_append.mpr ⟨?_, longer, shorter, listed, fun other member => ?_⟩
  · rw [List.isPrefixOf_iff_prefix, written]
    exact List.prefix_append (c :: more) after
  · have unspaced := punctuators_unspaced other (listed ▸ List.mem_append_left _ member)
    simp only [Bool.not_eq_true', Bool.eq_false_iff, ne_eq, List.isPrefixOf_iff_prefix] at unfit ⊢
    intro fits
    have inside : other.toList <+: c :: more := prefix_of_unspaced fits unspaced separated
    exact unfit other member (inside.trans (List.prefix_append (c :: more) rest))

/-- A token is read again if a blank or nothing follows it. -/
theorem TokenAt.separated (token : TokenAt c (more ++ rest) kind)
    (written : kind.text.toList = c :: more) (separated : Separated after) :
    TokenAt c (more ++ after) kind := by
  cases token with
  | @string length quote closed =>
    simp only [TokenKind.text, String.toList_ofList, List.cons.injEq, true_and] at written
    have size : length = more.length := by
      rw [← written, List.length_take_of_le (stringLength?_le closed)]
    have again := stringLength?_take closed after
    rw [written] at again ⊢
    have token := TokenAt.string quote again
    rwa [size, List.take_left] at token
  | number starts =>
    simp only [TokenKind.text, String.toList_ofList] at written
    have size : numberLength (c :: (more ++ rest)) = (c :: more).length := by
      rw [← List.length_take_of_le (bounded_numberLength (c :: (more ++ rest))), written]
    have again : numberLength (c :: more ++ after) = (c :: more).length :=
      (stable_numberLength (Nat.le_of_eq size) separated).trans size
    rw [written]
    have token := TokenAt.number (startsNumber_separated starts size separated)
    rwa [← List.cons_append, again, List.take_left] at token
  | word noNumber starts =>
    simp only [TokenKind.text, String.toList_ofList] at written
    have parts : ∀ d ∈ c :: more, isWordPart d = true := by
      rw [← written]
      exact List.all_eq_true.mp List.all_takeWhile
    rw [written]
    have token := TokenAt.word (not_startsNumber_separated noNumber separated) starts
    rwa [← List.cons_append, List.takeWhile_append_of_pos parts,
      separated.takeWhile (by decide) (by decide), List.append_nil] at token
  | @punct punct noComment noNumber found =>
    simp only [TokenKind.text] at written
    refine .punct ?_ (not_startsNumber_separated noNumber separated) ?_
    · rintro ⟨slash, star⟩
      exact noComment ⟨slash, head?_append_separated separated (by decide) (by decide) star⟩
    · exact find_punct_separated written found separated

section Gaps

/-- Behind a gap no further gap starts. -/
theorem gapLength_drop_gap (text : List Char) : gapLength (text.drop (gapLength text)) = 0 := by
  fun_induction gapLength text with
  | case1 rest line ih =>
    rwa [Nat.add_assoc, Nat.add_comm 2, List.drop_succ_cons, List.drop_succ_cons,
      ← List.drop_drop]
  | case2 rest opened => rw [List.drop_zero, gapLength, opened]
  | case3 rest comment closed ih =>
    rwa [Nat.add_assoc, Nat.add_comm 2, List.drop_succ_cons, List.drop_succ_cons,
      ← List.drop_drop]
  | case4 c rest _ _ _ ih => rwa [Nat.add_comm 1, List.drop_succ_cons]
  | case5 c rest noLine noBlock notBlank =>
    rw [List.drop_zero, gapLength, if_neg notBlank]
    · exact noLine
    · exact noBlock
  | case6 => rw [List.drop_nil, gapLength]

/-- No token starts as a comment does. -/
theorem TokenAt.no_comment (token : TokenAt c rest kind) : ¬(c = '/' ∧ rest.head? = some '*') := by
  intro comment
  have read := readToken_eq_ok_iff.mpr token
  rw [readToken, if_pos comment] at read
  cases read

/-- At a character that starts no comment, a gap starts only if the character is a blank. -/
theorem gapLength_of_no_comment {text : List Char} (noLine : ¬(c = '/' ∧ text.head? = some '/'))
    (noBlock : ¬(c = '/' ∧ text.head? = some '*')) :
    gapLength (c :: text) = if Text.isBlank c then 1 + gapLength text else 0 := by
  rw [gapLength]
  · rintro others slash rfl
    exact noLine ⟨slash, rfl⟩
  · rintro others slash rfl
    exact noBlock ⟨slash, rfl⟩

/-- No gap starts at a token if a blank or nothing follows it. -/
theorem gapLength_separated (token : TokenAt c (more ++ rest) kind)
    (noGap : gapLength (c :: (more ++ rest)) = 0) (separated : Separated after) :
    gapLength (c :: (more ++ after)) = 0 := by
  have noLine : ¬(c = '/' ∧ (more ++ rest).head? = some '/') := by
    rintro ⟨rfl, slash⟩
    obtain ⟨others, whole⟩ := List.head?_eq_some_iff.mp slash
    rw [whole, gapLength] at noGap
    omega
  have notBlank : Text.isBlank c = false := by
    rw [gapLength_of_no_comment noLine token.no_comment] at noGap
    split at noGap
    · omega
    · exact Bool.eq_false_iff.mpr ‹_›
  rw [gapLength_of_no_comment, notBlank]
  · rfl
  · rintro ⟨rfl, slash⟩
    exact noLine ⟨rfl, head?_append_separated separated (by decide) (by decide) slash⟩
  · rintro ⟨rfl, star⟩
    exact token.no_comment ⟨rfl, head?_append_separated separated (by decide) (by decide) star⟩

end Gaps

/-- The blank in front of a token that is written again. -/
def Token.blank (token : Token) : Char :=
  if token.newlineBefore then '\n' else ' '

def respace (tokens : List Token) : List Char :=
  tokens.flatMap fun token => token.blank :: token.kind.text.toList

theorem respace_cons (token : Token) (tokens : List Token) :
    respace (token :: tokens) = token.blank :: (token.kind.text.toList ++ respace tokens) := by
  rw [respace, List.flatMap_cons, List.cons_append, respace]

private theorem Token.blank_cases (token : Token) :
    (token.newlineBefore = true ∧ token.blank = '\n') ∨
      (token.newlineBefore = false ∧ token.blank = ' ') := by
  unfold Token.blank
  cases token.newlineBefore with
  | true => exact .inl ⟨rfl, rfl⟩
  | false => exact .inr ⟨rfl, rfl⟩

/-- Tokens written with blanks start with a blank, if there are any. -/
theorem respace_separated (tokens : List Token) : Separated (respace tokens) := by
  cases tokens with
  | nil =>
    intro c starts
    cases starts
  | cons token tokens =>
    rw [respace_cons]
    intro c starts
    cases starts
    rcases token.blank_cases with ⟨-, blank⟩ | ⟨-, blank⟩
    · exact .inr blank
    · exact .inl blank

private theorem Token.contains_blank (token : Token) : [token.blank].contains '\n' = token.newlineBefore := by
  rcases token.blank_cases with ⟨flag, blank⟩ | ⟨flag, blank⟩ <;> rw [flag, blank] <;> rfl

private theorem gapLength_blank (token : Token) (text : List Char) :
    gapLength (token.blank :: text) = 1 + gapLength text := by
  have facts : token.blank ≠ '/' ∧ Text.isBlank token.blank = true := by
    rcases token.blank_cases with ⟨-, blank⟩ | ⟨-, blank⟩ <;> rw [blank] <;> decide
  rw [gapLength_of_no_comment (fun line => facts.1 line.1) (fun block => facts.1 block.1),
    if_pos facts.2]

/-- What tells a token from another apart from its position. -/
def Token.content (token : Token) : TokenKind × Bool :=
  (token.kind, token.newlineBefore)

/-- One token is scanned again from what is written for it. -/
theorem Scans.respace_step {token : Token} {tokens again : List Token} {pos : Pos}
    (tokenAt : TokenAt c (more ++ rest) token.kind) (written : token.kind.text.toList = c :: more)
    (noGap : gapLength (c :: (more ++ rest)) = 0)
    (later : Scans ((pos.after [token.blank]).after (c :: more)) (respace tokens) again) :
    Scans pos (respace (token :: tokens))
      (⟨token.kind, ⟨pos.after [token.blank], (pos.after [token.blank]).after (c :: more)⟩,
        token.newlineBefore⟩ :: again) := by
  have separated := respace_separated tokens
  have oneBlank : gapLength ([token.blank] ++ c :: (more ++ respace tokens)) =
      [token.blank].length := by
    rw [List.singleton_append, gapLength_blank, gapLength_separated tokenAt noGap separated]
    rfl
  have read := readToken_eq_ok_iff.mpr (tokenAt.separated written separated)
  have scans := Scans.token oneBlank read written later
  rw [token.contains_blank] at scans
  rw [respace_cons, written]
  exact scans

/-- A token that can be read from some text, at a place where no gap starts. -/
def Legible (kind : TokenKind) : Prop :=
  ∃ c more rest, TokenAt c (more ++ rest) kind ∧ kind.text.toList = c :: more ∧
    gapLength (c :: (more ++ rest)) = 0

/-- Every token of a text is legible. -/
theorem Scans.legible {pos : Pos} {text : List Char} {tokens : List Token}
    (scans : Scans pos text tokens) : ∀ token ∈ tokens, Legible token.kind := by
  induction scans with
  | done => exact List.forall_mem_nil _
  | @token pos gap more rest c kind tokens skipped read written later ih =>
    have noGap : gapLength (c :: (more ++ rest)) = 0 := by
      have behind := gapLength_drop_gap (gap ++ c :: (more ++ rest))
      rwa [skipped, List.drop_left] at behind
    exact List.forall_mem_cons.mpr
      ⟨⟨c, more, rest, readToken_eq_ok_iff.mp read, written, noGap⟩, ih⟩

/-- Legible tokens are scanned as they are written. -/
theorem scans_respace {tokens : List Token} (legible : ∀ token ∈ tokens, Legible token.kind) (pos : Pos) :
    ∃ again, Scans pos (respace tokens) again ∧
      again.map Token.content = tokens.map Token.content := by
  induction tokens generalizing pos with
  | nil => exact ⟨[], .done (by rw [respace, List.flatMap_nil, gapLength, List.length_nil]), rfl⟩
  | cons token tokens ih =>
    obtain ⟨⟨c, more, rest, tokenAt, text, noGap⟩, later⟩ := List.forall_mem_cons.mp legible
    obtain ⟨again, scans, same⟩ := ih later _
    refine ⟨_, .respace_step tokenAt text noGap scans, ?_⟩
    rw [List.map_cons, List.map_cons, same]
    rfl

/-- Tokens that are written again are scanned again, at other positions. -/
theorem Scans.respaced {pos : Pos} {text : List Char} {tokens : List Token}
    (scans : Scans pos text tokens) (newPos : Pos) :
    ∃ again, Scans newPos (respace tokens) again ∧
      again.map Token.content = tokens.map Token.content :=
  scans_respace scans.legible newPos

end SyntaxNav.Script

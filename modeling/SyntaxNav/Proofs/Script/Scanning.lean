import Mathlib.Data.List.Basic
import SyntaxNav.Proofs.Text.Positions
import SyntaxNav.Proofs.Script.Scanner

/-! # Scans without a fault

A text without a faulty token is a sequence of gaps and tokens with a gap behind the last one.
`Scans` says so: a gap is as long as it can be, and behind it stands the text of the token that is read
there. The spans of the tokens are the positions before and after their texts, so tokens follow one
another without overlap.
-/

namespace SyntaxNav.Script

variable {c : Char} {rest : List Char} {kind : TokenKind}

section Reading

/-- A number with a marked base is a zero, a letter of either case and at least one digit. -/
theorem basedLength?_eq_some_iff {lower upper : Char} {isDigit : Char → Bool} {text : List Char}
    {length : Nat} : basedLength? lower upper isDigit text = some length ↔
      ∃ mark rest, text = '0' :: mark :: rest ∧ (mark = lower ∨ mark = upper) ∧
        (rest.takeWhile isDigit).length ≠ 0 ∧ length = 2 + (rest.takeWhile isDigit).length := by
  constructor
  · intro based
    unfold basedLength? at based
    split at based
    · rename_i mark rest
      obtain ⟨⟨isMark, someDigit⟩, same⟩ := Option.ite_none_right_eq_some.mp based
      exact ⟨mark, rest, rfl, isMark, someDigit, (Option.some.inj same).symm⟩
    · cases based
  · rintro ⟨mark, rest, rfl, isMark, someDigit, rfl⟩
    exact if_pos ⟨isMark, someDigit⟩

private theorem basedLength?_pos {lower upper : Char} {isDigit : Char → Bool} {text : List Char}
    {length : Nat} (based : basedLength? lower upper isDigit text = some length) : 0 < length := by
  obtain ⟨mark, rest, -, -, -, rfl⟩ := basedLength?_eq_some_iff.mp based
  omega

/-- ASCII digits are decimal digits. -/
theorem isDecimalDigit_of_isDigit (digit : c.isDigit = true) : Text.isDecimalDigit c = true := by
  simp only [Char.isDigit, Bool.and_eq_true, decide_eq_true_eq, ge_iff_le,
    UInt32.le_iff_toNat_le] at digit
  refine List.any_eq_true.mpr ⟨(0x30, 0x39), List.mem_cons_self, ?_⟩
  simp only [Bool.and_eq_true, decide_eq_true_eq]
  exact digit

private theorem decimalLength_pos (starts : startsNumber c rest = true) :
    0 < decimalLength (c :: rest) := by
  unfold decimalLength
  simp only [startsNumber, Bool.or_eq_true, Bool.and_eq_true, decide_eq_true_eq] at starts
  rcases starts with digit | ⟨rfl, _⟩
  · rw [List.takeWhile_cons_of_pos (isDecimalDigit_of_isDigit digit)]
    simp only [List.length_cons]
    omega
  · rw [List.takeWhile_cons_of_neg (by decide)]
    simp only [List.length_nil, List.drop_zero, fractionLength]
    omega

private theorem numberLength_pos (starts : startsNumber c rest = true) :
    0 < numberLength (c :: rest) := by
  have decimal := decimalLength_pos starts
  unfold numberLength
  generalize based : (basedLength? 'x' 'X' isHexDigit (c :: rest)
    <|> basedLength? 'b' 'B' (fun c => c = '0' || c = '1') (c :: rest)
    <|> basedLength? 'o' 'O' (fun c => '0' ≤ c && c ≤ '7') (c :: rest)) = length?
  have positive : 0 < length?.getD (decimalLength (c :: rest)) := by
    cases length? with
    | none => exact decimal
    | some length =>
      simp only [Option.orElse_eq_orElse, Option.orElse_eq_or, Option.or_eq_some_iff] at based
      rcases based with based | ⟨_, based | ⟨_, based⟩⟩
      · exact basedLength?_pos based
      · exact basedLength?_pos based
      · exact basedLength?_pos based
  simp only
  split <;> omega

private theorem take_front {length : Nat} (positive : 0 < length) :
    ∃ more tail, rest = more ++ tail ∧ (c :: rest).take length = c :: more := by
  obtain ⟨length, rfl⟩ := Nat.exists_eq_add_of_lt positive
  refine ⟨rest.take length, rest.drop length, (List.take_append_drop _ _).symm, ?_⟩
  rw [Nat.zero_add, List.take_succ_cons]

private theorem isWordPart_of_isWordStart (start : isWordStart c = true) : isWordPart c = true := by
  simp only [isWordStart, isWordPart, Char.isAlphanum, Bool.or_eq_true] at start ⊢
  tauto

private theorem punctuators_ne_empty : ∀ punct ∈ punctuators, punct.toList ≠ [] := by
  decide

/-- What the first character of a punctuator is not. -/
theorem punctuators_head : ∀ punct ∈ punctuators, ∀ c ∈ punct.toList.head?,
    ¬(c = '\x22' ∨ c = '\x27') ∧ c ≠ '\x60' ∧ isWordStart c = false := by
  have checked : punctuators.all (fun punct => punct.toList.head?.all fun c =>
      decide (¬(c = '\x22' ∨ c = '\x27') ∧ c ≠ '\x60' ∧ isWordStart c = false)) = true := by
    decide
  intro punct member c first
  have starts := List.all_eq_true.mp checked punct member
  exact of_decide_eq_true ((Option.all_eq_true _ _).mp starts c first)

/-- Which token stands at the front of a text that starts with no gap. -/
inductive TokenAt (c : Char) (rest : List Char) : TokenKind → Prop
  | string {length : Nat} : c = '\x22' ∨ c = '\x27' → stringLength? c rest = some length →
      TokenAt c rest (.string (String.ofList (c :: rest.take length)))
  | number : startsNumber c rest = true →
      TokenAt c rest (.number (String.ofList ((c :: rest).take (numberLength (c :: rest)))))
  | word : startsNumber c rest = false → isWordStart c = true →
      TokenAt c rest (.word (String.ofList ((c :: rest).takeWhile isWordPart)))
  | punct {punct : String} : ¬(c = '/' ∧ rest.head? = some '*') → startsNumber c rest = false →
      punctuators.find? (·.toList.isPrefixOf (c :: rest)) = some punct →
      TokenAt c rest (.punct punct)

private theorem find_punct {punct : String} {text : List Char}
    (found : punctuators.find? (·.toList.isPrefixOf text) = some punct) :
    punct ∈ punctuators ∧ punct.toList <+: text := by
  have isFront := List.find?_some found
  exact ⟨List.mem_of_find?_eq_some found, List.isPrefixOf_iff_prefix.mp isFront⟩

/-- What the first character of a number or a word is not. -/
private theorem wordlike_start (rest : List Char)
    (starts : startsNumber c rest = true ∨ isWordStart c = true) :
    c ≠ '/' ∧ ¬(c = '\x22' ∨ c = '\x27') ∧ c ≠ '\x60' := by
  refine ⟨?_, ?_, ?_⟩
  · rintro rfl
    exact starts.elim Bool.false_ne_true (by decide)
  · rintro (rfl | rfl) <;> exact starts.elim Bool.false_ne_true (by decide)
  · rintro rfl
    exact starts.elim Bool.false_ne_true (by decide)

private theorem TokenAt.of_readToken (read : readToken c rest = .ok kind) : TokenAt c rest kind := by
  unfold readToken at read
  simp only at read
  split at read
  · cases read
  split at read
  · split at read
    · cases read
      exact .string ‹_› ‹_›
    · cases read
  split at read
  · cases read
  split at read
  · cases read
    exact .number ‹_›
  split at read
  · cases read
    exact .word (Bool.eq_false_iff.mpr ‹_›) ‹_›
  split at read
  · cases read
    exact .punct ‹_› (Bool.eq_false_iff.mpr ‹_›) ‹_›
  · cases read

private theorem TokenAt.readToken_eq (token : TokenAt c rest kind) : readToken c rest = .ok kind := by
  unfold readToken
  simp only
  cases token with
  | string quote closed =>
    have noComment : ¬(c = '/' ∧ rest.head? = some '*') := by
      rintro ⟨rfl, -⟩
      exact absurd quote (by decide)
    rw [if_neg noComment, if_pos quote, closed]
    rfl
  | number starts =>
    obtain ⟨noComment, noQuote, noTemplate⟩ := wordlike_start rest (.inl starts)
    rw [if_neg (fun both => noComment both.1), if_neg noQuote, if_neg noTemplate, if_pos starts]
  | word noNumber starts =>
    obtain ⟨noComment, noQuote, noTemplate⟩ := wordlike_start rest (.inr starts)
    rw [if_neg (fun both => noComment both.1), if_neg noQuote, if_neg noTemplate,
      if_neg (Bool.eq_false_iff.mp noNumber), if_pos starts]
  | @punct punct noComment noNumber found =>
    obtain ⟨member, tail, whole⟩ := find_punct found
    obtain ⟨first, more, text⟩ := List.exists_cons_of_ne_nil (punctuators_ne_empty punct member)
    have starts : c ∈ punct.toList.head? := by
      rw [text, List.cons_append, List.cons.injEq] at whole
      rw [text, List.head?_cons, whole.1]
      rfl
    obtain ⟨noQuote, noTemplate, noWord⟩ := punctuators_head punct member c starts
    rw [if_neg noComment, if_neg noQuote, if_neg noTemplate,
      if_neg (Bool.eq_false_iff.mp noNumber), if_neg (Bool.eq_false_iff.mp noWord), found]

/-- What is read as a token is what the rules say of its text. -/
theorem readToken_eq_ok_iff : readToken c rest = .ok kind ↔ TokenAt c rest kind :=
  ⟨.of_readToken, TokenAt.readToken_eq⟩

/-- The text of a token stands at the front of what it is read from, and it is not empty. -/
theorem TokenAt.front (token : TokenAt c rest kind) :
    ∃ more tail, rest = more ++ tail ∧ kind.text.toList = c :: more := by
  cases token with
  | string quote closed =>
    simp only [TokenKind.text, String.toList_ofList]
    exact ⟨_, _, (List.take_append_drop _ _).symm, rfl⟩
  | number starts =>
    simp only [TokenKind.text, String.toList_ofList]
    exact take_front (numberLength_pos starts)
  | word noNumber start =>
    simp only [TokenKind.text, String.toList_ofList,
      List.takeWhile_cons_of_pos (isWordPart_of_isWordStart start)]
    exact ⟨_, _, (List.takeWhile_append_dropWhile).symm, rfl⟩
  | @punct punct noComment noNumber found =>
    obtain ⟨member, tail, whole⟩ := find_punct found
    obtain ⟨first, more, text⟩ := List.exists_cons_of_ne_nil (punctuators_ne_empty punct member)
    rw [text, List.cons_append, List.cons.injEq] at whole
    obtain ⟨rfl, rfl⟩ := whole
    exact ⟨more, tail, rfl, text⟩

end Reading

section Gaps

/-- A comment ends in its text. -/
theorem commentLength?_le {text : List Char} {length : Nat}
    (closed : commentLength? text = some length) : length ≤ text.length := by
  induction text using commentLength?.induct generalizing length with
  | case1 => cases closed
  | case2 rest =>
    cases closed
    simp
  | case3 c rest _ ih =>
    simp only [commentLength?] at closed
    obtain ⟨inner, ends, rfl⟩ := Option.map_eq_some_iff.mp closed
    have shorter := ih ends
    simp only [List.length_cons]
    omega

/-- A gap ends in its text. -/
theorem gapLength_le (text : List Char) : gapLength text ≤ text.length := by
  fun_induction gapLength text with
  | case1 rest line ih =>
    have fits : line ≤ rest.length := (List.takeWhile_prefix _).length_le
    simp only [List.length_drop, List.length_cons] at ih ⊢
    omega
  | case3 rest comment closed ih =>
    have fits := commentLength?_le closed
    simp only [List.length_drop, List.length_cons] at ih ⊢
    omega
  | case4 c rest _ _ _ ih =>
    simp only [List.length_cons]
    omega
  | case2 | case5 | case6 => exact Nat.zero_le _

end Gaps

/-- What a scanner finds in front of it, and the scanner behind that: a gap that is as long as it can
be, with nothing, a fault or a token behind it. -/
inductive Scanner.Finds : Scanner → Option (Except Error Token) × Scanner → Prop
  | nothing {pos : Pos} {gap : List Char} : gapLength gap = gap.length →
      Finds ⟨pos, gap⟩ (none, ⟨pos.after gap, []⟩)
  | fault {pos : Pos} {gap rest : List Char} {c : Char} {fault : Fault} :
      gapLength (gap ++ c :: rest) = gap.length → readToken c rest = .error fault →
      Finds ⟨pos, gap ++ c :: rest⟩ (some (.error ⟨pos.after gap, fault⟩), ⟨pos.after gap, []⟩)
  | token {pos : Pos} {gap more rest : List Char} {c : Char} {kind : TokenKind} :
      gapLength (gap ++ c :: (more ++ rest)) = gap.length →
      readToken c (more ++ rest) = .ok kind → kind.text.toList = c :: more →
      Finds ⟨pos, gap ++ c :: (more ++ rest)⟩
        (some (.ok ⟨kind, ⟨pos.after gap, (pos.after gap).after (c :: more)⟩, gap.contains '\n'⟩),
          ⟨(pos.after gap).after (c :: more), rest⟩)

private theorem drop_token_text {more rest : List Char} (written : kind.text.toList = c :: more) :
    (more ++ rest).drop (kind.text.length - 1) = rest := by
  rw [← String.length_toList, written]
  exact List.drop_left

/-- A step of a scan finds what the rules say. -/
theorem Scanner.next_finds (scanner : Scanner) : scanner.Finds scanner.next := by
  obtain ⟨pos, text⟩ := scanner
  have fits := gapLength_le text
  have size : (text.take (gapLength text)).length = gapLength text := List.length_take_of_le fits
  have whole : text = text.take (gapLength text) ++ text.drop (gapLength text) :=
    (List.take_append_drop _ _).symm
  unfold next
  simp only
  generalize text.take (gapLength text) = gap at size whole ⊢
  split
  · rename_i behind
    rw [behind, List.append_nil] at whole
    subst whole
    exact .nothing size.symm
  · rename_i c rest behind
    rw [behind] at whole
    subst whole
    split
    · rename_i fault failed
      exact .fault size.symm failed
    · rename_i kind read
      obtain ⟨more, tail, rfl, written⟩ := (readToken_eq_ok_iff.mp read).front
      simp only [drop_token_text written, written]
      exact .token size.symm read written

private theorem Scanner.Finds.next_eq {scanner : Scanner} {found : Option (Except Error Token) × Scanner}
    (finds : scanner.Finds found) : scanner.next = found := by
  unfold next
  cases finds with
  | nothing whole => simp only [whole, List.take_length, List.drop_length]
  | fault gapped failed => simp only [gapped, List.take_left, List.drop_left, failed]
  | token gapped read written =>
    simp only [gapped, List.take_left, List.drop_left, read, drop_token_text written, written]

/-- A step of a scan is told by the rules. -/
theorem Scanner.next_eq_iff {scanner : Scanner} {found : Option (Except Error Token) × Scanner} :
    scanner.next = found ↔ scanner.Finds found :=
  ⟨fun same => same ▸ scanner.next_finds, Finds.next_eq⟩

/-- A scan ends where nothing is found. -/
theorem scanFrom_of_nothing {pos : Pos} {text : List Char} {later : Scanner}
    (found : Scanner.next ⟨pos, text⟩ = (none, later)) : scanFrom pos text = ⟨[], none⟩ := by
  unfold scanFrom
  split <;> simp_all

/-- A scan ends where a step fails. -/
theorem scanFrom_of_error {pos : Pos} {text : List Char} {error : Error} {later : Scanner}
    (found : Scanner.next ⟨pos, text⟩ = (some (.error error), later)) :
    scanFrom pos text = ⟨[], some error⟩ := by
  unfold scanFrom
  split <;> simp_all

/-- A scan goes on behind a token that was found. -/
theorem scanFrom_of_token {pos : Pos} {text : List Char} {token : Token} {later : Scanner}
    (found : Scanner.next ⟨pos, text⟩ = (some (.ok token), later)) :
    scanFrom pos text = ⟨token :: (scanFrom later.pos later.rest).tokens,
      (scanFrom later.pos later.rest).error⟩ := by
  rw [scanFrom]
  split <;> simp_all

/-- Tokens are scanned from a text that starts at a position, without a fault. -/
inductive Scans : Pos → List Char → List Token → Prop
  | done {pos : Pos} {gap : List Char} : gapLength gap = gap.length → Scans pos gap []
  | token {pos : Pos} {gap more rest : List Char} {c : Char} {kind : TokenKind}
      {tokens : List Token} :
      gapLength (gap ++ c :: (more ++ rest)) = gap.length →
      readToken c (more ++ rest) = .ok kind → kind.text.toList = c :: more →
      Scans ((pos.after gap).after (c :: more)) rest tokens →
      Scans pos (gap ++ c :: (more ++ rest))
        (⟨kind, ⟨pos.after gap, (pos.after gap).after (c :: more)⟩, gap.contains '\n'⟩ :: tokens)

/-- A text that is scanned without a fault is a sequence of gaps and tokens. -/
theorem scanFrom_scans {pos : Pos} {text : List Char} (sound : (scanFrom pos text).error = none) :
    Scans pos text (scanFrom pos text).tokens := by
  fun_induction scanFrom pos text with
  | case1 pos text later found =>
    cases Scanner.next_eq_iff.mp found with
    | nothing whole => exact .done whole
  | case2 => cases sound
  | case3 pos text token later found scan ih =>
    cases Scanner.next_eq_iff.mp found with
    | token gapped read written => exact .token gapped read written (ih sound)

/-- Gaps and tokens determine the scan of their text. -/
theorem Scans.scanFrom_eq {pos : Pos} {text : List Char} {tokens : List Token}
    (scans : Scans pos text tokens) : scanFrom pos text = ⟨tokens, none⟩ := by
  induction scans with
  | done whole => exact scanFrom_of_nothing (Scanner.Finds.nothing whole).next_eq
  | token gapped read written _ ih =>
    rw [scanFrom_of_token (Scanner.Finds.token gapped read written).next_eq, ih]

/-- The tokens of a text lie one after another, none of them empty. -/
theorem Scans.spansBetween {pos : Pos} {text : List Char} {tokens : List Token}
    (scans : Scans pos text tokens) : SpansBetween pos (tokens.map (·.span)) (pos.after text) := by
  induction scans with
  | done => exact Pos.le_after _ _
  | @token pos gap more rest c kind tokens _ _ _ _ ih =>
    refine ⟨pos.le_after gap, Pos.lt_after _ (List.cons_ne_nil _ _), ?_⟩
    simpa only [Pos.after_append, Pos.after_cons] using ih

/-- Every token is a part of the text, and its span is the place of that part. -/
theorem Scans.token_parts {pos : Pos} {text : List Char} {tokens : List Token}
    (scans : Scans pos text tokens) : ∀ token ∈ tokens,
      ∃ before after, text = before ++ token.kind.text.toList ++ after ∧
        token.span = ⟨pos.after before, pos.after (before ++ token.kind.text.toList)⟩ := by
  induction scans with
  | done => exact nofun
  | @token pos gap more rest c kind tokens _ _ written _ ih =>
    intro token member
    rcases List.mem_cons.mp member with rfl | member
    · exact ⟨gap, rest, by simp [written], by rw [Pos.after_append, written]⟩
    · obtain ⟨before, after, whole, span⟩ := ih token member
      refine ⟨gap ++ c :: more ++ before, after, ?_, ?_⟩
      · simp [whole]
      · rw [span]
        simp only [Pos.after_append]

end SyntaxNav.Script

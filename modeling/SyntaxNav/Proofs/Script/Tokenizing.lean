import SyntaxNav.Proofs.Script.Drafts
import SyntaxNav.Proofs.Script.Scanning

/-! # The tokenizer slices between characters

A tokenizer that stands between two parts of its source sees the second part, and going past the bytes of a
front of that part takes it behind the front. So every slice that it takes runs between characters, whatever
the source: no lexer stops with a defect, and `Tokenizer.tokens` gives what `scan` reads off the list of
characters.
-/

namespace SyntaxNav

namespace Text

private theorem dropBytes?_byteLength (front rest : List Char) :
    dropBytes? (byteLength front) (front ++ rest) = some rest := by
  induction front with
  | nil => exact dropBytes?.eq_1 _
  | cons c front ih =>
    have size : byteLength (c :: front) = c.utf8Size + byteLength front := rfl
    obtain ⟨more, same⟩ : ∃ more, byteLength (c :: front) = more + 1 :=
      Nat.exists_eq_succ_of_ne_zero (by have := c.utf8Size_pos; omega)
    rw [same, List.cons_append, dropBytes?, if_pos (by omega), ← ih]
    congr 1
    omega

private theorem takeBytes?_byteLength (front rest : List Char) :
    takeBytes? (byteLength front) (front ++ rest) = some front := by
  induction front with
  | nil => exact takeBytes?.eq_1 _
  | cons c front ih =>
    have size : byteLength (c :: front) = c.utf8Size + byteLength front := rfl
    obtain ⟨more, same⟩ : ∃ more, byteLength (c :: front) = more + 1 :=
      Nat.exists_eq_succ_of_ne_zero (by have := c.utf8Size_pos; omega)
    have left : more + 1 - c.utf8Size = byteLength front := by omega
    rw [same, List.cons_append, takeBytes?, if_pos (by omega), left, ih]
    rfl

private theorem length_tails (text : List Char) : (tails text).length = byteLength text + 1 := by
  induction text with
  | nil => rfl
  | cons c rest ih =>
    have size : byteLength (c :: rest) = c.utf8Size + byteLength rest := rfl
    have positive := c.utf8Size_pos
    rw [tails, List.length_cons, List.length_append, List.length_replicate, ih]
    omega

/-- Behind the bytes of a front of a text, the rest is left. -/
theorem getElem?_tails (front rest : List Char) :
    (tails (front ++ rest))[byteLength front]? = some (some rest) := by
  induction front with
  | nil => cases rest <;> rfl
  | cons c front ih =>
    have size : byteLength (c :: front) = c.utf8Size - 1 + byteLength front + 1 := by
      have positive := c.utf8Size_pos
      have size : byteLength (c :: front) = c.utf8Size + byteLength front := rfl
      omega
    rw [size, List.cons_append, tails, List.getElem?_cons_succ,
      List.getElem?_append_right (by rw [List.length_replicate]; omega), List.length_replicate,
      Nat.add_sub_cancel_left, ih]

private theorem length_le_byteLength (text : List Char) : text.length ≤ byteLength text := by
  induction text with
  | nil => exact Nat.le_refl 0
  | cons c rest ih =>
    have size : byteLength (c :: rest) = c.utf8Size + byteLength rest := rfl
    have positive := c.utf8Size_pos
    rw [List.length_cons]
    omega

end Text

namespace Script

namespace Tokenizer

variable {before rest : List Char} {pos : Pos}

/-- The tokenizer between two parts of a source. -/
def between (before rest : List Char) (pos : Pos) : Tokenizer :=
  ⟨.of (before ++ rest), Text.byteLength before, pos⟩

private theorem sliced_some {α : Type} (part : α) (tokenizer : Tokenizer) :
    sliced (some part) tokenizer = .ok part tokenizer := rfl

private theorem remaining_between :
    remaining (between before rest pos) = .ok rest (between before rest pos) := by
  have left : (Source.of (before ++ rest)).from? (Text.byteLength before) = some rest := by
    rw [Source.from?, Source.of, List.getElem?_toArray, Text.getElem?_tails]
    rfl
  change sliced ((Source.of (before ++ rest)).from? (Text.byteLength before)) _ = _
  rw [left]
  rfl

private theorem peekChar_between :
    peekChar (between before rest pos) = .ok rest.head? (between before rest pos) := by
  unfold peekChar
  rw [bind_ok remaining_between]
  rfl

/-- The bytes of a front of the rest are passed as a whole. -/
theorem advance_between (before passed rest : List Char) (pos : Pos) :
    advance (Text.byteLength passed) (between before (passed ++ rest) pos) =
    .ok () (between (before ++ passed) rest (pos.after passed)) := by
  have moved : between (before ++ passed) rest (pos.after passed) =
      ⟨.of (before ++ (passed ++ rest)), Text.byteLength before + Text.byteLength passed,
        pos.after passed⟩ := by
    rw [between, Text.byteLength_append, List.append_assoc]
  rw [moved]
  unfold advance
  rw [bind_ok remaining_between]
  simp only [Text.takeBytes?_byteLength]
  rw [bind_ok (sliced_some _ _)]
  rfl

private theorem size_between : (between before rest pos).source.size = Text.byteLength (before ++ rest) := by
  change (Text.tails (before ++ rest)).toArray.size - 1 = _
  rw [List.size_toArray, Text.length_tails, Nat.add_sub_cancel]

section Gaps

def opensComment : List Char → Bool
  | '/' :: '*' :: _ => true
  | _ => false

private theorem map_commentBytes? (text : List Char) : (commentBytes? text).map (· + 2) =
    (commentLength? text).map fun length => Text.byteLength (text.take length) := by
  induction text using commentLength?.induct with
  | case1 => rfl
  | case2 rest => rfl
  | case3 c rest inside ih =>
    rw [commentBytes?.eq_3 c rest inside, commentLength?.eq_3 c rest inside]
    cases closed : commentLength? rest with
    | none =>
      rw [closed] at ih
      rw [Option.map_eq_none_iff.mp ih]
      rfl
    | some length =>
      rw [closed] at ih
      obtain ⟨bytes, found, same⟩ := Option.map_eq_some_iff.mp ih
      rw [found]
      change some (c.utf8Size + bytes + 2) = some (c.utf8Size + Text.byteLength (rest.take length))
      simp only at same
      rw [← same, Nat.add_assoc]

/-- What one skip does in front of a text: it passes a piece of the gap, it finds no gap, or it stops at
a comment without an end. -/
inductive Skips (before : List Char) (pos : Pos) :
    List Char → EStateM.Result Stop Tokenizer (Option Bool) → Prop
  | nothing {rest : List Char} : gapLength rest = 0 → opensComment rest = false →
      Skips before pos rest (.ok none (between before rest pos))
  | piece {passed rest : List Char} : passed ≠ [] →
      gapLength (passed ++ rest) = passed.length + gapLength rest →
      Skips before pos (passed ++ rest) (.ok (some (passed.contains '\n'))
        (between (before ++ passed) rest (pos.after passed)))
  | openComment {rest : List Char} : gapLength rest = 0 → opensComment rest = true →
      Skips before pos rest (.error (.error ⟨pos, .openComment⟩) (between before rest pos))

/-- A lexer that goes past a front of the text, and gives whether it holds a newline, skips a piece. -/
private theorem Skips.of_advance {text : List Char} {newline : Bool} (passed : List Char)
    (whole : text = passed ++ rest)
    (nonempty : passed ≠ []) (gapped : gapLength text = passed.length + gapLength rest)
    (holds : passed.contains '\n' = newline) :
    Skips before pos text ((advance (Text.byteLength passed) >>= fun _ => pure (some newline))
      (between before text pos)) := by
  subst whole holds
  rw [bind_ok (advance_between before passed rest pos)]
  exact .piece nonempty gapped

private theorem skipOne_lineComment (line : List Char) :
    Skips before pos ('/' :: '/' :: line) (skipOne (between before ('/' :: '/' :: line) pos)) := by
  have split := List.prefix_iff_eq_append.mp (List.takeWhile_prefix (fun c => decide (c ≠ '\n')) (l := line))
  have noNewline : '\n' ∉ '/' :: '/' :: line.takeWhile (· ≠ '\n') := by
    have outside := Text.not_mem_takeWhile_until '\n' line
    simpa using outside
  unfold skipOne
  rw [bind_ok remaining_between]
  have whole : '/' :: '/' :: line = '/' :: '/' :: line.takeWhile (· ≠ '\n') ++
      line.drop (line.takeWhile (· ≠ '\n')).length := by
    rw [List.cons_append, List.cons_append, split]
  refine Skips.of_advance ('/' :: '/' :: line.takeWhile (· ≠ '\n')) whole (List.cons_ne_nil _ _) ?_ ?_
  · rw [gapLength]
    simp only [List.length_cons]
    omega
  · rw [List.contains_eq_mem, decide_eq_false noNewline]

private theorem skipOne_blockComment (text : List Char) :
    Skips before pos ('/' :: '*' :: text) (skipOne (between before ('/' :: '*' :: text) pos)) := by
  have behind : Text.dropBytes? 2 ('/' :: '*' :: text) = some text :=
    Text.dropBytes?_byteLength ['/', '*'] text
  have measured := map_commentBytes? text
  unfold skipOne
  rw [bind_ok remaining_between, skipFront.eq_2, behind, bind_ok (sliced_some _ _)]
  cases closed : commentLength? text with
  | none =>
    rw [closed] at measured
    rw [Option.map_eq_none_iff.mp measured]
    refine .openComment ?_ rfl
    rw [gapLength, closed]
  | some length =>
    rw [closed] at measured
    obtain ⟨bytes, found, same⟩ := Option.map_eq_some_iff.mp measured
    have size : bytes + 4 = Text.byteLength ('/' :: '*' :: text.take length) := by
      change bytes + 4 = 1 + (1 + Text.byteLength (text.take length))
      simp only at same
      omega
    have whole : '/' :: '*' :: text = '/' :: '*' :: text.take length ++ text.drop length := by
      rw [List.cons_append, List.cons_append, List.take_append_drop]
    have taken : Text.takeBytes? (bytes + 4) ('/' :: '*' :: text) =
        some ('/' :: '*' :: text.take length) := by
      rw [size, whole, Text.takeBytes?_byteLength]
    simp only [found, taken]
    rw [bind_ok (sliced_some _ _), size]
    refine Skips.of_advance _ whole (List.cons_ne_nil _ _) ?_ rfl
    rw [gapLength, closed]
    have fits := commentLength?_le closed
    simp only [List.length_cons, List.length_take_of_le fits]
    omega

/-- One skip does what the measure of a gap says. -/
theorem skipOne_skips (before text : List Char) (pos : Pos) :
    Skips before pos text (skipOne (between before text pos)) := by
  cases text using gapLength.fun_cases with
  | case1 line => exact skipOne_lineComment line
  | case2 text => exact skipOne_blockComment text
  | case3 text => exact skipOne_blockComment text
  | case4 c rest noLine noBlock blank =>
    have gapped : gapLength (c :: rest) = [c].length + gapLength rest := by
      rw [gapLength.eq_3 c rest noLine noBlock, if_pos blank]
      rfl
    unfold skipOne
    rw [bind_ok remaining_between]
    by_cases newline : c = '\n'
    · subst newline
      exact Skips.of_advance ['\n'] rfl (List.cons_ne_nil _ _) gapped rfl
    · rw [skipFront.eq_4 c rest noLine noBlock newline, if_pos blank]
      refine Skips.of_advance [c] rfl (List.cons_ne_nil _ _) gapped ?_
      rw [List.contains_eq_mem, decide_eq_false]
      simpa using Ne.symm newline
  | case5 c rest noLine noBlock dark =>
    have newline : c ≠ '\n' := by
      rintro rfl
      exact dark (by decide)
    unfold skipOne
    rw [bind_ok remaining_between, skipFront.eq_4 c rest noLine noBlock newline, if_neg dark]
    refine .nothing ?_ ?_
    · rw [gapLength.eq_3 c rest noLine noBlock, if_neg dark]
    · exact opensComment.eq_2 _ fun tail opens => by
        cases opens
        exact noBlock tail rfl rfl
  | case6 =>
    unfold skipOne
    rw [bind_ok remaining_between]
    exact .nothing (by rw [gapLength]) rfl

/-- The gap in front is passed as a whole. A comment without an end stops the tokenizer where it starts. -/
theorem skipUpTo_between {limit : Nat} {gap : List Char} (before : List Char) (pos : Pos)
    (gapped : gapLength (gap ++ rest) = gap.length) (fits : gap.length < limit) :
    skipUpTo limit (between before (gap ++ rest) pos) =
      if opensComment rest then
        .error (.error ⟨pos.after gap, .openComment⟩) (between (before ++ gap) rest (pos.after gap))
      else .ok (gap.contains '\n') (between (before ++ gap) rest (pos.after gap)) := by
  induction limit generalizing before gap pos with
  | zero => omega
  | succ limit ih =>
    rw [skipUpTo]
    have skipped := skipOne_skips before (gap ++ rest) pos
    generalize whole : gap ++ rest = text at gapped skipped ⊢
    generalize ran : skipOne (between before text pos) = result at skipped
    cases skipped with
    | nothing none noComment =>
      rw [none] at gapped
      obtain rfl := List.eq_nil_of_length_eq_zero gapped.symm
      subst whole
      rw [bind_ok ran, if_neg (by simpa using noComment), List.append_nil]
      rfl
    | openComment none comment =>
      rw [none] at gapped
      obtain rfl := List.eq_nil_of_length_eq_zero gapped.symm
      subst whole
      rw [bind_error ran, if_pos (by simpa using comment), List.append_nil]
      rfl
    | @piece passed more nonempty measured =>
      have shorter := gapLength_le more
      have longer : 0 < passed.length := List.length_pos_iff.mpr nonempty
      -- The piece is a front of the gap, as both are fronts of the text and the piece is not longer.
      obtain ⟨later, rfl⟩ : passed <+: gap :=
        List.prefix_of_prefix_length_le ⟨more, rfl⟩ ⟨rest, whole⟩ (by omega)
      obtain rfl : later ++ rest = more := by
        rw [List.append_assoc] at whole
        exact List.append_cancel_left whole
      rw [List.length_append] at gapped fits
      rw [bind_ok ran]
      have left : gapLength (later ++ rest) = later.length := by omega
      have behind := ih (before ++ passed) (pos.after passed) left (by omega)
      rw [List.append_assoc, ← Pos.after_append] at behind
      split at behind
      · rw [if_pos ‹_›]
        exact bind_error behind _
      · have holds : (passed ++ later).contains '\n' = (passed.contains '\n' || later.contains '\n') := by
          simp only [List.contains_eq_mem, List.mem_append, Bool.decide_or]
        rw [if_neg ‹_›, holds]
        exact bind_ok behind _

private theorem skipGap_between {gap : List Char} (before : List Char) (pos : Pos)
    (gapped : gapLength (gap ++ rest) = gap.length) :
    skipGap (between before (gap ++ rest) pos) =
      if opensComment rest then
        .error (.error ⟨pos.after gap, .openComment⟩) (between (before ++ gap) rest (pos.after gap))
      else .ok (gap.contains '\n') (between (before ++ gap) rest (pos.after gap)) := by
  have fits : gap.length < (between before (gap ++ rest) pos).source.size + 1 := by
    have longer := Text.length_le_byteLength (before ++ (gap ++ rest))
    rw [size_between]
    simp only [List.length_append] at longer
    omega
  exact skipUpTo_between before pos gapped fits

end Gaps

section Tokens

variable {c : Char}

private theorem stringStop?_eq {quote : Char} (oneByte : quote.utf8Size = 1) (offset : Nat)
    (text : List Char) :
    stringStop? quote offset text =
      (stringLength? quote text).map fun length => offset + Text.byteLength (text.take length) := by
  induction text using stringLength?.induct quote generalizing offset with
  | case1 => rw [stringStop?.eq_def, stringLength?, Option.map_none]
  | case2 rest =>
    rw [stringStop?.eq_def, stringLength?.eq_def]
    simp only [if_true, Option.map_none]
  | case3 noNewline =>
    rw [stringStop?.eq_def, stringLength?.eq_def]
    simp only [if_neg noNewline, if_true, Option.map_none]
  | case4 escaped rest noNewline ih =>
    rw [stringStop?.eq_def, stringLength?.eq_def]
    simp only [if_neg noNewline, if_true, ih, Option.map_map]
    congr 1
    funext length
    change _ = offset + ('\\'.utf8Size + (escaped.utf8Size + Text.byteLength (rest.take length)))
    omega
  | case5 rest noNewline noBackslash =>
    rw [stringStop?.eq_def, stringLength?.eq_def]
    simp only [if_neg noNewline, if_neg noBackslash, if_true, Option.map_some]
    change some (offset + 1) = some (offset + quote.utf8Size)
    rw [oneByte]
  | case6 c rest noNewline noBackslash inside ih =>
    rw [stringStop?.eq_def, stringLength?.eq_def]
    simp only [if_neg noNewline, if_neg noBackslash, if_neg inside, ih, Option.map_map]
    congr 1
    funext length
    change _ = offset + (c.utf8Size + Text.byteLength (rest.take length))
    omega

private theorem atNumber_eq (rest : List Char) (tokenizer : Tokenizer) :
    atNumber c (c :: rest) tokenizer = .ok (startsNumber c rest) tokenizer := by
  unfold atNumber startsNumber
  by_cases digit : c.isDigit = true
  · rw [if_pos digit, digit]
    rfl
  · rw [if_neg digit, Bool.eq_false_iff.mpr digit, Bool.false_or]
    by_cases point : c = '.'
    · subst point
      have behind : Text.dropBytes? 1 ('.' :: rest) = some rest := Text.dropBytes?_byteLength ['.'] rest
      rw [if_pos rfl, behind]
      rfl
    · rw [if_neg point, decide_eq_false point]
      rfl

/-- A quote is one byte wide. -/
private theorem utf8Size_quote (quote : c = '\x22' ∨ c = '\x27') : c.utf8Size = 1 := by
  rcases quote with rfl | rfl <;> rfl

private theorem advance_front {text passed : List Char} (front : passed <+: text) :
    advance (Text.byteLength passed) (between before text pos) =
      .ok () (between (before ++ passed) (text.drop passed.length) (pos.after passed)) := by
  obtain ⟨rest, rfl⟩ := front
  rw [advance_between, List.drop_left]

/-- A token is passed with its text. -/
private theorem pass_token {kind : TokenKind} {text passed : List Char} (written : kind.text.toList = passed)
    (front : passed <+: text) :
    (advance (Text.byteLength passed) >>= fun _ => pure kind) (between before text pos) =
      .ok kind (between (before ++ kind.text.toList) (text.drop kind.text.length)
        (pos.after kind.text.toList)) := by
  rw [bind_ok (advance_front front), ← String.length_toList, written]
  rfl

/-- The token in front is read and passed, or the fault there is found where it starts. -/
theorem token_between (before : List Char) (pos : Pos) (noComment : opensComment (c :: rest) = false) :
    token (between before (c :: rest) pos) =
      match readToken c rest with
      | .error fault => .error (.error ⟨pos, fault⟩) (between before (c :: rest) pos)
      | .ok kind => .ok kind (between (before ++ kind.text.toList)
          ((c :: rest).drop kind.text.length) (pos.after kind.text.toList)) := by
  have apart : ¬(c = '/' ∧ rest.head? = some '*') := by
    rintro ⟨rfl, second⟩
    obtain ⟨rest, rfl⟩ := List.head?_eq_some_iff.mp second
    cases noComment
  unfold token readToken
  rw [bind_ok remaining_between]
  simp only [if_neg apart]
  by_cases quote : c = '\x22' ∨ c = '\x27'
  · rw [if_pos quote, if_pos quote, stringStop?_eq (utf8Size_quote quote)]
    cases closed : stringLength? c rest with
    | none => rfl
    | some length =>
      have front : c :: rest.take length <+: c :: rest :=
        List.cons_prefix_cons.mpr ⟨rfl, List.take_prefix _ _⟩
      have size : c.utf8Size + Text.byteLength (rest.take length) =
          Text.byteLength (c :: rest.take length) := rfl
      have taken : Text.takeBytes? (Text.byteLength (c :: rest.take length)) (c :: rest) =
          some (c :: rest.take length) := by
        obtain ⟨tail, whole⟩ := front
        rw [← whole, Text.takeBytes?_byteLength]
      simp only [Option.map_some, size, taken]
      exact pass_token String.toList_ofList front
  by_cases template : c = '\x60'
  · rw [if_neg quote, if_neg quote, if_pos template, if_pos template]
    rfl
  rw [if_neg quote, if_neg quote, if_neg template, if_neg template, bind_ok (atNumber_eq rest _)]
  by_cases number : startsNumber c rest = true
  · rw [if_pos number, if_pos number]
    exact pass_token String.toList_ofList (List.take_prefix _ _)
  by_cases word : isWordStart c = true
  · rw [if_neg number, if_neg number, if_pos word, if_pos word]
    exact pass_token String.toList_ofList (List.takeWhile_prefix _)
  rw [if_neg number, if_neg number, if_neg word, if_neg word]
  cases found : punctuators.find? (·.toList.isPrefixOf (c :: rest)) with
  | none => rfl
  | some punct =>
    have front := List.find?_some found
    exact pass_token rfl (List.isPrefixOf_iff_prefix.mp front)

end Tokens

section Scans

/-- What a tokenizer gives for what a scanner finds. -/
def give : Option (Except Error Token) → Tokenizer → EStateM.Result Stop Tokenizer (Option Token)
  | none, after => .ok none after
  | some (.ok token), after => .ok (some token) after
  | some (.error error), after => .error (.error error) after

/-- A comment without an end is a fault for the scanner, too. -/
private theorem readToken_of_comment {c : Char} (comment : opensComment (c :: rest) = true) :
    readToken c rest = .error .openComment := by
  unfold opensComment at comment
  split at comment
  · rename_i same
    cases same
    rfl
  · cases comment

private theorem next_of_ok {tokenizer after : Tokenizer} {found : Option Token}
    (ran : item tokenizer = .ok found after) : next tokenizer = .ok found after := by
  change EStateM.tryCatch item _ _ = _
  simp only [EStateM.tryCatch, ran]

/-- Behind an error nothing is left of the source. -/
private theorem next_of_error {tokenizer : Tokenizer} {stop : Stop}
    (ran : item tokenizer = .error stop (between before rest pos)) :
    next tokenizer = .error stop (between (before ++ rest) [] pos) := by
  have spent : between (before ++ rest) [] pos =
      ⟨.of (before ++ rest), (between before rest pos).source.size, pos⟩ := by
    rw [size_between, between, List.append_nil]
  rw [spent]
  change EStateM.tryCatch item _ _ = _
  simp only [EStateM.tryCatch, ran]
  rfl

/-- A tokenizer gives what a scanner finds, and goes where the scanner goes. -/
theorem next_between (before text : List Char) (pos : Pos) :
    let found := Scanner.next ⟨pos, text⟩
    ∃ front, front ++ found.2.rest = before ++ text ∧
      next (between before text pos) = give found.1 (between front found.2.rest found.2.pos) := by
  have finds := Scanner.next_finds ⟨pos, text⟩
  generalize Scanner.next ⟨pos, text⟩ = found at finds ⊢
  cases finds with
  | nothing whole =>
    have skipped := skipGap_between before pos (show gapLength (text ++ []) = text.length by
      rwa [List.append_nil])
    rw [List.append_nil, if_neg (by decide)] at skipped
    refine ⟨before ++ text, List.append_nil _, next_of_ok ?_⟩
    unfold item
    rw [bind_ok skipped, bind_ok peekChar_between]
    rfl
  | @fault _ gap rest c fault gapped failed =>
    have skipped := skipGap_between before pos gapped
    refine ⟨before ++ gap ++ c :: rest, by simp, next_of_error ?_⟩
    unfold item
    by_cases comment : opensComment (c :: rest) = true
    · rw [readToken_of_comment comment] at failed
      cases failed
      rw [if_pos comment] at skipped
      exact bind_error skipped _
    · have stopped := token_between (before ++ gap) (pos.after gap) (Bool.eq_false_iff.mpr comment)
      rw [failed] at stopped
      rw [if_neg comment] at skipped
      rw [bind_ok skipped, bind_ok peekChar_between]
      exact (bind_ok rfl _).trans (bind_error stopped _)
  | @token _ gap more rest c kind gapped read written =>
    have noComment : ¬opensComment (c :: (more ++ rest)) = true := by
      intro comment
      rw [readToken_of_comment comment] at read
      cases read
    have skipped := skipGap_between before pos gapped
    have passed := token_between (before ++ gap) (pos.after gap) (Bool.eq_false_iff.mpr noComment)
    have behind : (c :: (more ++ rest)).drop kind.text.length = rest := by
      rw [← String.length_toList, written, ← List.cons_append, List.drop_left]
    rw [if_neg noComment] at skipped
    simp only [read, written, behind] at passed
    refine ⟨before ++ gap ++ c :: more, by simp, next_of_ok ?_⟩
    unfold item
    rw [bind_ok skipped, bind_ok peekChar_between]
    exact bind_ok passed _

/-- The tokens of a text are those that a scan gives, and so is the error in it. -/
theorem tokensUpTo_between {limit : Nat} (before text : List Char) (pos : Pos)
    (fits : text.length < limit) :
    ∃ after, tokensUpTo limit (between before text pos) =
      match (scanFrom pos text).error with
      | some error => .error (.error error) after
      | none => .ok (scanFrom pos text).tokens after := by
  induction limit generalizing before text pos with
  | zero => omega
  | succ limit ih =>
    obtain ⟨front, whole, ran⟩ := next_between before text pos
    rw [tokensUpTo]
    rcases found : Scanner.next ⟨pos, text⟩ with ⟨_ | error | token, later⟩
    · rw [found] at ran
      rw [scanFrom_of_nothing found]
      exact ⟨_, bind_ok ran _⟩
    · rw [found] at ran
      rw [scanFrom_of_error found]
      exact ⟨_, bind_error ran _⟩
    · have shorter := Scanner.length_rest_lt found
      rw [found] at ran
      obtain ⟨after, rest_ran⟩ := ih front later.rest later.pos (by simp only at shorter; omega)
      rw [scanFrom_of_token found, bind_ok ran]
      refine ⟨after, ?_⟩
      cases failed : (scanFrom later.pos later.rest).error with
      | some error =>
        rw [failed] at rest_ran
        exact bind_error rest_ran _
      | none =>
        rw [failed] at rest_ran
        exact bind_ok rest_ran _

/-- The tokenizer gives the tokens of a scan or the error of a scan, never a defect. -/
theorem tokens_of (text : List Char) : tokens.of text =
    match (scan text).error with
    | some error => .error (.error error)
    | none => .ok (scan text).tokens := by
  have fits : text.length < (between [] text .origin).source.size + 1 := by
    have longer := Text.length_le_byteLength text
    rw [size_between, List.nil_append]
    omega
  obtain ⟨after, ran⟩ := tokensUpTo_between [] text .origin fits
  have whole : tokens (start text) = _ := ran
  rw [Lexer.of, whole, scan]
  cases (scanFrom .origin text).error <;> rfl

/-- The tokens of a source are those of a scan without an error. -/
theorem tokens_of_eq_ok_iff {text : List Char} {found : List Token} :
    tokens.of text = .ok found ↔ scan text = ⟨found, none⟩ := by
  rw [tokens_of]
  rcases scan text with ⟨tokens, _ | error⟩ <;> simp

/-- A source whose scan has no error has tokens. -/
theorem tokens_of_clean {text : List Char} (clean : (scan text).error = none) :
    tokens.of text = .ok (scan text).tokens := by
  rw [tokens_of, clean]

/-- The tokenizer finds the position behind a source. -/
theorem endPos_of (text : List Char) : endPos.of text = .ok (Pos.origin.after text) := by
  have size : (between [] text .origin).source.size = Text.byteLength text := size_between
  have moved := advance_between [] text [] .origin
  rw [List.append_nil, ← size] at moved
  have whole : endPos (start text) = _ := (bind_ok rfl _).trans (bind_ok moved _)
  rw [Lexer.of, whole]
  rfl

end Scans

end Tokenizer

end Script

end SyntaxNav

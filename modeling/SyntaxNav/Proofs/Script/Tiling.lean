import Mathlib.Data.List.Induction
import SyntaxNav.Proofs.Script.JoinedScans
import SyntaxNav.Proofs.Script.Tokenizing

/-! # Tokens tile their source

Every source is a sequence of gaps and tokens, up to its end or to a fault. `Gap`, `TokenKind.Whole`
and `Offends` say what can stand at each place of it, without the functions that measure it, and
`Pos.behind` counts lines and columns. A tokenizer in front of the source gives the tokens one after
another, then the error if there is one, then nothing any more.
-/

namespace SyntaxNav

/-- The position behind a text: its newlines count the lines, and what stands behind the last of them
counts the columns. -/
def Pos.behind (text : List Char) : Pos :=
  ⟨1 + text.count '\n', (text.reverse.takeWhile (· ≠ '\n')).length⟩

/-- Positions count newlines and the characters behind the last one. -/
theorem Pos.origin_after (text : List Char) : origin.after text = behind text := by
  have columns : (origin.after text).column = (text.reverse.takeWhile (· ≠ '\n')).length := by
    induction text using List.reverseRecOn with
    | nil => rfl
    | append_singleton text c ih =>
      rw [after_append, List.reverse_append, List.reverse_singleton, List.singleton_append, after_cons,
        after_nil, next]
      by_cases newline : c = '\n'
      · rw [if_pos newline, List.takeWhile_cons_of_neg (by simpa using newline)]
        rfl
      · rw [if_neg newline, List.takeWhile_cons_of_pos (by simpa using newline), ih]
        rfl
  have lines : (origin.after text).line = 1 + text.count '\n' := line_after origin text
  rw [behind, ← columns, ← lines]

namespace Script

section Gaps

/-- A text is a gap in front of another: blanks, line comments that run up to a newline or to the end,
and block comments up to their first end. -/
inductive Gap (behind : List Char) : List Char → Prop
  | nothing : Gap behind []
  | blank {c : Char} {rest : List Char} : Text.isBlank c = true → Gap behind rest →
      Gap behind (c :: rest)
  | line {comment rest : List Char} : '\n' ∉ comment → (∀ c ∈ (rest ++ behind).head?, c = '\n') →
      Gap behind rest → Gap behind ('/' :: '/' :: (comment ++ rest))
  | block {comment rest : List Char} : ¬['*', '/'] <:+: comment → Gap behind rest →
      Gap behind ('/' :: '*' :: (comment ++ '*' :: '/' :: rest))

/-- What follows a first character closes no comment with it. -/
theorem not_infix_cons {c : Char} {rest : List Char} (stillOpen : ∀ others, c = '*' → rest ≠ '/' :: others)
    (later : ¬['*', '/'] <:+: rest) : ¬['*', '/'] <:+: c :: rest := by
  intro closed
  rcases List.infix_cons_iff.mp closed with ⟨others, whole⟩ | inside
  · obtain ⟨rfl, rfl⟩ := List.cons.inj whole
    exact stillOpen others rfl rfl
  · exact later inside

private theorem commentLength?_eq_none {text : List Char} (opened : commentLength? text = none) :
    ¬['*', '/'] <:+: text := by
  fun_induction commentLength? text with
  | case1 => simp
  | case2 => cases opened
  | case3 c rest notEnd ih =>
    exact not_infix_cons notEnd (ih (Option.map_eq_none_iff.mp opened))

private theorem commentLength?_eq_some {text : List Char} {length : Nat}
    (closed : commentLength? text = some length) :
    ∃ comment rest, text = comment ++ '*' :: '/' :: rest ∧ length = comment.length + 2 ∧
      ¬['*', '/'] <:+: comment := by
  fun_induction commentLength? text generalizing length with
  | case1 => cases closed
  | case2 rest =>
    cases closed
    exact ⟨[], rest, rfl, rfl, by simp⟩
  | case3 c text notEnd ih =>
    obtain ⟨inner, ends, rfl⟩ := Option.map_eq_some_iff.mp closed
    obtain ⟨comment, rest, rfl, rfl, noEnd⟩ := ih ends
    refine ⟨c :: comment, rest, rfl, rfl, not_infix_cons ?_ noEnd⟩
    rintro others star rfl
    exact notEnd _ star rfl

/-- A gap stands at the front of a text, as long as it is measured. -/
theorem exists_gap (text : List Char) :
    ∃ gap behind, text = gap ++ behind ∧ gap.length = gapLength text ∧ Gap behind gap := by
  fun_induction gapLength text with
  | case1 text line ih =>
    obtain ⟨gap, behind, later, size, isGap⟩ := ih
    have parts : text.takeWhile (· ≠ '\n') ++ text.dropWhile (· ≠ '\n') = text :=
      List.takeWhile_append_dropWhile
    have lineEnd : text.dropWhile (· ≠ '\n') = gap ++ behind := by
      rw [← later]
      conv => rhs; rw [← parts]
      exact List.drop_left.symm
    refine ⟨'/' :: '/' :: (text.takeWhile (· ≠ '\n') ++ gap), behind, ?_, ?_, .line ?_ ?_ isGap⟩
    · rw [List.cons_append, List.cons_append, List.append_assoc, ← lineEnd, parts]
    · simp only [List.length_cons, List.length_append, size, line]
      omega
    · exact Text.not_mem_takeWhile_until '\n' text
    · rw [← lineEnd]
      intro c first
      have stops := List.head?_dropWhile_not (· ≠ '\n') text
      rw [Option.mem_def.mp first] at stops
      simpa using stops
  | case2 | case5 | case6 => exact ⟨[], _, rfl, rfl, .nothing⟩
  | case3 text length closed ih =>
    obtain ⟨comment, rest, rfl, rfl, noEnd⟩ := commentLength?_eq_some closed
    obtain ⟨gap, behind, later, size, isGap⟩ := ih
    have commentEnd : rest = gap ++ behind := by
      rw [← later, ← List.drop_drop, List.drop_left]
      rfl
    refine ⟨'/' :: '*' :: (comment ++ '*' :: '/' :: gap), behind, ?_, ?_, .block noEnd isGap⟩
    · simp only [commentEnd, List.cons_append, List.append_assoc]
    · simp only [List.length_cons, List.length_append, size]
      omega
  | case4 c rest _ _ blank ih =>
    obtain ⟨gap, behind, rfl, size, isGap⟩ := ih
    exact ⟨c :: gap, behind, rfl, by rw [List.length_cons, size, Nat.add_comm], .blank blank isGap⟩

/-- What is measured as a gap is one. -/
theorem Gap.of_gapLength {gap behind : List Char} (gapped : gapLength (gap ++ behind) = gap.length) :
    Gap behind gap := by
  obtain ⟨front, rest, whole, size, isGap⟩ := exists_gap (gap ++ behind)
  obtain ⟨rfl, rfl⟩ := List.append_inj whole (gapped.symm.trans size.symm)
  exact isGap

end Gaps

section Tokens

variable {quote c : Char} {body more rest behind : List Char} {kind : TokenKind}

/-- What can stand between the quotes of a string. A backslash goes with the character behind it. -/
inductive StringBody (quote : Char) : List Char → Prop
  | nil : StringBody quote []
  | escape {c : Char} {rest : List Char} : StringBody quote rest → StringBody quote ('\\' :: c :: rest)
  | plain {c : Char} {rest : List Char} : c ≠ '\n' → c ≠ '\\' → c ≠ quote → StringBody quote rest →
      StringBody quote (c :: rest)

private theorem stringLength?_eq_some {text : List Char} {length : Nat}
    (closed : stringLength? quote text = some length) :
    ∃ body, text.take length = body ++ [quote] ∧ StringBody quote body := by
  fun_induction stringLength? quote text generalizing length with
  | case1 | case2 | case3 => cases closed
  | case4 _ d rest ih =>
    obtain ⟨inner, ends, rfl⟩ := Option.map_eq_some_iff.mp closed
    obtain ⟨body, parts, isBody⟩ := ih ends
    exact ⟨_, by rw [List.take_succ_cons, List.take_succ_cons, parts]; rfl, .escape isBody⟩
  | case5 rest =>
    cases closed
    exact ⟨[], rfl, .nil⟩
  | case6 c rest noNewline noEscape noQuote ih =>
    obtain ⟨inner, ends, rfl⟩ := Option.map_eq_some_iff.mp closed
    obtain ⟨body, parts, isBody⟩ := ih ends
    exact ⟨c :: body, by rw [List.take_succ_cons, parts]; rfl,
      .plain noNewline noEscape noQuote isBody⟩

private theorem StringBody.stringLength?_eq (isBody : StringBody quote body)
    (isQuote : quote = '\x22' ∨ quote = '\x27') (behind : List Char) :
    stringLength? quote (body ++ quote :: behind) = some (body.length + 1) := by
  induction isBody with
  | nil =>
    have noNewline : quote ≠ '\n' := by rintro rfl; simp at isQuote
    have noEscape : quote ≠ '\\' := by rintro rfl; simp at isQuote
    rw [List.nil_append, stringLength?.eq_def]
    simp [noNewline, noEscape]
  | escape _ ih =>
    rw [List.cons_append, List.cons_append, stringLength?, ih]
    rfl
  | plain noNewline noEscape noQuote _ ih =>
    rw [List.cons_append, stringLength?.eq_def]
    simp [noNewline, noEscape, noQuote, ih]

private theorem stringLength?_eq_none (isQuote : quote = '\x22' ∨ quote = '\x27')
    (opened : stringLength? quote rest = none) :
    ∀ body behind, StringBody quote body → rest ≠ body ++ quote :: behind := by
  rintro body behind isBody rfl
  rw [isBody.stringLength?_eq isQuote] at opened
  cases opened

/-- A token of a kind is whole in front of a text: it has the form of its kind and does not go on. -/
inductive TokenKind.Whole (behind : List Char) : TokenKind → Prop
  | word {c : Char} {more : List Char} : isWordStart c = true → (∀ d ∈ more, isWordPart d = true) →
      (∀ d ∈ behind.head?, isWordPart d = false) → Whole behind (.word (String.ofList (c :: more)))
  | number {c : Char} {more : List Char} : startsNumber c (more ++ behind) = true →
      Whole behind (.number (String.ofList (c :: more)))
  | string {quote : Char} {body : List Char} : quote = '\x22' ∨ quote = '\x27' →
      StringBody quote body → Whole behind (.string (String.ofList (quote :: (body ++ [quote]))))
  | punct {punct : String} : punct ∈ punctuators →
      (∀ other ∈ punctuators, other.toList <+: punct.toList ++ behind → other.length ≤ punct.length) →
      Whole behind (.punct punct)

/-- The punctuators are listed from the longest to the shortest. -/
theorem punctuators_sorted : punctuators.Pairwise fun one other => other.length ≤ one.length := by
  decide

/-- The first punctuator that fits is the longest one. -/
theorem find_punct_longest {punct : String} {text : List Char}
    (found : punctuators.find? (·.toList.isPrefixOf text) = some punct) :
    ∀ other ∈ punctuators, other.toList <+: text → other.length ≤ punct.length := by
  obtain ⟨-, earlier, later, listed, noEarlier⟩ := List.find?_eq_some_iff_append.mp found
  intro other member fits
  rw [listed, List.mem_append, List.mem_cons] at member
  rcases member with member | rfl | member
  · have misfit := noEarlier other member
    rw [List.isPrefixOf_iff_prefix.mpr fits] at misfit
    cases misfit
  · exact Nat.le_refl _
  · have sorted := punctuators_sorted
    rw [listed, List.pairwise_append, List.pairwise_cons] at sorted
    exact sorted.2.1.1 other member

/-- A token goes on as far as it can. -/
theorem TokenAt.whole (token : TokenAt c (more ++ behind) kind)
    (written : kind.text.toList = c :: more) : kind.Whole behind := by
  cases token with
  | @string length isQuote closed =>
    obtain ⟨body, parts, isBody⟩ := stringLength?_eq_some closed
    rw [parts]
    exact .string isQuote isBody
  | number starts =>
    simp only [TokenKind.text, String.toList_ofList] at written
    rw [written]
    exact .number starts
  | word noNumber starts =>
    simp only [TokenKind.text, String.toList_ofList] at written
    rw [written]
    have parts : (c :: (more ++ behind)).takeWhile isWordPart ++
        (c :: (more ++ behind)).dropWhile isWordPart = c :: more ++ behind :=
      List.takeWhile_append_dropWhile
    rw [written] at parts
    refine .word starts ?_ ?_
    · intro d member
      exact List.all_eq_true.mp List.all_takeWhile d (written ▸ List.mem_cons_of_mem c member)
    · rw [← List.append_cancel_left parts]
      intro d first
      have stops := List.head?_dropWhile_not isWordPart (c :: (more ++ behind))
      rw [Option.mem_def.mp first] at stops
      exact stops
  | @punct punct noComment noNumber found =>
    refine .punct (List.mem_of_find?_eq_some found) ?_
    have sameText : punct.toList = c :: more := written
    rw [sameText]
    exact find_punct_longest found

private theorem TokenAt.not_block (token : TokenAt c rest kind) : ¬['/', '*'] <+: c :: rest := by
  rintro ⟨others, parts⟩
  obtain ⟨rfl, rfl⟩ := List.cons.inj parts
  exact token.no_comment ⟨rfl, rfl⟩

/-- Why no token can be read at the front of a text. -/
inductive Offends : List Char → Fault → Prop
  | openComment {rest : List Char} : ¬['*', '/'] <:+: rest → Offends ('/' :: '*' :: rest) .openComment
  | openString {quote : Char} {rest : List Char} : quote = '\x22' ∨ quote = '\x27' →
      (∀ body behind, StringBody quote body → rest ≠ body ++ quote :: behind) →
      Offends (quote :: rest) .openString
  | template {rest : List Char} : Offends ('\x60' :: rest) .template
  | strayCharacter {c : Char} {rest : List Char} : Text.isBlank c = false →
      c ≠ '\x22' → c ≠ '\x27' → c ≠ '\x60' → startsNumber c rest = false → isWordStart c = false →
      (∀ punct ∈ punctuators, ¬punct.toList <+: c :: rest) →
      Offends (c :: rest) (.strayCharacter c)

private theorem not_blank_of_gapLength (noGap : gapLength (c :: rest) = 0) : Text.isBlank c = false := by
  cases blank : Text.isBlank c with
  | false => rfl
  | true =>
    have noSlash : c ≠ '/' := by
      rintro rfl
      exact absurd blank (by decide)
    rw [gapLength_of_no_comment (fun both => noSlash both.1) (fun both => noSlash both.1),
      if_pos blank] at noGap
    omega

private theorem not_line_of_gapLength (noGap : gapLength (c :: rest) = 0) : ¬['/', '/'] <+: c :: rest := by
  rintro ⟨others, parts⟩
  rw [← parts, List.cons_append, List.cons_append, gapLength] at noGap
  omega

private theorem not_closed_of_gapLength (noGap : gapLength ('/' :: '*' :: rest) = 0) :
    ¬['*', '/'] <:+: rest := by
  rw [gapLength] at noGap
  split at noGap
  · exact commentLength?_eq_none ‹_›
  · omega

private theorem Offends.of_readToken {fault : Fault} (failed : readToken c rest = .error fault)
    (noGap : gapLength (c :: rest) = 0) : Offends (c :: rest) fault := by
  -- The cases stand in the order in which the reader tries them.
  unfold readToken at failed
  simp only at failed
  split at failed
  · rename_i comment
    obtain ⟨rfl, star⟩ := comment
    obtain ⟨others, rfl⟩ := List.head?_eq_some_iff.mp star
    cases failed
    exact .openComment (not_closed_of_gapLength noGap)
  rename_i noBlock
  split at failed
  · rename_i isQuote
    split at failed
    · cases failed
    · rename_i opened
      cases failed
      exact .openString isQuote (stringLength?_eq_none isQuote opened)
  rename_i noQuote
  split at failed
  · rename_i isTemplate
    cases failed
    rw [isTemplate]
    exact .template
  rename_i noTemplate
  split at failed
  · cases failed
  rename_i noNumber
  split at failed
  · cases failed
  rename_i noWord
  split at failed
  · cases failed
  rename_i misfit
  cases failed
  refine .strayCharacter (not_blank_of_gapLength noGap) (fun same => noQuote (.inl same))
    (fun same => noQuote (.inr same)) noTemplate (Bool.eq_false_iff.mpr noNumber)
    (Bool.eq_false_iff.mpr noWord) ?_
  intro punct member fits
  exact List.find?_eq_none.mp misfit punct member (List.isPrefixOf_iff_prefix.mpr fits)

end Tokens

section Runs

/-- What a scanner gives when it is asked so many times before. -/
def Scanner.item (scanner : Scanner) : Nat → Option (Except Error Token)
  | 0 => scanner.next.1
  | n + 1 => scanner.next.2.item n

/-- What a scan gives, one after another: the tokens, then the error. -/
def Scan.items (scan : Scan) : List (Except Error Token) :=
  scan.tokens.map .ok ++ scan.error.toList.map .error

/-- Where nothing is left, nothing is found any more. -/
theorem Scanner.item_of_nil (pos : Pos) (n : Nat) : item ⟨pos, []⟩ n = none := by
  have found : next ⟨pos, []⟩ = (none, ⟨pos, []⟩) :=
    next_eq_iff.mpr (.nothing (by rw [gapLength]; rfl))
  induction n with
  | zero => rw [item, found]
  | succ n ih => rw [item, found, ih]

/-- A scanner gives the tokens and the error of a scan in turn. -/
theorem Scanner.item_eq (pos : Pos) (text : List Char) (n : Nat) :
    item ⟨pos, text⟩ n = (scanFrom pos text).items[n]? := by
  fun_induction scanFrom pos text generalizing n with
  | case1 pos text later found =>
    cases Scanner.next_eq_iff.mp found with
    | nothing =>
      cases n with
      | zero => rw [item, found]; rfl
      | succ n => rw [item, found, item_of_nil]; rfl
  | case2 pos text error later found =>
    cases Scanner.next_eq_iff.mp found with
    | fault =>
      cases n with
      | zero => rw [item, found]; rfl
      | succ n => rw [item, found, item_of_nil]; rfl
  | case3 pos text token later found scan ih =>
    cases n with
    | zero => rw [item, found]; rfl
    | succ n =>
      rw [item, found]
      exact ih n

/-- What a tokenizer gives when it is asked so many times before, also after an error. -/
def Tokenizer.called (tokenizer : Tokenizer) : Nat → Except Stop (Option Token)
  | 0 =>
    match next tokenizer with
    | .ok found _ => .ok found
    | .error stop _ => .error stop
  | n + 1 =>
    match next tokenizer with
    | .ok _ after => after.called n
    | .error _ after => after.called n

/-- What a tokenizer answers where a token, an error or nothing is found. -/
def Tokenizer.answer : Option (Except Error Token) → Except Stop (Option Token)
  | none => .ok none
  | some (.ok token) => .ok (some token)
  | some (.error error) => .error (.error error)

/-- A tokenizer answers with what a scanner finds, call by call. -/
theorem Tokenizer.called_between (before text : List Char) (pos : Pos) (n : Nat) :
    (between before text pos).called n = answer (Scanner.item ⟨pos, text⟩ n) := by
  induction n generalizing before text pos with
  | zero =>
    obtain ⟨front, -, ran⟩ := next_between before text pos
    rw [called, ran, Scanner.item]
    rcases (Scanner.next ⟨pos, text⟩).1 with _ | _ | _ <;> rfl
  | succ n ih =>
    obtain ⟨front, -, ran⟩ := next_between before text pos
    rw [called, ran, Scanner.item, ← ih front]
    rcases (Scanner.next ⟨pos, text⟩).1 with _ | _ | _ <;> rfl

end Runs

/-- A token with the gap in front of it. -/
structure Tile where
  gap : List Char
  token : Token

def Tile.text (tile : Tile) : List Char :=
  tile.gap ++ tile.token.kind.text.toList

/-- The text of gaps and tokens that follow one another. -/
def laid (tiles : List Tile) : List Char :=
  tiles.flatMap Tile.text

private theorem laid_cons (tile : Tile) (tiles : List Tile) : laid
    (tile :: tiles) = tile.text ++ laid tiles :=
  List.flatMap_cons

/-- A gap and a token are what they should be between what stands before and behind them. -/
structure Tile.Sits (before : List Char) (tile : Tile) (behind : List Char) : Prop where
  gap : Gap (tile.token.kind.text.toList ++ behind) tile.gap
  nonempty : tile.token.kind.text.toList ≠ []
  whole : tile.token.kind.Whole behind
  noLine : ¬['/', '/'] <+: tile.token.kind.text.toList ++ behind
  noBlock : ¬['/', '*'] <+: tile.token.kind.text.toList ++ behind
  span : tile.token.span = ⟨.behind (before ++ tile.gap), .behind (before ++ tile.text)⟩
  newline : tile.token.newlineBefore = true ↔ '\n' ∈ tile.gap

/-- Every one of the gaps and tokens sits between the others. -/
def Tiled (before : List Char) (tiles : List Tile) (behind : List Char) : Prop :=
  ∀ front tile back, tiles = front ++ tile :: back →
    tile.Sits (before ++ laid front) (laid back ++ behind)

/-- What stands behind the last token, and the error that is found in it. -/
inductive Remainder (before : List Char) : List Char → Option Error → Prop
  | clean {gap : List Char} : Gap [] gap → Remainder before gap none
  | faulty {gap bad : List Char} {fault : Fault} : Gap bad gap → Offends bad fault →
      Remainder before (gap ++ bad) (some ⟨.behind (before ++ gap), fault⟩)

private theorem Tiled.nil (before behind : List Char) : Tiled before [] behind := by
  intro front tile back parts
  simp at parts

private theorem Tiled.cons {before behind : List Char} {tile : Tile} {tiles : List Tile}
    (sits : tile.Sits before (laid tiles ++ behind))
    (tiled : Tiled (before ++ tile.text) tiles behind) : Tiled before (tile :: tiles) behind := by
  intro front other back parts
  rcases List.cons_eq_append_iff.mp parts with ⟨rfl, same⟩ | ⟨front, rfl, rfl⟩
  · obtain ⟨rfl, rfl⟩ := List.cons.inj same
    rwa [laid, List.flatMap_nil, List.append_nil]
  · have sits := tiled front other back rfl
    rwa [List.append_assoc, ← laid_cons] at sits

private theorem Tile.sits_of_read (before : List Char) {gap more rest : List Char} {c : Char}
    {kind : TokenKind}
    (gapped : gapLength (gap ++ c :: (more ++ rest)) = gap.length)
    (read : readToken c (more ++ rest) = .ok kind) (written : kind.text.toList = c :: more) :
    Sits before ⟨gap, kind, ⟨Pos.origin.after (before ++ gap),
      Pos.origin.after (before ++ (gap ++ c :: more))⟩, gap.contains '\n'⟩ rest where
  gap := by
    rw [written]
    exact .of_gapLength gapped
  nonempty := by
    rw [written]
    exact List.cons_ne_nil c more
  whole := (readToken_eq_ok_iff.mp read).whole written
  noLine := by
    rw [written]
    exact not_line_of_gapLength (gapLength_behind_gap gapped)
  noBlock := by
    rw [written]
    exact (readToken_eq_ok_iff.mp read).not_block
  span := by simp only [Tile.text, written, Pos.origin_after]
  newline := List.contains_iff_mem

/-- A scan tiles its text with gaps and tokens, up to the end or to the place of an error. -/
theorem scanFrom_tiles (pos : Pos) (text : List Char) :
    ∀ before, pos = Pos.origin.after before → ∃ tiles behind, text = laid tiles ++ behind ∧
      Tiled before tiles behind ∧ (scanFrom pos text).tokens = tiles.map Tile.token ∧
      Remainder (before ++ laid tiles) behind (scanFrom pos text).error := by
  -- Positions count from the start of the source, so each turn has the text before it at hand.
  fun_induction scanFrom pos text with
  | case1 pos text later found =>
    intro before start
    cases Scanner.next_eq_iff.mp found with
    | nothing gapped =>
      refine ⟨[], text, rfl, .nil _ _, rfl, .clean (.of_gapLength ?_)⟩
      rwa [List.append_nil]
  | case2 pos text error later found =>
    intro before start
    cases Scanner.next_eq_iff.mp found with
    | @fault _ gap rest c fault gapped failed =>
      have place : pos.after gap = .behind (before ++ laid [] ++ gap) := by
        rw [start, ← Pos.after_append, Pos.origin_after]
        simp [laid]
      refine ⟨[], gap ++ c :: rest, rfl, .nil _ _, rfl, ?_⟩
      rw [place]
      exact .faulty (.of_gapLength gapped) (.of_readToken failed (gapLength_behind_gap gapped))
  | case3 pos text token later found scan ih =>
    intro before start
    cases Scanner.next_eq_iff.mp found with
    | @token _ gap more rest c kind gapped read written =>
      have opens : pos.after gap = Pos.origin.after (before ++ gap) := by
        rw [start, Pos.after_append]
      have ends : (pos.after gap).after (c :: more) = Pos.origin.after (before ++ (gap ++ c :: more)) := by
        rw [opens, ← Pos.after_append, List.append_assoc]
      obtain ⟨tiles, behind, rfl, tiled, tokens, remainder⟩ := ih _ ends
      have sits := Tile.sits_of_read before gapped read written
      rw [← opens, ← ends] at sits
      refine ⟨⟨gap, _⟩ :: tiles, behind, ?_, .cons sits ?_, congrArg _ tokens, ?_⟩
      · rw [laid_cons, Tile.text, written, List.append_assoc, List.append_assoc, List.cons_append]
      · rwa [Tile.text, written]
      · rwa [laid_cons, Tile.text, written, ← List.append_assoc]

/-- Every source is a sequence of gaps and tokens, each token with its place, up to its end or to a
fault. A tokenizer gives these tokens, then the error if there is one, then nothing any more. -/
theorem tokens_tile_source (source : String) :
    ∃ tiles behind error, source.toList = laid tiles ++ behind ∧ Tiled [] tiles behind ∧
      Remainder (laid tiles) behind error ∧
      scan source.toList = ⟨tiles.map Tile.token, error⟩ ∧
      ∀ n, (Tokenizer.start source.toList).called n =
        Tokenizer.answer (tiles.map (.ok ·.token) ++ error.toList.map .error)[n]? := by
  obtain ⟨tiles, behind, parts, tiled, tokens, remainder⟩ :=
    scanFrom_tiles .origin source.toList [] rfl
  refine ⟨tiles, behind, _, parts, tiled, remainder, ?_, fun n => ?_⟩
  · rw [scan, ← tokens]
  · have called := Tokenizer.called_between [] source.toList .origin n
    rw [Scanner.item_eq, Scan.items, tokens, List.map_map] at called
    exact called

end Script

end SyntaxNav

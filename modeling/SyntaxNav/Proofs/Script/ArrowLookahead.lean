import SyntaxNav.Proofs.Script.BacktrackedGrammar
import SyntaxNav.Proofs.Script.BalancedRuns
import SyntaxNav.Proofs.Script.NoOrphans

/-! # The look ahead for arrows is right

The look ahead counts brackets. What is read between parentheses is matched, so it finds the token behind
them: an arrow function can be read only where the look ahead announces one
(`arrow_announced`), and where it does, anything else that can be read ends before the arrow
(`assignmentOrConditional_halts`). Hence trying an arrow function first and going back if there is none
gives the same drafts as looking ahead.
-/

namespace SyntaxNav.Script

variable {cursor last : Cursor}

section Lookahead

private theorem startsWithArrow_iff : startsWithArrow cursor.rest = true ↔ cursor.MeetsArrow := by
  rw [Cursor.MeetsArrow, Cursor.next?]
  cases cursor.rest with
  | nil => simp [startsWithArrow]
  | cons token rest => simp [startsWithArrow]

/-- The look ahead sees the kinds of the tokens and nothing else. -/
theorem arrowBehind_written (opened : Nat) (tokens : List Token) :
    arrowBehind opened ((tokens.map (·.kind)).map written) = arrowBehind opened tokens := by
  induction tokens generalizing opened with
  | nil => rfl
  | cons token rest ih =>
    have starts : startsWithArrow ((rest.map (·.kind)).map written) = startsWithArrow rest := by
      cases rest <;> rfl
    have kind : (written token.kind).kind = token.kind := rfl
    simp only [List.map_cons, arrowBehind, kind, starts, ih]

/-- The look ahead passes over matched tokens. -/
theorem arrowBehind_matched {inner : List Token} (matched : Matched (inner.map (·.kind)))
    (opened : Nat) (rest : List Token) :
    arrowBehind (opened + 1) (inner ++ rest) = arrowBehind (opened + 1) rest := by
  have passed := matched.arrowBehind_append opened (rest.map (·.kind))
  rwa [← List.map_append, arrowBehind_written, arrowBehind_written] at passed

/-- In front of parentheses, the look ahead sees the token behind them. -/
theorem atArrow_of_yields {drafts : List Draft} (opens : cursor.atPunct "(" = true)
    (yields : cursor.advance.Yields last drafts) (closes : last.atPunct ")" = true) :
    cursor.atArrow = true ↔ last.advance.MeetsArrow := by
  obtain ⟨opening, behind, ahead, left⟩ := Cursor.exists_of_next? (Cursor.atPunct_iff.mp opens)
  obtain ⟨closing, rest, final, right⟩ := Cursor.exists_of_next? (Cursor.atPunct_iff.mp closes)
  obtain ⟨inner, passes, covers⟩ := yields
  have inside : behind = inner ++ closing :: rest := by
    rw [← final, ← passes.rest, Cursor.advance, ahead]
  have outside : last.advance.rest = rest := by rw [Cursor.advance, final]
  have seen : cursor.atArrow = startsWithArrow rest := by
    simp only [Cursor.atArrow, ahead, left]
    rw [inside, arrowBehind_matched covers.matched]
    simp only [arrowBehind, right]
    rfl
  rw [seen, ← outside, startsWithArrow_iff]

variable {read : PhraseReader}

private theorem params_announced (covers : PhrasesCover read) :
    Ensures (params read) cursor fun _ after => after.MeetsArrow → cursor.atArrow = true := by
  simp only [params, ensures_bind, ensures_expectPunct]
  intro opens
  refine (list_covers fun _ => param_covers covers).mono ?_
  rintro parameters _ ⟨last, yields, closes, rfl⟩ meets
  exact (atArrow_of_yields opens yields closes).mpr meets

private theorem bindingName_announced :
    Ensures bindingName cursor fun _ after => after.MeetsArrow → cursor.atArrow = true := by
  simp only [bindingName, ensures_bind, ensures_get]
  split
  · exact ensures_failExpected _
  · rename_i token rest ahead
    split
    · rename_i name word
      simp only [ensures_ite, ensures_failExpected, implies_true, ensures_bind, ensures_advance,
        ensures_makeLeaf, true_and]
      intro isName meets
      have outside : cursor.advance.rest = rest := by rw [Cursor.advance, ahead]
      simp only [Cursor.atArrow, ahead, word]
      rw [← outside, startsWithArrow_iff.mpr meets]
      simpa using isName
    all_goals simp

/-- An arrow function can be read only where the look ahead announces one. -/
theorem arrow_announced (covers : PhrasesCover read) :
    Ensures (arrow read) cursor fun _ _ => cursor.atArrow = true := by
  simp only [arrow, ensures_bind, ensures_here, ensures_atPunct, ensures_ite, ensures_expectPunct,
    ensures_pure, Cursor.atPunct_iff]
  constructor
  · intro _
    refine (params_announced covers).mono ?_
    intro parameters middle announced meets
    exact ⟨fun _ _ _ _ _ _ _ => announced meets, fun _ _ _ _ _ _ _ => announced meets⟩
  · intro _
    refine bindingName_announced.mono ?_
    intro parameter middle announced meets
    exact ⟨fun _ _ _ _ _ _ _ => announced meets, fun _ _ _ _ _ _ _ => announced meets⟩

end Lookahead

section Halting

variable {quick slow : PhraseReader}

/-- Where an arrow function is announced, a reader fails or ends before the arrow. -/
def HaltsAtArrows (reader : Reader Draft) : Prop :=
  ∀ cursor : Cursor, cursor.atArrow = true → Ensures reader cursor fun _ after => after.MeetsArrow

private theorem parenthesized_halts (covers : PhrasesCover slow) : HaltsAtArrows (parenthesized slow) := by
  intro cursor announced
  simp only [parenthesized, ensures_bind, ensures_expectPunct, ensures_pure]
  intro opens
  refine (expression_covers covers).mono ?_
  intro inner last yields closes
  exact (atArrow_of_yields opens yields closes).mp announced

/-- An announced arrow function starts with a name before the arrow or with a parenthesis. -/
theorem Cursor.atArrow_cases (announced : cursor.atArrow = true) :
    (∃ name, cursor.next? = some (.word name) ∧ isKeyword name = false ∧ cursor.advance.MeetsArrow) ∨
      cursor.next? = some (.punct "(") := by
  unfold atArrow at announced
  split at announced
  · cases announced
  · rename_i token rest ahead
    have next : cursor.next? = some token.kind := by rw [next?, ahead, List.head?_cons, Option.map_some]
    split at announced
    · rename_i name word
      have outside : cursor.advance.rest = rest := by rw [Cursor.advance, ahead]
      simp only [Bool.and_eq_true, Bool.not_eq_true'] at announced
      rw [← outside, startsWithArrow_iff] at announced
      exact .inl ⟨name, by rw [next, word], announced⟩
    · rename_i opens
      exact .inr (by rw [next, opens])
    · cases announced

private theorem primary_halts (covers : PhrasesCover slow) : HaltsAtArrows (primary slow) := by
  intro cursor announced
  simp only [primary, ensures_bind, ensures_get]
  rcases cursor.atArrow_cases announced with ⟨name, next, isName, meets⟩ | next
  · obtain ⟨token, rest, ahead, word⟩ := Cursor.exists_of_next? next
    simp only [ahead, word]
    split
    all_goals
      rename_i same
      cases same
    case h_8 =>
      simp only [isName, Bool.false_eq_true, ↓reduceIte, literal, ensures_bind, ensures_advance,
        ensures_makeLeaf]
      exact meets
    all_goals exact absurd isName (by decide)
  · obtain ⟨token, rest, ahead, opens⟩ := Cursor.exists_of_next? next
    simp only [ahead, opens]
    exact parenthesized_halts covers cursor announced

private theorem chain_halts (agree : PhrasesAgree quick slow) (covers : PhrasesCover slow) :
    HaltsAtArrows (chain slow) := by
  intro cursor announced
  have notNew : cursor.atWord "new" = false := by
    rw [Cursor.atWord]
    rcases cursor.atArrow_cases announced with ⟨name, next, isName, -⟩ | next
    · rw [next]
      apply decide_eq_false
      rintro ⟨⟩
      exact absurd isName (by decide)
    · rw [next]
      rfl
  simp only [chain, ensures_bind, ensures_here, ensures_atWord, ensures_ite, notNew, Bool.false_eq_true,
    not_false_eq_true, false_implies, forall_const, true_and]
  refine (primary_halts covers cursor announced).mono ?_
  intro inner after meets
  exact (agrees_grow (memberOrCall_agrees agree cursor.start) inner after).halts meets

private theorem postfixed_halts (agree : PhrasesAgree quick slow) (covers : PhrasesCover slow) :
    HaltsAtArrows (postfixed slow) := by
  intro cursor announced
  simp only [postfixed, ensures_bind, ensures_here, ensures_get]
  refine (chain_halts agree covers cursor announced).mono ?_
  intro inner after meets
  split
  · exact (ensures_pure _).mpr meets
  · rename_i found
    exact absurd meets (trailingOperator_other found)

private theorem leadingOperator?_of_name {name : String} (isName : isKeyword name = false) :
    leadingOperator? (.word name) = none := by
  unfold leadingOperator?
  split
  case h_10 => rfl
  all_goals
    rename_i same
    cases same
  all_goals exact absurd isName (by decide)

private theorem unary_halts (agree : PhrasesAgree quick slow) (covers : PhrasesCover slow) :
    HaltsAtArrows (unary slow) := by
  intro cursor announced
  have noOperator : cursor.next?.bind leadingOperator? = none := by
    rcases cursor.atArrow_cases announced with ⟨name, next, isName, -⟩ | next
    · rw [next, Option.bind_some, leadingOperator?_of_name isName]
    · rw [next]
      rfl
  simp only [unary, ensures_bind, ensures_here, ensures_peek, noOperator]
  exact postfixed_halts agree covers cursor announced

private theorem nested_halts {reader : Reader Draft} (halts : HaltsAtArrows reader) :
    HaltsAtArrows (nested reader) := by
  intro cursor announced
  apply ensures_nested
  exact halts { cursor with depth := cursor.depth + 1 } announced

private theorem binary_halts (agree : PhrasesAgree quick slow) (halts : HaltsAtArrows (slow .unary))
    (least : Nat) (allowIn : Bool) : HaltsAtArrows (binary slow least allowIn) := by
  intro cursor announced
  simp only [binary, ensures_bind, ensures_here]
  refine (halts cursor announced).mono ?_
  intro first after meets
  exact (agrees_grow (operation_agrees agree cursor.start least allowIn) first after).halts meets

private theorem conditional_halts (halts : HaltsAtArrows (slow (.binary 1 true))) :
    HaltsAtArrows (conditional slow) := by
  intro cursor announced
  simp only [conditional, ensures_bind, ensures_here, ensures_eatPunct]
  refine (halts cursor announced).mono ?_
  intro test after meets
  rw [meets.atPunct (by decide)]
  exact ⟨fun eaten => absurd eaten Bool.false_ne_true, fun _ => (ensures_pure _).mpr meets⟩

/-- Where an arrow function is announced, any other expression ends before the arrow. -/
theorem assignmentOrConditional_halts (agree : PhrasesAgree quick slow)
    (halts : HaltsAtArrows (slow (.binary 1 true))) : HaltsAtArrows (assignmentOrConditional slow) := by
  intro cursor announced
  simp only [assignmentOrConditional, ensures_bind, ensures_here]
  refine (conditional_halts halts cursor announced).mono ?_
  intro left after meets
  exact (assignmentTo_agrees agree cursor.start left after).halts meets

end Halting

section Grammar

/-- Phrases that are read without a look ahead, beside those that are read with one. -/
structure Companions (quick slow : PhraseReader) : Prop where
  agree : PhrasesAgree quick slow
  covers : PhrasesCover slow
  unary : HaltsAtArrows (slow .unary)
  binary (least : Nat) (allowIn : Bool) : HaltsAtArrows (slow (.binary least allowIn))

variable {quick slow : PhraseReader}

section Attempts

variable {α : Type} {first second : Reader α} {holds : α → Cursor → Prop}

private theorem attempt_of_fails (failure : ∀ value after, first cursor ≠ .ok value after) :
    attempt first second cursor = second cursor := by
  unfold attempt
  split
  · rename_i success
    exact absurd success (failure _ _)
  · rfl

private theorem ensures_attempt (tried : Ensures first cursor holds) (other : Ensures second cursor holds) :
    Ensures (attempt first second) cursor holds := by
  intro value after success
  unfold attempt at success
  split at success
  · rename_i read
    cases success
    exact tried value after read
  · exact other value after success

private theorem settles_attempt (tried : Settles first cursor holds) (other : Settles second cursor holds) :
    Settles (attempt first second) cursor holds := by
  unfold Settles at tried
  unfold Settles attempt
  cases result : first cursor with
  | ok value after =>
    rw [result] at tried
    exact tried
  | error error after => exact other

end Attempts

/-- An expression is read alike with the look ahead and without it. -/
theorem assignment_agrees (companions : Companions quick slow) :
    Agrees (assignment quick) (Backtracking.assignment slow) := by
  intro cursor
  have tried := arrow_agrees companions.agree cursor
  have other := assignmentOrConditional_agrees companions.agree cursor
  have announced : Ensures (arrow slow) cursor fun _ _ => cursor.atArrow = true :=
    arrow_announced companions.covers
  have chosen : assignment quick cursor =
      (if cursor.atArrow = true then arrow quick else assignmentOrConditional quick) cursor := rfl
  constructor
  · cases ahead : cursor.atArrow with
    | true =>
      rw [ahead] at chosen
      constructor
      · intro value after success
        rw [chosen] at success
        simp only [Backtracking.assignment, attempt, tried.same value after success]
      · intro failure
        rw [chosen] at failure
        apply ensures_attempt (tried.astray failure)
        exact assignmentOrConditional_halts companions.agree (companions.binary 1 true) cursor ahead
    | false =>
      have unread : ∀ value after, arrow slow cursor ≠ .ok value after := by
        intro value after success
        exact Bool.false_ne_true (ahead.symm.trans (announced value after success))
      rw [ahead] at chosen
      exact other.toTracksAt.of_eq chosen (attempt_of_fails unread)
  · intro meets
    exact ensures_attempt (tried.halts meets) (other.halts meets)

/-- One unrolling of both grammars keeps them together. -/
theorem Companions.production (companions : Companions quick slow) :
    Companions (fun phrase => phrase.production quick) (Backtracking.production slow) := by
  constructor
  · intro phrase cursor atNew
    cases phrase with
    | statement => exact agreesAt_nested (statement_agrees companions.agree _)
    | assignment => exact assignment_agrees companions cursor
    | binary least allowIn => exact binary_agrees companions.agree least allowIn cursor
    | unary => exact agreesAt_nested (unary_agrees companions.agree _)
    | construction =>
      have next := Cursor.atWord_iff.mp (atNew rfl)
      exact construction_agrees companions.agree (Cursor.not_meetsArrow next (by simp))
  · intro phrase cursor atNew
    have covers := production_covers companions.covers phrase cursor atNew
    cases phrase with
    | assignment =>
      exact ensures_attempt (arrow_covers companions.covers)
        (assignmentOrConditional_covers companions.covers)
    | statement | binary | unary | construction => exact covers
  · exact nested_halts (unary_halts companions.agree companions.covers)
  · exact binary_halts companions.agree companions.unary

private theorem readWithin_companions (limit : Nat) :
    Companions (Phrase.readWithin limit) (Backtracking.readWithin limit) := by
  induction limit with
  | zero =>
    constructor
    · exact fun _ _ _ => agreesAt_fail .stalled
    · exact fun _ _ _ => ensures_fail .stalled
    · exact fun _ _ => ensures_fail .stalled
    · exact fun _ _ _ _ => ensures_fail .stalled
  | succ limit ih => exact ih.production

private theorem program_agrees (agree : PhrasesAgree quick slow) : Agrees (program quick) (program slow) := by
  apply (agrees_many agrees_atEnd agree.statement).bind
  intro body
  exact agrees_look fun cursor =>
    Draft.branch ⟨"Program", some ⟨.origin, cursor.sourceEnd⟩, none⟩ [.list "body" body]

/-- Programs are read alike: at the end of the source nothing is stuck before an arrow. -/
theorem program_eq_ok_iff (companions : Companions quick slow) {draft : Draft} {after : Cursor} :
    program slow cursor = .ok draft after ↔ program quick cursor = .ok draft after := by
  have agrees := program_agrees companions.agree cursor
  constructor
  · intro success
    cases result : program quick cursor with
    | ok value last =>
      rw [← success, agrees.same value last result]
    | error error last =>
      have failed : ∀ value after, program quick cursor ≠ .ok value after := by
        rw [result]
        exact nofun
      have meets : after.next? = some (.punct "=>") := agrees.astray failed draft after success
      have done := (program_covers companions.covers draft after success).1
      rw [Cursor.next?, done] at meets
      cases meets
  · exact agrees.same draft after

private theorem Backtracking.production_progresses {read : PhraseReader} {bound : Nat}
    (phrases : PhrasesProgress read bound) :
    PhrasesProgress (Backtracking.production read) (bound + 1) := by
  intro phrase cursor room
  have progresses := Script.production_progresses phrases phrase cursor room
  cases phrase with
  | assignment =>
    have behind : 5 * cursor.remaining + 2 < bound := Nat.lt_of_succ_lt_succ room
    exact settles_attempt (arrow_progresses phrases (by omega))
      (assignmentOrConditional_progresses phrases behind)
  | statement | binary | unary | construction => exact progresses

private theorem Backtracking.readWithin_progresses (limit : Nat) :
    PhrasesProgress (Backtracking.readWithin limit) limit := by
  induction limit with
  | zero => exact fun _ _ room => absurd room (Nat.not_lt_zero _)
  | succ limit ih => exact production_progresses ih

end Grammar

section Sources

variable {tokens : List Token} {sourceEnd : Pos} {draft : Draft} {source : String}

private theorem Backtracking.parseTokens_eq_ok_iff :
    Backtracking.parseTokens tokens sourceEnd = .ok draft ↔
      Script.parseTokens tokens sourceEnd = .ok draft := by
  have companions := readWithin_companions (unrollings tokens.length)
  constructor
  · intro parsed
    unfold Backtracking.parseTokens at parsed
    split at parsed
    · rename_i success
      cases parsed
      rw [Script.parseTokens, (program_eq_ok_iff companions).mp success]
    · cases parsed
  · intro parsed
    unfold Script.parseTokens at parsed
    split at parsed
    · rename_i success
      cases parsed
      rw [Backtracking.parseTokens, (program_eq_ok_iff companions).mpr success]
    · cases parsed

private theorem Backtracking.parse_eq_ok_iff :
    Backtracking.parse source = .ok draft ↔ Script.parse source = .ok draft := by
  unfold Backtracking.parse Script.parse
  simp only
  cases (scan source.toList).error with
  | some error => rfl
  | none => exact parseTokens_eq_ok_iff

/-- No limit is met without the look ahead either. -/
theorem Backtracking.parse_settles {error : Error} (failed : Backtracking.parse source = .error error) :
    error.fault ≠ .stalled := by
  unfold Backtracking.parse at failed
  simp only at failed
  split at failed
  · rename_i scanned
    cases failed
    exact scanFrom_settles _ _ error scanned
  · have room := Cursor.room_at_first (scan source.toList).tokens (Pos.origin.after source.toList)
    have settles := program_settles (readWithin_progresses _) room
    unfold Backtracking.parseTokens at failed
    split at failed
    · cases failed
    · rename_i met
      cases failed
      exact settles.fault_ne_stalled met

/-- A source is accepted with the look ahead for arrows just if it is accepted by trying an arrow function
first, and the tree is then made of the same draft. -/
theorem lookahead_agrees_with_backtracking (id : TreeId) (source : String) :
    (∀ draft, Backtracking.parse source = .ok draft ↔
      ∃ tree, (language.parse id source).value = .ok tree ∧
        tree.root.relabel Numbered.toLabel = draft) ∧
    ∀ error, Backtracking.parse source = .error error → error.fault ≠ .stalled := by
  constructor
  · intro draft
    rw [Backtracking.parse_eq_ok_iff]
    constructor
    · intro parsed
      rcases toTree_cases id source with ⟨error, failed, -⟩ | ⟨tree, drafted, made, -⟩
      · rw [failed] at parsed
        cases parsed
      · exact ⟨tree, made, Except.ok.inj (drafted.symm.trans parsed)⟩
    · rintro ⟨tree, made, rfl⟩
      exact (toTree_spec made).1
  · intro error failed
    exact Backtracking.parse_settles failed

end Sources

end SyntaxNav.Script

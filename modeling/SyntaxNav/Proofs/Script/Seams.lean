import SyntaxNav.Proofs.Script.ArrowLookahead
import SyntaxNav.Proofs.Script.RelocatedGrammar
import SyntaxNav.Proofs.Script.StatementLockstep

/-! # Statements before further tokens

Behind a semicolon at the end of the tokens, further tokens change nothing about the statements in front of
it: `seam` is the lockstep of a cursor with one that has more tokens ahead. The tokens in a phrase are
matched, so the look ahead for arrows stops within them or before the semicolon. Nor does it matter for a
statement whether there is a newline before it, and where the last one ended (`refreshed`).
-/

namespace SyntaxNav.Script

/-- The last token, if there is one, is a semicolon. -/
def EndsInSemicolon (tokens : List Token) : Prop :=
  ∀ token, tokens.getLast? = some token → token.kind = .punct ";"

namespace EndsInSemicolon

variable {token : Token} {rest : List Token}

private theorem tail (ends : EndsInSemicolon (token :: rest)) : EndsInSemicolon rest := by
  intro last isLast
  refine ends last ?_
  rw [List.getLast?_cons, isLast]
  rfl

/-- A token that is no semicolon is not the last one. -/
theorem tail_ne_nil (ends : EndsInSemicolon (token :: rest)) (other : token.kind ≠ .punct ";") :
    rest ≠ [] := by
  rintro rfl
  exact other (ends token rfl)

end EndsInSemicolon

section Lookahead

variable {rest : List Token} (tail : List Token)

private theorem startsWithArrow_append (someToken : rest ≠ []) :
    startsWithArrow (rest ++ tail) = startsWithArrow rest := by
  obtain ⟨token, rest, rfl⟩ := List.exists_cons_of_ne_nil someToken
  rfl

/-- An arrow that is found is found before further tokens. -/
theorem arrowBehind_append {opened : Nat} (found : arrowBehind opened rest = true) :
    arrowBehind opened (rest ++ tail) = true := by
  have starts {rest : List Token} (arrow : startsWithArrow rest = true) :
      startsWithArrow (rest ++ tail) = true := by
    rw [startsWithArrow_append, arrow]
    rintro rfl
    cases arrow
  fun_induction arrowBehind opened rest with
  | case1 => cases found
  | case2 opened token rest punct kind opening ih =>
    simp only [List.cons_append, arrowBehind, kind, opening, if_true]
    exact ih found
  | case3 token rest punct kind noOpening closing =>
    simp only [List.cons_append, arrowBehind, kind, noOpening, closing, if_true]
    exact starts found
  | case4 opened token rest punct kind noOpening closing several ih =>
    simp only [List.cons_append, arrowBehind, kind, noOpening, closing, several, if_true, if_false]
    exact ih found
  | case5 opened token rest punct kind noOpening noClosing ih =>
    simp only [List.cons_append, arrowBehind, kind, noOpening, noClosing]
    exact ih found
  | case6 opened token rest noPunct ih =>
    rw [List.cons_append, arrowBehind]
    split
    · rename_i punct kind
      exact absurd kind (noPunct punct)
    · exact ih found

/-- Behind an opening parenthesis, matched tokens have the closing one. -/
theorem Matched.behind_parenthesis {kinds : List TokenKind} (matched : Matched (.punct "(" :: kinds)) :
    ∃ inner outer, Matched inner ∧ kinds = inner ++ .punct ")" :: outer := by
  cases matched with
  | token _ plain _ => exact absurd plain (by decide)
  | @pair left right inner outer pair matched _ =>
    obtain rfl : right = ")" := by
      simpa [bracketPairs] using pair
    exact ⟨inner, outer, matched, rfl⟩

/-- What follows matched tokens between which the parenthesis is closed is not looked at. -/
theorem arrowBehind_closed {run : List Token} (matched : Matched (.punct "(" :: run.map (·.kind)))
    (someToken : rest ≠ []) :
    arrowBehind 1 (run ++ rest ++ tail) = arrowBehind 1 (run ++ rest) := by
  obtain ⟨inner, outer, matchedInner, whole⟩ := matched.behind_parenthesis
  obtain ⟨inside, outside, rfl, rfl, closed⟩ := List.map_eq_append_iff.mp whole
  obtain ⟨closing, behind, rfl, closes, -⟩ := List.map_eq_cons_iff.mp closed
  have seen (further : List Token) :
      arrowBehind 1 (inside ++ closing :: further) = startsWithArrow further := by
    rw [arrowBehind_matched matchedInner, arrowBehind]
    simp only [closes]
    rfl
  have nonempty : behind ++ rest ≠ [] := fun empty => someToken (List.append_eq_nil_iff.mp empty).2
  simp only [List.append_assoc, List.cons_append, seen]
  rw [← List.append_assoc, startsWithArrow_append tail nonempty]

end Lookahead

namespace Cursor

/-- A cursor with further tokens behind the last one, up to another end of the source. -/
def extend (tail : List Token) (stop : Pos) (cursor : Cursor) : Cursor :=
  { cursor with rest := cursor.rest ++ tail, sourceEnd := stop }

variable {tail : List Token} {stop : Pos} {cursor : Cursor} {token : Token} {rest : List Token}

private theorem advance_extend (ahead : cursor.rest = token :: rest) :
    (cursor.extend tail stop).advance = cursor.advance.extend tail stop := by
  obtain ⟨_, prevEnd, sourceEnd, depth⟩ := cursor
  obtain rfl : _ = token :: rest := ahead
  rfl

private theorem rest_advance (ahead : cursor.rest = token :: rest) : cursor.advance.rest = rest := by
  rw [advance, ahead]

/-- An arrow function that is announced is announced before further tokens. -/
theorem atArrow_extend (announced : cursor.atArrow = true) :
    (cursor.extend tail stop).atArrow = true := by
  unfold atArrow at announced ⊢
  obtain ⟨_ | ⟨token, rest⟩, prevEnd, sourceEnd, depth⟩ := cursor
  · cases announced
  · simp only [extend, List.cons_append] at announced ⊢
    split
    · rename_i name word
      simp only [word, Bool.and_eq_true] at announced ⊢
      refine ⟨announced.1, ?_⟩
      rw [startsWithArrow_append, announced.2]
      rintro rfl
      cases announced.2
    · rename_i opens
      simp only [opens] at announced
      exact arrowBehind_append tail announced
    · rename_i noWord noParenthesis
      split at announced
      · exact absurd ‹_› (noWord _)
      · exact absurd ‹_› noParenthesis
      · exact announced

/-- Before tokens that something else was read from, no arrow function is announced for further ones. -/
theorem not_atArrow_extend {left : Cursor} {draft : Draft} (ends : EndsInSemicolon cursor.rest)
    (unannounced : cursor.atArrow = false) (yields : cursor.Yields left [draft])
    (someToken : left.rest ≠ []) : (cursor.extend tail stop).atArrow = false := by
  obtain ⟨tokens, passes, covers⟩ := yields
  obtain ⟨token, run, rfl⟩ := List.exists_cons_of_ne_nil (covers.tokens_ne_nil (List.cons_ne_nil _ _))
  have matched := covers.matched
  obtain ⟨all, prevEnd, sourceEnd, depth⟩ := cursor
  obtain rfl : all = token :: (run ++ left.rest) := passes.rest
  unfold atArrow at unannounced ⊢
  simp only [extend, List.cons_append] at unannounced ⊢
  split
  · rename_i name word
    simp only [word] at unannounced
    rw [startsWithArrow_append, unannounced]
    exact ends.tail_ne_nil (by rw [word]; nofun)
  · rename_i opens
    simp only [opens] at unannounced
    rw [List.map_cons, opens] at matched
    rw [arrowBehind_closed tail matched someToken, unannounced]
  · rfl

end Cursor

/-- Further tokens, which do not start with an alternative, behind a semicolon. -/
def seam (tail : List Token) (stop : Pos) (noElse : tail.head?.map (·.kind) ≠ some (.word "else")) :
    Lockstep where
  Entering cursor twin :=
    cursor.rest ≠ [] ∧ EndsInSemicolon cursor.rest ∧ twin = cursor.extend tail stop
  Inside cursor twin :=
    cursor.rest ≠ [] ∧ EndsInSemicolon cursor.rest ∧ twin = cursor.extend tail stop
  Leaving cursor twin := EndsInSemicolon cursor.rest ∧ twin = cursor.extend tail stop
  entering_of_inside := id
  leaving_of_inside := And.right
  leaving_cases := by
    rintro cursor twin ⟨ends, rfl⟩
    by_cases nothing : cursor.rest = []
    · refine .inr ⟨nothing, ?_⟩
      rw [Cursor.atWord, Cursor.next?, Cursor.extend, nothing, List.nil_append]
      exact decide_eq_false noElse
    · exact .inl ⟨nothing, ends, rfl⟩
  head := by
    rintro cursor twin ⟨someToken, -, rfl⟩
    rw [Cursor.extend, List.head?_append_of_ne_nil _ someToken]
  token := by
    rintro cursor twin ⟨someToken, -, rfl⟩
    rw [Cursor.extend, List.head?_append_of_ne_nil _ someToken]
  start := by
    rintro cursor twin ⟨someToken, -, rfl⟩
    obtain ⟨token, rest, ahead⟩ := List.exists_cons_of_ne_nil someToken
    simp only [Cursor.start, Cursor.extend, ahead, List.cons_append]
  second := by
    rintro cursor twin ⟨someToken, ends, rfl⟩ other
    obtain ⟨token, rest, ahead⟩ := List.exists_cons_of_ne_nil someToken
    have differs : token.kind ≠ .punct ";" := by
      rw [Cursor.atPunct, Cursor.next?, ahead] at other
      exact fun same => of_decide_eq_false other (congrArg some same)
    obtain ⟨next, others, rfl⟩ := List.exists_cons_of_ne_nil ((ahead ▸ ends).tail_ne_nil differs)
    simp only [Cursor.second?, Cursor.extend, ahead, List.cons_append]
    rfl
  length_le := by
    rintro cursor twin ⟨-, -, rfl⟩
    rw [Cursor.extend, List.length_append]
    exact Nat.le_add_right _ _
  prevEnd := by
    rintro cursor twin ⟨-, rfl⟩
    rfl
  depth := by
    rintro cursor twin (⟨-, -, rfl⟩ | ⟨-, rfl⟩) <;> rfl
  entering_depth := by
    rintro cursor twin depth ⟨someToken, ends, rfl⟩
    exact ⟨someToken, ends, rfl⟩
  inside_depth := by
    rintro cursor twin depth ⟨someToken, ends, rfl⟩
    exact ⟨someToken, ends, rfl⟩
  leaving_depth := by
    rintro cursor twin depth ⟨ends, rfl⟩
    exact ⟨ends, rfl⟩
  pass := by
    rintro cursor twin kind ⟨someToken, ends, rfl⟩ next other
    obtain ⟨token, rest, ahead, rfl⟩ := Cursor.exists_of_next? next
    rw [ahead] at ends
    rw [Cursor.rest_advance ahead, Cursor.advance_extend ahead]
    exact ⟨ends.tail_ne_nil other, ends.tail, rfl⟩
  pass_semicolon := by
    rintro cursor twin ⟨someToken, ends, rfl⟩ -
    obtain ⟨token, rest, ahead⟩ := List.exists_cons_of_ne_nil someToken
    rw [ahead] at ends
    rw [Cursor.rest_advance ahead, Cursor.advance_extend ahead]
    exact ⟨ends.tail, rfl⟩
  arrow := by
    rintro cursor twin ⟨-, -, rfl⟩
    exact Cursor.atArrow_extend
  no_arrow := by
    rintro cursor twin left right draft ⟨-, ends, rfl⟩ unannounced yields ⟨someToken, -, -⟩
    exact Cursor.not_atArrow_extend ends unannounced yields someToken

/-- The tokens ahead are the same but for what is before the first of them. -/
structure Cursor.Refreshes (cursor twin : Cursor) : Prop where
  head : twin.rest.head?.map (fun token => (token.kind, token.span)) =
    cursor.rest.head?.map fun token => (token.kind, token.span)
  tail : twin.rest.tail = cursor.rest.tail
  sourceEnd : twin.sourceEnd = cursor.sourceEnd
  depth : twin.depth = cursor.depth

namespace Cursor.Refreshes

variable {cursor twin : Cursor}

theorem refl (cursor : Cursor) : cursor.Refreshes cursor := ⟨rfl, rfl, rfl, rfl⟩

private theorem cases (fresh : cursor.Refreshes twin) : (cursor.rest = [] ∧ twin.rest = []) ∨
    ∃ token other rest, cursor.rest = token :: rest ∧ twin.rest = other :: rest ∧
      other.kind = token.kind ∧ other.span = token.span := by
  rcases cases_of_heads fresh.head with ends |
    ⟨token, rest, other, others, first, second, kind, span⟩
  · exact .inl ends
  · have tails := fresh.tail
    rw [first, second] at tails
    obtain rfl : others = rest := tails
    exact .inr ⟨token, other, others, first, second, kind, span⟩

/-- Both cursors are at the end, or none is. -/
theorem rest_eq_nil_iff (fresh : cursor.Refreshes twin) : twin.rest = [] ↔ cursor.rest = [] := by
  rcases fresh.cases with ⟨first, second⟩ | ⟨token, other, rest, first, second, -⟩
  · rw [first, second]
  · rw [first, second]
    exact iff_of_false (List.cons_ne_nil _ _) (List.cons_ne_nil _ _)

private theorem start_eq (fresh : cursor.Refreshes twin) : twin.start = cursor.start := by
  rcases fresh.cases with ⟨first, second⟩ | ⟨token, other, rest, first, second, -, span⟩
  · simp only [start, first, second, fresh.sourceEnd]
  · simp only [start, first, second, span]

private theorem advance_eq (fresh : cursor.Refreshes twin) (someToken : cursor.rest ≠ []) :
    twin.advance = cursor.advance := by
  rcases fresh.cases with ⟨first, -⟩ | ⟨token, other, rest, first, second, -, span⟩
  · exact absurd first someToken
  · simp only [advance, first, second, span, fresh.sourceEnd, fresh.depth]

private theorem atArrow_eq (fresh : cursor.Refreshes twin) : twin.atArrow = cursor.atArrow := by
  rcases fresh.cases with ⟨first, second⟩ | ⟨token, other, rest, first, second, kind, -⟩
  · simp only [atArrow, first, second]
  · simp only [atArrow, first, second, kind]

end Cursor.Refreshes

/-- Another newline before the first token, or another end of the last one. -/
def refreshed : Lockstep where
  Entering := Cursor.Refreshes
  Inside cursor twin := twin = cursor
  Leaving cursor twin := twin = cursor
  entering_of_inside := by
    rintro cursor _ rfl
    exact .refl _
  leaving_of_inside := id
  leaving_cases := .inl
  head := Cursor.Refreshes.head
  token := by
    rintro cursor _ rfl
    rfl
  start := Cursor.Refreshes.start_eq
  second := by
    intro cursor twin fresh _
    rcases fresh.cases with ⟨first, second⟩ | ⟨token, other, rest, first, second, -⟩
    · simp only [Cursor.second?, first, second]
    · simp only [Cursor.second?, first, second, List.getElem?_cons_succ]
  length_le := by
    intro cursor twin fresh
    rcases fresh.cases with ⟨first, second⟩ | ⟨token, other, rest, first, second, -⟩
    · exact Nat.le_of_eq (by rw [first, second])
    · exact Nat.le_of_eq (by rw [first, second, List.length_cons, List.length_cons])
  prevEnd := by
    rintro cursor _ rfl
    rfl
  depth := by
    rintro cursor twin (fresh | rfl)
    · exact fresh.depth
    · rfl
  entering_depth := fun _ fresh => ⟨fresh.head, fresh.tail, fresh.sourceEnd, rfl⟩
  inside_depth := by
    rintro cursor _ depth rfl
    rfl
  leaving_depth := by
    rintro cursor _ depth rfl
    rfl
  pass := by
    intro cursor twin kind fresh next _
    obtain ⟨token, rest, ahead, -⟩ := Cursor.exists_of_next? next
    exact fresh.advance_eq (ahead ▸ List.cons_ne_nil token rest)
  pass_semicolon := by
    intro cursor twin fresh next
    obtain ⟨token, rest, ahead, -⟩ := Cursor.exists_of_next? (Cursor.atPunct_iff.mp next)
    exact fresh.advance_eq (ahead ▸ List.cons_ne_nil token rest)
  arrow := fun fresh announced => fresh.atArrow_eq.trans announced
  no_arrow := fun fresh unannounced _ _ => fresh.atArrow_eq.trans unannounced

end SyntaxNav.Script

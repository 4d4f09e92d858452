import SyntaxNav.Proofs.Script.Assembly
import SyntaxNav.Proofs.Script.GrammarProgress
import SyntaxNav.Proofs.Script.MadeStatements
import SyntaxNav.Proofs.Script.StatementCoverage

/-! # Runs of readers

A reader tells where it ends, and not where it has been. `Steps` are readers written down: each step looks
at the cursor, goes past a token, fails, or reads one level deeper, and steps follow one another. Steps that
are run are a reader, and they can be traced: `Steps.trace` lists the cursors that a run comes through, from
its first to its last. Every reader of the grammar is one of steps, and however it is written down, its runs
stay within the limit of nesting.

With what the grammar covers and how it settles, this says of every part that a loop goes through: reading it
takes a token or fails, and never meets a limit that is not one of nesting.
-/

namespace SyntaxNav.Script

/-- Readers written down. -/
inductive Steps : Type → Type 1
  | done {α : Type} (value : α) : Steps α
  | followed {α β : Type} (first : Steps α) (next : α → Steps β) : Steps β
  | look : Steps Cursor
  | advance : Steps Unit
  | fail {α : Type} (fault : Fault) : Steps α
  | nested {α : Type} (inner : Steps α) : Steps α

/-- The cursor that a reader leaves, also if it fails. -/
def endOf {α : Type} : EStateM.Result Error Cursor α → Cursor
  | .ok _ after => after
  | .error _ after => after

namespace Steps

variable {α : Type}

def run : {α : Type} → Steps α → Reader α
  | _, .done value => pure value
  | _, .followed first next => first.run >>= fun value => (next value).run
  | _, .look => get
  | _, .advance => Script.advance
  | _, .fail fault => Script.fail fault
  | _, .nested inner => Script.nested inner.run

/-- The cursors that steps come through, from a cursor on. -/
def trace : {α : Type} → Steps α → Cursor → List Cursor
  | _, .followed first next, cursor =>
    first.trace cursor ++
      match first.run cursor with
      | .ok value middle => (next value).trace middle
      | .error _ _ => []
  | _, .advance, cursor => [cursor, cursor.advance]
  | _, .nested inner, cursor =>
    if cursor.depth ≥ maxDepth then [cursor]
    else cursor :: (inner.trace { cursor with depth := cursor.depth + 1 } ++
      [endOf (Script.nested inner.run cursor)])
  | _, .done _, cursor | _, .look, cursor | _, .fail _, cursor => [cursor]

private theorem assembled (steps : Steps α) : Assembled steps.run := by
  induction steps with
  | done value => exact .pure value
  | followed first next ihFirst ihNext => exact .bind ihFirst ihNext
  | look => exact .get
  | advance => exact .advance
  | fail fault => exact .fail fault
  | nested inner ih => exact .nested ih

/-- A reader that is put together from steps can be written down. -/
theorem exists_of_assembled {reader : Reader α} (assembled : Assembled reader) :
    ∃ steps : Steps α, steps.run = reader := by
  induction assembled with
  | pure value => exact ⟨.done value, rfl⟩
  | bind _ _ ihFirst ihNext =>
    obtain ⟨first, rfl⟩ := ihFirst
    obtain ⟨next, same⟩ := Classical.axiomOfChoice ihNext
    exact ⟨.followed first next, congrArg (first.run >>= ·) (funext same)⟩
  | get => exact ⟨.look, rfl⟩
  | advance => exact ⟨.advance, rfl⟩
  | fail fault => exact ⟨.fail fault, rfl⟩
  | nested _ ih =>
    obtain ⟨inner, rfl⟩ := ih
    exact ⟨.nested inner, rfl⟩

private theorem head?_trace (steps : Steps α) (cursor : Cursor) :
    (steps.trace cursor).head? = some cursor := by
  induction steps generalizing cursor with
  | followed first next ih _ => rw [trace, List.head?_append, ih, Option.some_or]
  | nested inner ih =>
    rw [trace]
    split <;> rfl
  | done | look | advance | fail => rfl

/-- A trace ends where the run does. -/
theorem getLast?_trace (steps : Steps α) (cursor : Cursor) :
    (steps.trace cursor).getLast? = some (endOf (steps.run cursor)) := by
  induction steps generalizing cursor with
  | followed first next ihFirst ihNext =>
    rw [trace, List.getLast?_append, ihFirst]
    cases ran : first.run cursor with
    | ok value middle =>
      rw [run, bind_ok ran]
      exact congrArg (Option.or · _) (ihNext value middle)
    | error error middle =>
      rw [run, bind_error ran]
      rfl
  | nested inner ih =>
    rw [trace, run]
    split
    · rename_i deep
      rw [nested_apply, if_pos deep]
      rfl
    · rw [List.getLast?_cons, List.getLast?_concat]
      rfl
  | done | look | advance | fail => rfl

/-- Steps leave the depth as they found it, also if they fail. -/
theorem depth_endOf (steps : Steps α) (cursor : Cursor) :
    (endOf (steps.run cursor)).depth = cursor.depth := by
  cases ran : steps.run cursor with
  | ok value after =>
    obtain ⟨taken, passes⟩ := steps.assembled.endsInPlace.ok _ _ _ ran
    exact passes.depth
  | error error after =>
    obtain ⟨⟨taken, passes⟩, -⟩ := steps.assembled.endsInPlace.error _ _ _ ran
    exact passes.depth

/-- Runs that start within the limit of nesting stay within it. -/
theorem depth_le_of_mem_trace (steps : Steps α) {cursor visited : Cursor} (within : cursor.depth ≤ maxDepth)
    (member : visited ∈ steps.trace cursor) : visited.depth ≤ maxDepth := by
  induction steps generalizing cursor with
  | followed first next ihFirst ihNext =>
    rw [trace, List.mem_append] at member
    rcases member with early | late
    · exact ihFirst within early
    · have kept := first.depth_endOf cursor
      split at late
      · rename_i value middle ran
        rw [ran] at kept
        exact ihNext value (kept.symm ▸ within) late
      · cases late
  | nested inner ih =>
    rw [trace] at member
    split at member
    · cases List.mem_singleton.mp member
      exact within
    · rename_i shallow
      rcases List.mem_cons.mp member with rfl | member
      · exact within
      · rcases List.mem_append.mp member with inside | last
        · exact ih (Nat.succ_le_of_lt (Nat.lt_of_not_le shallow)) inside
        · cases List.mem_singleton.mp last
          rw [show Script.nested inner.run = (Steps.nested inner).run from rfl, depth_endOf]
          exact within
  | advance =>
    rcases List.mem_cons.mp member with rfl | last
    · exact within
    · cases List.mem_singleton.mp last
      have kept : cursor.advance.depth = cursor.depth := Steps.advance.depth_endOf cursor
      rw [kept]
      exact within
  | done | look | fail =>
    cases List.mem_singleton.mp member
    exact within

end Steps

/-- A reader can be written down in steps, and however it is, the trace of the steps leads from the cursor to
where the reader ends, and no cursor on the way is deeper than the limit of nesting. -/
def StaysWithin {α : Type} (reader : Reader α) (cursor : Cursor) : Prop :=
  (∃ steps : Steps α, steps.run = reader) ∧ ∀ steps : Steps α, steps.run = reader →
    (steps.trace cursor).head? = some cursor ∧
    (steps.trace cursor).getLast? = some (endOf (reader cursor)) ∧
    ∀ visited ∈ steps.trace cursor, visited.depth ≤ maxDepth

private theorem Assembled.staysWithin {α : Type} {reader : Reader α} (assembled : Assembled reader)
    {cursor : Cursor}
    (within : cursor.depth ≤ maxDepth) : StaysWithin reader cursor := by
  refine ⟨Steps.exists_of_assembled assembled, ?_⟩
  rintro steps rfl
  exact ⟨steps.head?_trace cursor, steps.getLast?_trace cursor,
    fun visited member => steps.depth_le_of_mem_trace within member⟩

/-! ### Constituents -/

/-- The parts of a script that loops of the grammar go through one by one, and those that they start with. -/
inductive Constituent where
  | statement
  | assignment
  | unary
  | primary
  | classMember
  | param
  | argument
  | objectMember
deriving DecidableEq, Repr

namespace Constituent

/-- How a constituent is read, given the reader for the phrases inside it. -/
def reader {m : Type → Type} {Handle : Type} [Monad m] [MonadStateOf Cursor m] [MonadExceptOf Error m]
    [MonadFinally m] [Making m Handle] (read : Phrase → m Handle) : Constituent → m Handle
  | .statement => read .statement
  | .assignment => read .assignment
  | .unary => read .unary
  | .primary => Script.primary read
  | .classMember => Script.classMember read
  | .param => Script.param read
  | .argument => Script.argument read
  | .objectMember => Script.objectMember read

variable {read : PhraseReader} (constituent : Constituent)

private theorem reader_assembled (phrases : ∀ phrase, Assembled (read phrase)) :
    Assembled (constituent.reader read) := by
  cases constituent with
  | statement => exact phrases .statement
  | assignment => exact phrases .assignment
  | unary => exact phrases .unary
  | primary => exact .primary phrases
  | classMember => exact .classMember phrases
  | param => exact .param phrases
  | argument => exact .argument phrases
  | objectMember => exact .objectMember phrases

private theorem reader_mirrors {make : Phrase → Maker NodeId} (phrases : PhrasesMirror read make)
    (builder : Builder) :
    Mirrors (constituent.reader read) (constituent.reader make) builder (Makes builder) := by
  cases constituent with
  | statement => exact phrases .statement builder
  | assignment => exact phrases .assignment builder
  | unary => exact phrases .unary builder
  | primary => exact primary_mirrors phrases
  | classMember => exact classMember_mirrors phrases
  | param => exact param_mirrors phrases
  | argument => exact argument_mirrors phrases
  | objectMember => exact objectMember_mirrors phrases

private theorem reader_covers (phrases : PhrasesCover read) (cursor : Cursor) :
    CoversAt (constituent.reader read) cursor := by
  cases constituent with
  | statement => exact phrases.statement cursor
  | assignment => exact phrases.assignment cursor
  | unary => exact phrases.unary cursor
  | primary => exact primary_covers phrases
  | classMember => exact classMember_covers phrases
  | param => exact param_covers phrases
  | argument => exact argument_covers phrases
  | objectMember => exact objectMember_covers phrases

/-- With room for a statement there is room for every constituent. -/
theorem reader_progresses {bound : Nat} (phrases : PhrasesProgress read bound) {cursor : Cursor}
    (room : 5 * cursor.remaining + 4 < bound) : Progresses (constituent.reader read) cursor := by
  cases constituent with
  | statement => exact phrases.statement room
  | assignment => exact phrases.assignment (by omega)
  | unary => exact phrases.unary (by omega)
  | primary => exact primary_progresses phrases (by omega)
  | classMember => exact classMember_progresses phrases (by omega)
  | param => exact param_progresses phrases (by omega)
  | argument => exact argument_progresses phrases (by omega)
  | objectMember => exact objectMember_progresses phrases (by omega)

end Constituent

/-- Tokens that were passed are counted by an index into all tokens. -/
theorem Cursor.Passes.exists_index {tokens taken : List Token} {cursor after : Cursor} {index : Nat}
    (passes : cursor.Passes taken after) (nonempty : taken ≠ []) (behind : cursor.rest = tokens.drop index) :
    ∃ later token, index < later ∧ later ≤ tokens.length ∧ after.rest = tokens.drop later ∧
      tokens[later - 1]? = some token ∧ after.prevEnd = token.span.stop := by
  have split : tokens.drop index = taken ++ after.rest := behind.symm.trans passes.rest
  have positive : 0 < taken.length := List.length_pos_iff.mpr nonempty
  have lengths := congrArg List.length split
  rw [List.length_drop, List.length_append] at lengths
  refine ⟨index + taken.length, taken.getLast nonempty, ?_, ?_, ?_, ?_, ?_⟩
  · omega
  · omega
  · rw [← List.drop_drop, split, List.drop_left]
  · have place : index + taken.length - 1 = index + (taken.length - 1) := by omega
    rw [place, ← List.getElem?_drop, split, List.getElem?_append_left (by omega), ← List.getLast?_eq_getElem?]
    exact List.getLast?_eq_some_getLast nonempty
  · rw [passes.prevEnd, List.getLast?_eq_some_getLast nonempty]
    rfl

/-- A program is read to an end of its own, whatever the tokens are, and within the limit of nesting. So is
each constituent, from any token on, with as many unrollings as a program has for the tokens that are left.
Where it is read, it has taken a token: the index of the next token has grown and is not past the end, and the
last end is that of the token before. The depth is in the end what it was, also after a failure, and on the
way never more than the limit. A maker does just so, whatever the nodes made before. -/
theorem reading_advances_and_stops (tokens : List Token) (sourceEnd : Pos) :
    (∀ limit, unrollings tokens.length ≤ limit →
      let reader := program (m := Reader) (Phrase.readWithin limit)
      let cursor := Cursor.first tokens sourceEnd
      (∀ error after, reader cursor = .error error after → error.fault ≠ .stalled) ∧
        StaysWithin reader cursor ∧
        ∀ builder, Mirrors reader (program (Phrase.readWithin limit)) builder (Makes builder)) ∧
    ∀ (constituent : Constituent) (limit index depth : Nat) (prevEnd : Pos),
      let reader := constituent.reader (m := Reader) (Phrase.readWithin limit)
      let cursor : Cursor := ⟨tokens.drop index, prevEnd, sourceEnd, depth⟩
      (∀ draft after, reader cursor = .ok draft after → after.depth = depth ∧
        ∃ later token, index < later ∧ later ≤ tokens.length ∧ after.rest = tokens.drop later ∧
          tokens[later - 1]? = some token ∧ after.prevEnd = token.span.stop) ∧
      (∀ error after, reader cursor = .error error after → after.depth = depth ∧
        (unrollings (tokens.length - index) ≤ limit → error.fault ≠ .stalled)) ∧
      (depth ≤ maxDepth → StaysWithin reader cursor) ∧
      ∀ builder, Mirrors reader (constituent.reader (Phrase.readWithin limit)) builder
        (Makes builder) := by
  refine ⟨fun limit enough => ?_, fun constituent limit index depth prevEnd => ?_⟩
  · have room := Nat.lt_of_lt_of_le (Cursor.room_at_first tokens sourceEnd) enough
    have settles := program_settles (readWithin_progresses limit) room
    have assembled := Assembled.program (Assembled.readWithin limit)
    exact ⟨fun error after => settles.fault_ne_stalled, assembled.staysWithin (Nat.zero_le maxDepth),
      program_mirrors (readWithin_mirrors limit)⟩
  · intro reader cursor
    have assembled := constituent.reader_assembled (Assembled.readWithin limit)
    refine ⟨fun draft after success => ?_, fun error after failure => ⟨?_, fun enough => ?_⟩,
      fun within => assembled.staysWithin within,
      constituent.reader_mirrors (readWithin_mirrors limit)⟩
    · obtain ⟨taken, passes, covers⟩ := constituent.reader_covers (readWithin_covers limit) cursor _ _ success
      have nonempty := covers.tokens_ne_nil (List.cons_ne_nil _ _)
      exact ⟨passes.depth, passes.exists_index nonempty rfl⟩
    · obtain ⟨⟨taken, passes⟩, -⟩ := assembled.endsInPlace.error _ _ _ failure
      exact passes.depth
    · have left : cursor.remaining = tokens.length - index := List.length_drop
      have room : 5 * cursor.remaining + 4 < limit := by
        rw [left]
        exact enough
      exact (constituent.reader_progresses (readWithin_progresses limit) room).fault_ne_stalled failure

/-- The tokens of an array that is not closed are read up to their end, where the program fails; the element
before it is read in full. -/
theorem open_array_is_read_to_its_end :
    let tokens : List Token :=
      [⟨.punct "[", ⟨⟨1, 0⟩, ⟨1, 1⟩⟩, false⟩, ⟨.word "a", ⟨⟨1, 1⟩, ⟨1, 2⟩⟩, false⟩]
    let read : PhraseReader := Phrase.readWithin (unrollings tokens.length)
    let cursor : Cursor := ⟨tokens.drop 1, ⟨1, 1⟩, ⟨1, 2⟩, 2⟩
    (∃ error after, program (m := Reader) read (.first tokens ⟨1, 2⟩) = .error error after ∧
      error.fault ≠ .stalled) ∧
    StaysWithin (Constituent.argument.reader read) cursor ∧
    ∃ draft after, Constituent.argument.reader (m := Reader) read cursor = .ok draft after ∧
      after.depth = 2 ∧
      ∃ later token, 1 < later ∧ later ≤ tokens.length ∧ after.rest = tokens.drop later ∧
        tokens[later - 1]? = some token ∧ after.prevEnd = token.span.stop := by
  intro tokens read cursor
  obtain ⟨stops, advances⟩ := reading_advances_and_stops tokens ⟨1, 2⟩
  obtain ⟨ok, -, within, -⟩ := advances .argument (unrollings tokens.length) 1 2 ⟨1, 1⟩
  refine ⟨?_, within (by decide), ?_⟩
  · have fails : ((program read).run' (.first tokens ⟨1, 2⟩)).isSome = false := by decide +kernel
    cases ran : program (m := Reader) read (.first tokens ⟨1, 2⟩) with
    | ok draft after =>
      delta EStateM.run' EStateM.run at fails
      rw [ran] at fails
      cases fails
    | error error after => exact ⟨error, after, rfl, (stops _ (Nat.le_refl _)).1 error after ran⟩
  · have reads : ((Constituent.argument.reader read).run' cursor).isSome = true := by decide +kernel
    cases ran : Constituent.argument.reader (m := Reader) read cursor with
    | ok draft after => exact ⟨draft, after, rfl, ok draft after ran⟩
    | error error after =>
      delta EStateM.run' EStateM.run at reads
      rw [ran] at reads
      cases reads

end SyntaxNav.Script

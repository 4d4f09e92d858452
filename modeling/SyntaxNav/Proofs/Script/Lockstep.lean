import SyntaxNav.Proofs.Script.Backtracking
import SyntaxNav.Proofs.Script.StatementCoverage

/-! # Readers in lockstep

Two readers run side by side on different cursors. `KeepsUp` says that the second one succeeds where the
first one does, with the same value, and that the cursors they leave are related again. A `Lockstep` is
what two cursors must have in common for this: `Entering` at the start of a phrase, `Inside` a phrase,
where also the newline before the next token and the end of the last one count, and `Leaving` at the end
of a statement, where the first cursor may have no tokens left. Every primitive keeps up in every
lockstep, and sequence, choice and repetition keep up if their parts do.
-/

namespace SyntaxNav.Script

variable {α β : Type}

/-- The second reader succeeds where the first one does, with the same value, and related cursors are
left behind. -/
def KeepsUp (before : Cursor → Cursor → Prop) (after : α → Cursor → Cursor → Prop)
    (reader other : Reader α) : Prop :=
  ∀ cursor twin, before cursor twin → Ensures reader cursor fun value left =>
    ∃ right, other twin = .ok value right ∧ after value left right

def At (cursor twin : Cursor) : Cursor → Cursor → Prop :=
  fun left right => left = cursor ∧ right = twin

namespace KeepsUp

variable {before : Cursor → Cursor → Prop} {after : α → Cursor → Cursor → Prop}
  {further : β → Cursor → Cursor → Prop} {reader other : Reader α}

/-- Less may be asked of the end and more of the start. -/
theorem mono {earlier : Cursor → Cursor → Prop} {later : α → Cursor → Cursor → Prop}
    (inner : KeepsUp before after reader other)
    (enough : ∀ cursor twin, earlier cursor twin → before cursor twin)
    (weaker : ∀ value cursor twin, after value cursor twin → later value cursor twin) :
    KeepsUp earlier later reader other := by
  intro cursor twin related
  refine (inner cursor twin (enough cursor twin related)).mono ?_
  rintro value left ⟨right, same, reached⟩
  exact ⟨right, same, weaker value left right reached⟩

/-- Readers that keep up do so from two given cursors. -/
theorem restrict {cursor twin : Cursor} (inner : KeepsUp before after reader other)
    (related : before cursor twin) : KeepsUp (At cursor twin) after reader other := by
  rintro _ _ ⟨rfl, rfl⟩
  exact inner _ _ related

private theorem of_at (pointwise : ∀ cursor twin, before cursor twin →
    KeepsUp (At cursor twin) after reader other) : KeepsUp before after reader other :=
  fun cursor twin related => pointwise cursor twin related cursor twin ⟨rfl, rfl⟩

/-- Giving a value moves no cursor. -/
theorem give {value : α} (reached : ∀ cursor twin, before cursor twin → after value cursor twin) :
    KeepsUp before after (Pure.pure value) (Pure.pure value) := by
  intro cursor twin related
  exact (ensures_pure value).mpr ⟨twin, rfl, reached cursor twin related⟩

theorem pure (value : α) : KeepsUp before (fun _ => before) (Pure.pure value) (Pure.pure value) :=
  give fun _ _ => id

/-- A failure keeps up with anything. -/
theorem fail (fault : Fault) : KeepsUp before after (Script.fail fault) other :=
  fun _ _ _ => ensures_fail fault

theorem failAt (pos : Pos) (fault : Fault) : KeepsUp before after (Script.failAt pos fault) other :=
  fun _ _ _ => ensures_failAt pos fault

theorem failExpected (wanted : String) : KeepsUp before after (Script.failExpected wanted) other :=
  fun _ _ _ => ensures_failExpected wanted

/-- Readers keep up one after another. -/
theorem bind {next otherNext : α → Reader β} (start : KeepsUp before after reader other)
    (rest : ∀ value, KeepsUp (after value) further (next value) (otherNext value)) :
    KeepsUp before further (reader >>= next) (other >>= otherNext) := by
  intro cursor twin related
  rw [ensures_bind]
  refine (start cursor twin related).mono ?_
  rintro value left ⟨right, same, reached⟩
  refine (rest value left right reached).mono ?_
  rintro final last ⟨end_, continued, done⟩
  exact ⟨end_, by rw [bind_ok same, continued], done⟩

/-- Readers keep up through the same branch of a test. -/
theorem ite {second otherSecond : Reader α} (test : Prop) [Decidable test]
    (yes : KeepsUp before after reader other) (no : KeepsUp before after second otherSecond) :
    KeepsUp before after (if test then reader else second) (if test then other else otherSecond) := by
  split
  · exact yes
  · exact no

/-- A choice by the value of a test, which may leave different cursors behind. -/
theorem choose {chosen spared : Cursor → Cursor → Prop} {test otherTest : Reader Bool}
    {second otherSecond : Reader α}
    (tested : KeepsUp before (fun result => bif result then chosen else spared) test otherTest)
    (yes : KeepsUp chosen after reader other) (no : KeepsUp spared after second otherSecond) :
    KeepsUp before after (test >>= fun result => if result = true then reader else second)
      (otherTest >>= fun result => if result = true then other else otherSecond) := by
  refine tested.bind fun result => ?_
  cases result with
  | true => exact yes
  | false => exact no

/-- What is seen at related cursors is the same. -/
theorem look {see otherSee : Cursor → β} {next otherNext : β → Reader α}
    (same : ∀ cursor twin, before cursor twin → otherSee twin = see cursor)
    (rest : ∀ cursor twin, before cursor twin →
      KeepsUp (At cursor twin) after (next (see cursor)) (otherNext (see cursor))) :
    KeepsUp before after ((do return see (← get)) >>= next)
      ((do return otherSee (← get)) >>= otherNext) := by
  intro cursor twin related
  change Ensures (next (see cursor)) cursor fun value left =>
    ∃ right, otherNext (otherSee twin) twin = .ok value right ∧ after value left right
  rw [same cursor twin related]
  exact rest cursor twin related cursor twin ⟨rfl, rfl⟩

private theorem seen {see otherSee : Cursor → α}
    (same : ∀ cursor twin, before cursor twin → otherSee twin = see cursor) :
    KeepsUp before (fun _ => before) (do return see (← MonadState.get))
      (do return otherSee (← MonadState.get)) := by
  intro cursor twin related
  simp only [ensures_bind, ensures_get, ensures_pure]
  exact ⟨twin, congrArg (EStateM.Result.ok · twin) (same cursor twin related), related⟩

/-- What follows a look at the cursor keeps up from the two cursors that are seen. -/
theorem get {next otherNext : Cursor → Reader α} (rest : ∀ cursor twin, before cursor twin →
      KeepsUp (At cursor twin) after (next cursor) (otherNext twin)) :
    KeepsUp before after (MonadState.get >>= next) (MonadState.get >>= otherNext) :=
  fun cursor twin related => rest cursor twin related cursor twin ⟨rfl, rfl⟩

end KeepsUp

/-- Of two lists of tokens whose heads look alike, both are empty, or the two heads differ at most in what is
before them. -/
theorem cases_of_heads {tokens twins : List Token}
    (heads : twins.head?.map (fun token => (token.kind, token.span)) =
      tokens.head?.map fun token => (token.kind, token.span)) :
    (tokens = [] ∧ twins = []) ∨ ∃ token rest other others, tokens = token :: rest ∧
      twins = other :: others ∧ other.kind = token.kind ∧ other.span = token.span := by
  cases tokens with
  | nil => exact .inl ⟨rfl, List.head?_eq_none_iff.mp (Option.map_eq_none_iff.mp heads)⟩
  | cons token rest =>
    obtain ⟨other, found, same⟩ := Option.map_eq_some_iff.mp heads
    obtain ⟨others, second⟩ := List.head?_eq_some_iff.mp found
    obtain ⟨kind, span⟩ := Prod.mk.inj same
    exact .inr ⟨token, rest, other, others, rfl, second, kind, span⟩

/-- What two cursors have in common at the start of a phrase, inside one and at the end of a statement, so
that two readers on them can go side by side. -/
structure Lockstep where
  /-- Cursors at the start of a phrase. -/
  Entering : Cursor → Cursor → Prop
  /-- Cursors inside a phrase, behind at least one of its tokens. -/
  Inside : Cursor → Cursor → Prop
  /-- Cursors behind a semicolon. The first may have no tokens left, and then no alternative of a
  conditional follows at the second. -/
  Leaving : Cursor → Cursor → Prop
  entering_of_inside {cursor twin : Cursor} : Inside cursor twin → Entering cursor twin
  leaving_of_inside {cursor twin : Cursor} : Inside cursor twin → Leaving cursor twin
  leaving_cases {cursor twin : Cursor} : Leaving cursor twin →
    Inside cursor twin ∨ (cursor.rest = [] ∧ twin.atWord "else" = false)
  /-- The next token is of the same kind, at the same place. -/
  head {cursor twin : Cursor} : Entering cursor twin →
    twin.rest.head?.map (fun token => (token.kind, token.span)) =
      cursor.rest.head?.map fun token => (token.kind, token.span)
  /-- Inside a phrase the next token is the same. -/
  token {cursor twin : Cursor} : Inside cursor twin → twin.rest.head? = cursor.rest.head?
  start {cursor twin : Cursor} : Entering cursor twin → twin.start = cursor.start
  second {cursor twin : Cursor} : Entering cursor twin → cursor.atPunct ";" = false →
    twin.second? = cursor.second?
  length_le {cursor twin : Cursor} : Entering cursor twin → cursor.rest.length ≤ twin.rest.length
  prevEnd {cursor twin : Cursor} : Leaving cursor twin → twin.prevEnd = cursor.prevEnd
  depth {cursor twin : Cursor} : Entering cursor twin ∨ Leaving cursor twin → twin.depth = cursor.depth
  entering_depth {cursor twin : Cursor} (depth : Nat) : Entering cursor twin →
    Entering { cursor with depth } { twin with depth }
  inside_depth {cursor twin : Cursor} (depth : Nat) : Inside cursor twin →
    Inside { cursor with depth } { twin with depth }
  leaving_depth {cursor twin : Cursor} (depth : Nat) : Leaving cursor twin →
    Leaving { cursor with depth } { twin with depth }
  pass {cursor twin : Cursor} {kind : TokenKind} : Entering cursor twin →
    cursor.next? = some kind → kind ≠ .punct ";" → Inside cursor.advance twin.advance
  pass_semicolon {cursor twin : Cursor} : Entering cursor twin → cursor.atPunct ";" = true →
    Leaving cursor.advance twin.advance
  /-- Arrow functions are announced at both cursors. -/
  arrow {cursor twin : Cursor} : Entering cursor twin → cursor.atArrow = true → twin.atArrow = true
  /-- Where something else was read, no arrow function is announced at the second cursor either. -/
  no_arrow {cursor twin left right : Cursor} {draft : Draft} : Entering cursor twin →
    cursor.atArrow = false → cursor.Yields left [draft] → Inside left right → twin.atArrow = false

namespace Lockstep

variable (steps : Lockstep)

/-- The second reader keeps up from the start of a phrase to a place inside. -/
abbrev Reads (reader other : Reader α) : Prop :=
  KeepsUp steps.Entering (fun _ => steps.Inside) reader other

/-- The second reader keeps up inside a phrase. -/
abbrev Continues (reader other : Reader α) : Prop :=
  KeepsUp steps.Inside (fun _ => steps.Inside) reader other

/-- The second reader keeps up from the start of a phrase to the end of a statement. -/
abbrev Ends (reader other : Reader α) : Prop :=
  KeepsUp steps.Entering (fun _ => steps.Leaving) reader other

/-- The second reader keeps up from inside a phrase to the end of a statement. -/
abbrev Closes (reader other : Reader α) : Prop :=
  KeepsUp steps.Inside (fun _ => steps.Leaving) reader other

/-- Cursors at the start of a phrase, before a token that is no semicolon. -/
def AtToken (cursor twin : Cursor) : Prop :=
  steps.Entering cursor twin ∧ ∃ kind, cursor.next? = some kind ∧ kind ≠ .punct ";"

variable {steps}

/-- A phrase that is read from its start is read from inside another one. -/
theorem Reads.continues {reader other : Reader α} (reads : steps.Reads reader other) :
    steps.Continues reader other :=
  reads.mono (fun _ _ => steps.entering_of_inside) fun _ _ _ => id

/-- What is read inside a phrase may end it. -/
theorem Continues.closes {reader other : Reader α} (continues : steps.Continues reader other) :
    steps.Closes reader other :=
  continues.mono (fun _ _ => id) fun _ _ _ => steps.leaving_of_inside

theorem Ends.closes {reader other : Reader α} (ends : steps.Ends reader other) :
    steps.Closes reader other :=
  ends.mono (fun _ _ => steps.entering_of_inside) fun _ _ _ => id

/-- A phrase that is read from its start may end a statement. -/
theorem Reads.ends {reader other : Reader α} (reads : steps.Reads reader other) :
    steps.Ends reader other :=
  reads.mono (fun _ _ => id) fun _ _ _ => steps.leaving_of_inside

/-- What keeps up inside a phrase keeps up behind a semicolon if it fails where no tokens are left. -/
theorem leaving_of_stuck {after : α → Cursor → Cursor → Prop} {reader other : Reader α}
    (inner : KeepsUp steps.Inside after reader other)
    (stuck : ∀ cursor, cursor.rest = [] → Ensures reader cursor fun _ _ => False) :
    KeepsUp steps.Leaving after reader other := by
  intro cursor twin leaving
  rcases steps.leaving_cases leaving with inside | ⟨nothing, -⟩
  · exact inner cursor twin inside
  · exact (stuck cursor nothing).mono fun _ _ => False.elim

section Looks

variable {cursor twin : Cursor} (entering : steps.Entering cursor twin)

include entering

private theorem next?_eq : twin.next? = cursor.next? := by
  have heads := congrArg (Option.map Prod.fst) (steps.head entering)
  rwa [Option.map_map, Option.map_map] at heads

private theorem atPunct_eq (punct : String) : twin.atPunct punct = cursor.atPunct punct := by
  rw [Cursor.atPunct, Cursor.atPunct, next?_eq entering]

/-- Both cursors are before the same word, or before none. -/
theorem atWord_eq (word : String) : twin.atWord word = cursor.atWord word := by
  rw [Cursor.atWord, Cursor.atWord, next?_eq entering]

/-- There is no next token at either cursor, or the two next tokens differ at most in what is before
them. -/
theorem head_cases : (cursor.rest = [] ∧ twin.rest = []) ∨
    ∃ token rest other others, cursor.rest = token :: rest ∧ twin.rest = other :: others ∧
      other.kind = token.kind ∧ ∀ kind, leaf kind other = leaf kind token := by
  rcases cases_of_heads (steps.head entering) with ends |
    ⟨token, rest, other, others, first, second, kind, span⟩
  · exact .inl ends
  · refine .inr ⟨token, rest, other, others, first, second, kind, fun _ => ?_⟩
    rw [leaf, leaf, kind, span]

private theorem isEmpty_eq : twin.rest.isEmpty = cursor.rest.isEmpty := by
  rcases head_cases entering with ⟨first, second⟩ | ⟨token, rest, other, others, first, second, -⟩
  · rw [first, second]
  · rw [first, second]
    rfl

end Looks

/-- Inside a phrase there is no next token at either cursor, or the same one at both. -/
theorem token_cases {cursor twin : Cursor} (inside : steps.Inside cursor twin) :
    (cursor.rest = [] ∧ twin.rest = []) ∨
      ∃ token rest others, cursor.rest = token :: rest ∧ twin.rest = token :: others := by
  have heads := steps.token inside
  cases first : cursor.rest with
  | nil =>
    rw [first] at heads
    exact .inl ⟨rfl, List.head?_eq_none_iff.mp heads⟩
  | cons token rest =>
    rw [first] at heads
    obtain ⟨others, second⟩ := List.head?_eq_some_iff.mp heads
    exact .inr ⟨token, rest, others, rfl, second⟩

section Primitives

/-- Going past any token but a semicolon leads into a phrase. -/
theorem advance_at {cursor twin : Cursor} {kind : TokenKind} (entering : steps.Entering cursor twin)
    (next : cursor.next? = some kind) (other : kind ≠ .punct ";") :
    KeepsUp (At cursor twin) (fun _ => steps.Inside) advance advance := by
  rintro _ _ ⟨rfl, rfl⟩
  exact ensures_advance.mpr ⟨_, rfl, steps.pass entering next other⟩

/-- Going past a semicolon leads out of a statement. -/
theorem advance_semicolon_at {cursor twin : Cursor} (entering : steps.Entering cursor twin)
    (next : cursor.atPunct ";" = true) :
    KeepsUp (At cursor twin) (fun _ => steps.Leaving) advance advance := by
  rintro _ _ ⟨rfl, rfl⟩
  exact ensures_advance.mpr ⟨_, rfl, steps.pass_semicolon entering next⟩

theorem advance_past : KeepsUp steps.AtToken (fun _ => steps.Inside) advance advance :=
  .of_at fun _ _ ⟨entering, _, next, other⟩ => advance_at entering next other

/-- At the seam both readers make the same node. -/
theorem leaving_node (kind : String) (start : Pos) (text : Option String)
    (fields : List (Field Draft)) : KeepsUp steps.Leaving (fun _ => steps.Leaving)
      (node kind start text fields) (node kind start text fields) :=
  KeepsUp.seen fun cursor twin leaving => by rw [steps.prevEnd leaving]

theorem inside_node (kind : String) (start : Pos) (text : Option String)
    (fields : List (Field Draft)) :
    steps.Continues (node kind start text fields) (node kind start text fields) :=
  KeepsUp.seen fun cursor twin inside => by rw [steps.prevEnd (steps.leaving_of_inside inside)]

variable {before : Cursor → Cursor → Prop} {after : α → Cursor → Cursor → Prop}
  (sees : ∀ cursor twin, before cursor twin → steps.Entering cursor twin)

include sees

theorem keeps_here : KeepsUp before (fun _ => before) here here :=
  KeepsUp.seen fun cursor twin related => steps.start (sees cursor twin related)

theorem keeps_atPunct (punct : String) :
    KeepsUp before (fun _ => before) (atPunct punct) (atPunct punct) :=
  KeepsUp.seen fun cursor twin related => atPunct_eq (sees cursor twin related) punct

private theorem keeps_atWord (word : String) :
    KeepsUp before (fun _ => before) (atWord word) (atWord word) :=
  KeepsUp.seen fun cursor twin related => atWord_eq (sees cursor twin related) word

theorem keeps_atEnd : KeepsUp before (fun _ => before) atEnd atEnd :=
  KeepsUp.seen fun cursor twin related => isEmpty_eq (sees cursor twin related)

/-- The next token is looked at, and the rest is read where it was looked at. -/
theorem keeps_peek {next otherNext : Option TokenKind → Reader α}
    (rest : ∀ cursor twin, before cursor twin →
      KeepsUp (At cursor twin) after (next cursor.next?) (otherNext cursor.next?)) :
    KeepsUp before after (peek >>= next) (peek >>= otherNext) :=
  KeepsUp.look (fun cursor twin related => next?_eq (sees cursor twin related)) rest

private theorem keeps_eatPunct {punct : String} (other : punct ≠ ";") :
    KeepsUp before (fun eaten => bif eaten then steps.Inside else before)
      (eatPunct punct) (eatPunct punct) := by
  refine KeepsUp.look (fun cursor twin related => atPunct_eq (sees cursor twin related) punct)
    fun cursor twin related => ?_
  cases next : cursor.atPunct punct with
  | true =>
    refine (advance_at (sees cursor twin related) (Cursor.atPunct_iff.mp next) ?_).bind
      fun _ => .give fun _ _ => id
    exact fun same => other (TokenKind.punct.inj same)
  | false => exact (KeepsUp.give fun _ _ => id).restrict related

private theorem keeps_eatWord (word : String) :
    KeepsUp before (fun eaten => bif eaten then steps.Inside else before)
      (eatWord word) (eatWord word) := by
  refine KeepsUp.look (fun cursor twin related => atWord_eq (sees cursor twin related) word)
    fun cursor twin related => ?_
  cases next : cursor.atWord word with
  | true =>
    refine (advance_at (sees cursor twin related) (Cursor.atWord_iff.mp next) ?_).bind
      fun _ => .give fun _ _ => id
    exact nofun
  | false => exact (KeepsUp.give fun _ _ => id).restrict related

end Primitives

section Primitives

theorem entering_here : KeepsUp steps.Entering (fun _ => steps.Entering) here here :=
  keeps_here fun _ _ => id

theorem inside_here : steps.Continues here here :=
  keeps_here fun _ _ => steps.entering_of_inside

private theorem entering_eatPunct {punct : String} (other : punct ≠ ";") :
    KeepsUp steps.Entering (fun eaten => bif eaten then steps.Inside else steps.Entering)
      (eatPunct punct) (eatPunct punct) :=
  keeps_eatPunct (fun _ _ => id) other

private theorem both_inside (eaten : Bool) (cursor twin : Cursor)
    (inside : (bif eaten then steps.Inside else steps.Inside) cursor twin) :
    steps.Inside cursor twin := by
  cases eaten <;> exact inside

/-- A punctuator is passed by both readers or by none. -/
theorem inside_eatPunct {punct : String} (other : punct ≠ ";") :
    steps.Continues (eatPunct punct) (eatPunct punct) :=
  (keeps_eatPunct (fun _ _ => steps.entering_of_inside) other).mono (fun _ _ => id) both_inside

theorem inside_eatWord (word : String) : steps.Continues (eatWord word) (eatWord word) :=
  (keeps_eatWord (fun _ _ => steps.entering_of_inside) word).mono (fun _ _ => id) both_inside

theorem inside_atPunct (punct : String) : steps.Continues (atPunct punct) (atPunct punct) :=
  keeps_atPunct (fun _ _ => steps.entering_of_inside) punct

theorem inside_atWord (word : String) : steps.Continues (atWord word) (atWord word) :=
  keeps_atWord (fun _ _ => steps.entering_of_inside) word

/-- A punctuator that has to come is passed by both readers. -/
theorem reads_expectPunct {punct : String} (other : punct ≠ ";") :
    steps.Reads (expectPunct punct) (expectPunct punct) := by
  refine (entering_eatPunct other).bind fun eaten => ?_
  cases eaten with
  | true => exact .pure ()
  | false => exact .failExpected _

/-- A semicolon that is passed leads to the seam, and otherwise nothing changes. -/
theorem inside_eatSemicolon :
    KeepsUp steps.Inside (fun eaten => bif eaten then steps.Leaving else steps.Inside)
      (eatPunct ";") (eatPunct ";") := by
  refine KeepsUp.look (fun cursor twin inside => atPunct_eq (steps.entering_of_inside inside) ";")
    fun cursor twin inside => ?_
  cases next : cursor.atPunct ";" with
  | true =>
    exact (advance_semicolon_at (steps.entering_of_inside inside) next).bind fun _ => .give fun _ _ => id
  | false => exact (KeepsUp.give fun _ _ => id).restrict inside

theorem closes_expectSemicolon : steps.Closes (expectPunct ";") (expectPunct ";") := by
  refine inside_eatSemicolon.bind fun eaten => ?_
  cases eaten with
  | true => exact .pure ()
  | false => exact .failExpected _

theorem closes_eatSemicolon : steps.Closes (eatPunct ";") (eatPunct ";") := by
  refine inside_eatSemicolon.mono (fun _ _ => id) fun eaten cursor twin related => ?_
  cases eaten with
  | true => exact related
  | false => exact steps.leaving_of_inside related

/-- Behind a statement, the word for an alternative is next at both cursors or at none. -/
theorem leaving_eatElse :
    KeepsUp steps.Leaving (fun eaten => bif eaten then steps.Inside else steps.Leaving)
      (eatWord "else") (eatWord "else") := by
  intro cursor twin leaving
  rcases steps.leaving_cases leaving with inside | ⟨nothing, noElse⟩
  · refine ((inside_eatWord "else").mono (fun _ _ => id) ?_) cursor twin inside
    rintro (_ | _) left right inside
    · exact steps.leaving_of_inside inside
    · exact inside
  · have neither : cursor.atWord "else" = false := by
      rw [Cursor.atWord, Cursor.next?, nothing]
      rfl
    rw [ensures_eatWord, neither]
    refine ⟨fun impossible => absurd impossible Bool.false_ne_true, fun _ => ⟨twin, ?_, leaving⟩⟩
    change (if twin.atWord "else" = true then _ else _ : Reader Bool) twin = _
    rw [noElse]
    rfl

private theorem closes_pure (value : α) : steps.Closes (pure value) (pure value) :=
  .give fun _ _ => steps.leaving_of_inside

/-- The end of a statement is found alike, up to the seam. -/
theorem closes_semicolon : steps.Closes semicolon semicolon := by
  refine inside_eatSemicolon.choose (.pure ()) ?_
  refine (inside_atPunct "\x7d").bind fun closes => ?_
  refine .ite _ (closes_pure ()) ?_
  refine .get fun cursor twin inside => ?_
  rcases token_cases inside with ⟨first, second⟩ | ⟨token, rest, others, first, second⟩
  · rw [first, second]
    exact (closes_pure ()).restrict inside
  · rw [first, second]
    refine .ite _ (.failExpected _) ?_
    exact (closes_pure ()).restrict inside

end Primitives

section Repetition

variable {item other : Reader α}

/-- Items are read one after another as long as the cursor behind each is inside a phrase, or the rest
cannot be read from there. -/
private theorem continues_manyUpTo {between : Cursor → Cursor → Prop} {stop otherStop : Reader Bool}
    (stops : steps.Continues stop otherStop)
    (items : KeepsUp steps.Inside (fun _ => between) item other)
    (goes : ∀ limit cursor twin, between cursor twin → steps.Inside cursor twin ∨
      Ensures (manyUpTo stop item limit) cursor fun _ _ => False)
    {limit more : Nat} (enough : limit ≤ more) :
    steps.Continues (manyUpTo stop item limit) (manyUpTo otherStop other more) := by
  induction limit generalizing more with
  | zero => exact .fail _
  | succ limit ih =>
    obtain ⟨more, rfl⟩ : ∃ fewer, more = fewer + 1 := ⟨more - 1, by omega⟩
    refine stops.bind fun stopped => .ite _ (.pure []) ?_
    refine items.bind fun first => KeepsUp.bind ?_ fun rest => .pure (first :: rest)
    intro cursor twin related
    rcases goes limit cursor twin related with inside | stuck
    · exact ih (by omega) cursor twin inside
    · exact stuck.mono fun _ _ => False.elim

/-- Items that end inside a phrase. -/
theorem continues_many {stop otherStop : Reader Bool} (stops : steps.Continues stop otherStop)
    (items : steps.Continues item other) : steps.Continues (many stop item) (many otherStop other) := by
  refine .get fun cursor twin inside => ?_
  refine (continues_manyUpTo stops items (fun _ _ _ => .inl) ?_).restrict inside
  exact Nat.succ_le_succ (steps.length_le (steps.entering_of_inside inside))

/-- Without a token left, items are neither stopped nor read. -/
theorem manyUpTo_stuck {stop : Reader Bool} {cursor : Cursor} (limit : Nat)
    (goesOn : Ensures stop cursor fun stopped after => stopped = false ∧ after = cursor)
    (stuck : Ensures item cursor fun _ _ => False) :
    Ensures (manyUpTo stop item limit) cursor fun _ _ => False := by
  cases limit with
  | zero => exact ensures_fail _
  | succ limit =>
    rw [manyUpTo, ensures_bind]
    refine goesOn.mono ?_
    rintro _ _ ⟨rfl, rfl⟩
    rw [if_neg Bool.false_ne_true, ensures_bind]
    exact stuck.mono fun _ _ => False.elim

/-- Items that may end behind a semicolon, up to something that has to come. -/
theorem continues_statements {stop otherStop : Reader Bool} (stops : steps.Continues stop otherStop)
    (items : steps.Closes item other)
    (goesOn : ∀ cursor, cursor.rest = [] →
      Ensures stop cursor fun stopped after => stopped = false ∧ after = cursor)
    (stuck : ∀ cursor, cursor.rest = [] → Ensures item cursor fun _ _ => False) :
    steps.Continues (many stop item) (many otherStop other) := by
  refine .get fun cursor twin inside => ?_
  refine (continues_manyUpTo stops items ?_ ?_).restrict inside
  · intro limit cursor twin leaving
    rcases steps.leaving_cases leaving with inside | ⟨nothing, -⟩
    · exact .inl inside
    · exact .inr (manyUpTo_stuck limit (goesOn cursor nothing) (stuck cursor nothing))
  · exact Nat.succ_le_succ (steps.length_le (steps.entering_of_inside inside))

private theorem continues_listUpTo {close : String} (closes : close ≠ ";")
    (items : steps.Continues item other) {limit more : Nat} (enough : limit ≤ more) :
    steps.Continues (listUpTo close item limit) (listUpTo close other more) := by
  induction limit generalizing more with
  | zero => exact .fail _
  | succ limit ih =>
    obtain ⟨more, rfl⟩ : ∃ fewer, more = fewer + 1 := ⟨more - 1, by omega⟩
    refine (inside_eatPunct closes).bind fun closed => .ite _ (.pure []) ?_
    refine items.bind fun first => ?_
    refine (inside_eatPunct (by decide)).bind fun comma => .ite _ ?_ ?_
    · exact (ih (by omega)).bind fun rest => .pure (first :: rest)
    · exact (reads_expectPunct closes).continues.bind fun _ => .pure [first]

/-- Lists in brackets are read in lockstep. -/
theorem continues_list {close : String} (closes : close ≠ ";") (items : steps.Continues item other) :
    steps.Continues (list close item) (list close other) := by
  refine .get fun cursor twin inside => ?_
  refine (continues_listUpTo closes items ?_).restrict inside
  exact Nat.succ_le_succ (steps.length_le (steps.entering_of_inside inside))

/-- Items with commas between them are read in lockstep. -/
theorem reads_commaSeparated (items : steps.Reads item other) :
    steps.Reads (commaSeparated item) (commaSeparated other) := by
  have stops : steps.Continues (do return !(← eatPunct ",")) (do return !(← eatPunct ",")) :=
    (inside_eatPunct (by decide)).bind fun comma => .pure (!comma)
  refine items.bind fun first => ?_
  exact (continues_many stops items.continues).bind fun rest => .pure (first :: rest)

private theorem continues_growUpTo {extend otherExtend : α → Reader (Option α)}
    (extension : ∀ value, steps.Continues (extend value) (otherExtend value)) {limit more : Nat}
    (enough : limit ≤ more) (value : α) :
    steps.Continues (growUpTo extend limit value) (growUpTo otherExtend more value) := by
  induction limit generalizing more value with
  | zero => exact .fail _
  | succ limit ih =>
    obtain ⟨more, rfl⟩ : ∃ fewer, more = fewer + 1 := ⟨more - 1, by omega⟩
    refine (extension value).bind fun extended => ?_
    cases extended with
    | none => exact .pure value
    | some larger => exact ih (by omega) larger

/-- What grows step by step does so in lockstep. -/
theorem continues_grow {extend otherExtend : α → Reader (Option α)}
    (extension : ∀ value, steps.Continues (extend value) (otherExtend value)) (value : α) :
    steps.Continues (grow extend value) (grow otherExtend value) := by
  refine .get fun cursor twin inside => ?_
  refine (continues_growUpTo extension ?_ value).restrict inside
  exact Nat.succ_le_succ (steps.length_le (steps.entering_of_inside inside))

end Repetition

section Nesting

/-- One level deeper, a reader keeps up if it does so at any depth. -/
theorem keepsUp_nested {before : Cursor → Cursor → Prop} {after : Cursor → Cursor → Prop}
    {reader other : Reader α} (inner : KeepsUp before (fun _ => after) reader other)
    (deeper : ∀ cursor twin, before cursor twin → twin.depth = cursor.depth ∧
      ∀ depth, before { cursor with depth } { twin with depth })
    (back : ∀ cursor twin, after cursor twin → twin.depth = cursor.depth ∧
      ∀ depth, after { cursor with depth } { twin with depth }) :
    KeepsUp before (fun _ => after) (nested reader) (nested other) := by
  intro cursor twin related
  obtain ⟨sameDepth, lower⟩ := deeper cursor twin related
  by_cases deep : cursor.depth ≥ maxDepth
  · intro value left success
    rw [nested_apply, if_pos deep] at success
    cases success
  · apply ensures_nested
    refine (inner _ _ (lower (cursor.depth + 1))).mono ?_
    rintro value left ⟨right, same, reached⟩
    obtain ⟨sameAfter, upper⟩ := back left right reached
    refine ⟨{ right with depth := right.depth - 1 }, ?_, sameAfter ▸ upper _⟩
    rw [nested_apply, sameDepth, if_neg deep, same]

/-- A level deeper, statements end alike. -/
theorem ends_nested {reader other : Reader α} (inner : steps.Ends reader other) :
    steps.Ends (nested reader) (nested other) :=
  keepsUp_nested inner
    (fun _ _ entering => ⟨steps.depth (.inl entering), fun depth => steps.entering_depth depth entering⟩)
    fun _ _ leaving => ⟨steps.depth (.inr leaving), fun depth => steps.leaving_depth depth leaving⟩

theorem reads_nested {reader other : Reader α} (inner : steps.Reads reader other) :
    steps.Reads (nested reader) (nested other) :=
  keepsUp_nested inner
    (fun _ _ entering => ⟨steps.depth (.inl entering), fun depth => steps.entering_depth depth entering⟩)
    fun _ _ inside => ⟨steps.depth (.inr (steps.leaving_of_inside inside)),
      fun depth => steps.inside_depth depth inside⟩

end Nesting

end Lockstep

end SyntaxNav.Script

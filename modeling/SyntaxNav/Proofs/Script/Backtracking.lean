import SyntaxNav.Proofs.Script.Reading

/-! # Going back in place of looking ahead

Whether an arrow function starts at a token can be found out by trying to read one. `Backtracking.parse`
does so: it goes back to where it was if the attempt fails, and looks at no token ahead.

An attempt may succeed or fail where the look ahead says otherwise, but only in front of an arrow that
nothing else can take. `AgreesAt` says this of two readers: the second one does what the first does if
that succeeds, and otherwise it fails or is stuck before an arrow. It is kept by sequence, choice and
repetition, and a closing bracket turns being stuck into failing.
-/

namespace SyntaxNav.Script

variable {α β : Type}

/-- Tries a reader. If it fails, another one starts at the same cursor. -/
def attempt (first second : Reader α) : Reader α := fun cursor =>
  match first cursor with
  | .ok value after => .ok value after
  | .error _ _ => second cursor

namespace Backtracking

/-- An expression without a comma at its top: an arrow function if one can be read, else any other. -/
def assignment (read : PhraseReader) : Reader Draft :=
  attempt (arrow read) (assignmentOrConditional read)

/-- How a phrase is read without a look ahead for arrows. -/
def production (read : PhraseReader) : Phrase → Reader Draft
  | .assignment => assignment read
  | phrase => phrase.production read

/-- Reads a phrase with that grammar unrolled a number of times. -/
def readWithin : Nat → PhraseReader
  | 0, _ => fail .stalled
  | limit + 1, phrase => production (readWithin limit) phrase

def parseTokens (tokens : List Token) (sourceEnd : Pos) : Except Error Draft :=
  match program (readWithin (unrollings tokens.length)) (.first tokens sourceEnd) with
  | .ok draft _ => .ok draft
  | .error error _ => .error error

def parse (source : String) : Except Error Draft :=
  let text := source.toList
  let scanned := scan text
  match scanned.error with
  | some error => .error error
  | none => parseTokens scanned.tokens (Pos.origin.after text)

end Backtracking

def Cursor.MeetsArrow (cursor : Cursor) : Prop :=
  cursor.next? = some (.punct "=>")

def Cursor.Never (_ : Cursor) : Prop := False

/-- A reader gives the value of another one that succeeds. If that one fails, it fails as well or stops
at certain cursors. -/
structure TracksAt (stops : Cursor → Prop) (quick slow : Reader α) (cursor : Cursor) : Prop where
  same : ∀ value after, quick cursor = .ok value after → slow cursor = .ok value after
  astray : (∀ value after, quick cursor ≠ .ok value after) →
    Ensures slow cursor fun _ after => stops after

/-- Moreover, in front of an arrow the reader fails or stops at those cursors. -/
structure AgreesAt (stops : Cursor → Prop) (quick slow : Reader α) (cursor : Cursor) : Prop
    extends TracksAt stops quick slow cursor where
  halts : cursor.MeetsArrow → Ensures slow cursor fun _ after => stops after

/-- Readers agree if the second one stops before an arrow where it does not do what the first does. -/
def Agrees (quick slow : Reader α) : Prop :=
  ∀ cursor, AgreesAt Cursor.MeetsArrow quick slow cursor

/-- Readers agree firmly if the second one fails where it does not do what the first does. -/
def AgreesFirmly (quick slow : Reader α) : Prop :=
  ∀ cursor, AgreesAt Cursor.Never quick slow cursor

section Sequence

variable {stops : Cursor → Prop} {cursor : Cursor} {first slowFirst : Reader α}
  {next slowNext : α → Reader β}

/-- If the first reader goes astray, the next one has to stop from where it is stuck. -/
theorem TracksAt.bind {stuck : Cursor → Prop} (start : TracksAt stuck first slowFirst cursor)
    (further : ∀ value middle, stuck middle → Ensures (slowNext value) middle fun _ after => stops after)
    (rest : ∀ value after, TracksAt stops (next value) (slowNext value) after) :
    TracksAt stops (first >>= next) (slowFirst >>= slowNext) cursor := by
  cases result : first cursor with
  | ok value middle =>
    have behind := rest value middle
    constructor
    · intro final after success
      rw [bind_ok result] at success
      rw [bind_ok (start.same value middle result)]
      exact behind.same final after success
    · intro failure final after success
      rw [bind_ok (start.same value middle result)] at success
      apply behind.astray _ final after success
      intro final after success
      exact failure final after (by rw [bind_ok result, success])
  | error error middle =>
    constructor
    · intro final after success
      rw [bind_error result] at success
      cases success
    · intro _
      rw [ensures_bind]
      have failed : ∀ value after, first cursor ≠ .ok value after := by
        rw [result]
        exact nofun
      exact (start.astray failed).mono further

/-- Readers agree one after another; the first must not stop anywhere but before an arrow. -/
theorem AgreesAt.bind (start : AgreesAt Cursor.MeetsArrow first slowFirst cursor)
    (rest : ∀ value after, AgreesAt stops (next value) (slowNext value) after) :
    AgreesAt stops (first >>= next) (slowFirst >>= slowNext) cursor := by
  have further (value : α) (middle : Cursor) (meets : middle.MeetsArrow) :
      Ensures (slowNext value) middle fun _ after => stops after :=
    (rest value middle).halts meets
  constructor
  · exact start.toTracksAt.bind further fun value after => (rest value after).toTracksAt
  · intro meets
    rw [ensures_bind]
    exact (start.halts meets).mono further

/-- Behind a reader that is never stuck, an arrow may be next. -/
theorem AgreesAt.bind_tracks (start : AgreesAt Cursor.Never first slowFirst cursor)
    (rest : ∀ value after, TracksAt stops (next value) (slowNext value) after) :
    AgreesAt stops (first >>= next) (slowFirst >>= slowNext) cursor := by
  have further (value : α) (middle : Cursor) (never : middle.Never) :
      Ensures (slowNext value) middle fun _ after => stops after :=
    never.elim
  constructor
  · exact start.toTracksAt.bind further rest
  · intro meets
    rw [ensures_bind]
    exact (start.halts meets).mono further

/-- Readers that agree can follow one another. -/
theorem Agrees.bind (start : Agrees first slowFirst)
    (rest : ∀ value, Agrees (next value) (slowNext value)) :
    Agrees (first >>= next) (slowFirst >>= slowNext) :=
  fun cursor => (start cursor).bind fun value => rest value

/-- A reader that agrees firmly makes all before it agree firmly. -/
theorem Agrees.bind_firmly (start : Agrees first slowFirst)
    (rest : ∀ value, AgreesFirmly (next value) (slowNext value)) :
    AgreesFirmly (first >>= next) (slowFirst >>= slowNext) :=
  fun cursor => (start cursor).bind fun value => rest value

/-- Firm agreement is agreement. -/
theorem AgreesFirmly.agrees {quick slow : Reader α} (firm : AgreesFirmly quick slow) :
    Agrees quick slow := by
  intro cursor
  obtain ⟨⟨same, astray⟩, halts⟩ := firm cursor
  constructor
  · exact ⟨same, fun failure => (astray failure).mono fun _ _ => False.elim⟩
  · exact fun meets => (halts meets).mono fun _ _ => False.elim

/-- Both readers take the same branch of a test on what is known. -/
theorem AgreesAt.ite {quick slow quickElse slowElse : Reader α} (test : Prop) [Decidable test]
    (yes : test → AgreesAt stops quick slow cursor)
    (no : ¬ test → AgreesAt stops quickElse slowElse cursor) :
    AgreesAt stops (if test then quick else quickElse) (if test then slow else slowElse) cursor := by
  by_cases holds : test
  · rw [if_pos holds, if_pos holds]
    exact yes holds
  · rw [if_neg holds, if_neg holds]
    exact no holds

theorem Agrees.ite {quick slow quickElse slowElse : Reader α} (test : Prop) [Decidable test]
    (yes : Agrees quick slow) (no : Agrees quickElse slowElse) :
    Agrees (if test then quick else quickElse) (if test then slow else slowElse) :=
  fun cursor => .ite test (fun _ => yes cursor) (fun _ => no cursor)

/-- A choice between two readers before a common rest. -/
theorem Agrees.join {test : Prop} [Decidable test] {second slowSecond : Reader α}
    (yes : Agrees first slowFirst) (no : Agrees second slowSecond)
    (rest : ∀ value, Agrees (next value) (slowNext value)) :
    Agrees (if test then first >>= next else second >>= next)
      (if test then slowFirst >>= slowNext else slowSecond >>= slowNext) :=
  .ite test (yes.bind rest) (no.bind rest)

end Sequence

section Primitives

variable {stops : Cursor → Prop} {cursor : Cursor}

/-- A reader tracks itself. -/
theorem TracksAt.refl (reader : Reader α) : TracksAt stops reader reader cursor :=
  ⟨fun _ _ success => success, fun failure value after success =>
    absurd success (failure value after)⟩

/-- Readers track one another if what they come down to does. -/
theorem TracksAt.of_eq {quick slow : Reader α} {first second : Reader α} {middle : Cursor}
    (tracks : TracksAt stops first second middle) (left : quick cursor = first middle)
    (right : slow cursor = second middle) : TracksAt stops quick slow cursor := by
  constructor
  · rw [left, right]
    exact tracks.same
  · intro failure value after success
    rw [left] at failure
    rw [right] at success
    exact tracks.astray failure value after success

/-- A reader agrees with itself if it stops before an arrow. -/
theorem AgreesAt.refl {reader : Reader α}
    (halts : cursor.MeetsArrow → Ensures reader cursor fun _ after => stops after) :
    AgreesAt stops reader reader cursor :=
  ⟨.refl reader, halts⟩

theorem agrees_pure (value : α) : Agrees (pure value) (pure value) := by
  intro cursor
  apply AgreesAt.refl
  simp

/-- Two failures for the same reason agree. -/
theorem agreesAt_fail (fault : Fault) : AgreesAt stops (fail fault : Reader α) (fail fault) cursor := by
  apply AgreesAt.refl
  simp

theorem agreesAt_failAt (pos : Pos) (fault : Fault) :
    AgreesAt stops (failAt pos fault : Reader α) (failAt pos fault) cursor := by
  apply AgreesAt.refl
  simp

theorem agreesAt_failExpected (wanted : String) :
    AgreesAt stops (failExpected wanted : Reader α) (failExpected wanted) cursor := by
  apply AgreesAt.refl
  simp

theorem Agrees.discard {quick slow : Reader α} (inner : Agrees quick slow) :
    Agrees (Functor.discard quick) (Functor.discard slow) :=
  inner.bind fun _ => agrees_pure ()

/-- A part that may be absent, before the rest. -/
theorem Agrees.optional {test : Prop} [Decidable test] {part slowPart : Reader α}
    {next slowNext : Option α → Reader β} (present : Agrees part slowPart)
    (rest : ∀ value, Agrees (next value) (slowNext value)) :
    Agrees (if test then part >>= fun value => pure (some value) >>= next else pure none >>= next)
      (if test then slowPart >>= fun value => pure (some value) >>= slowNext
        else pure none >>= slowNext) :=
  .ite test (present.bind fun value => (agrees_pure (some value)).bind rest)
    ((agrees_pure none).bind rest)

/-- Looking at the cursor makes no difference. -/
theorem agreesAt_get {next slowNext : Cursor → Reader β}
    (rest : AgreesAt stops (next cursor) (slowNext cursor) cursor) :
    AgreesAt stops (get >>= next) (get >>= slowNext) cursor :=
  ⟨⟨rest.same, rest.astray⟩, rest.halts⟩

theorem agreesAt_look {look : Cursor → α} {next slowNext : α → Reader β}
    (rest : AgreesAt stops (next (look cursor)) (slowNext (look cursor)) cursor) :
    AgreesAt stops ((do return look (← get)) >>= next) ((do return look (← get)) >>= slowNext) cursor :=
  ⟨⟨rest.same, rest.astray⟩, rest.halts⟩

theorem agrees_look (look : Cursor → α) : Agrees (do return look (← get)) (do return look (← get)) := by
  intro cursor
  apply AgreesAt.refl
  simp

theorem agrees_here : Agrees here here := agrees_look Cursor.start

theorem agrees_peek : Agrees peek peek := agrees_look Cursor.next?

theorem agrees_atPunct (punct : String) : Agrees (atPunct punct) (atPunct punct) :=
  agrees_look fun cursor => cursor.atPunct punct

theorem agrees_atWord (word : String) : Agrees (atWord word) (atWord word) :=
  agrees_look fun cursor => cursor.atWord word

theorem agrees_atEnd : Agrees atEnd atEnd := agrees_look fun cursor => cursor.rest.isEmpty

theorem agrees_node (kind : String) (start : Pos) (text : Option String) (fields : List (Field Draft)) :
    Agrees (node kind start text fields) (node kind start text fields) :=
  agrees_look fun cursor => Draft.branch ⟨kind, some ⟨start, cursor.prevEnd⟩, text⟩ fields

/-- A token that is no arrow may be passed. -/
theorem agreesAt_advance {next slowNext : Unit → Reader β} (other : ¬ cursor.MeetsArrow)
    (rest : Agrees (next ()) (slowNext ())) :
    AgreesAt Cursor.MeetsArrow (advance >>= next) (advance >>= slowNext) cursor :=
  ⟨⟨(rest cursor.advance).same, (rest cursor.advance).astray⟩, fun meets => absurd meets other⟩

/-- The first token of a construct may be passed if it is no arrow. -/
theorem agreesAt_opened {next slowNext : Pos → Reader β} (other : ¬ cursor.MeetsArrow)
    (rest : ∀ start, Agrees (next start) (slowNext start)) :
    AgreesAt Cursor.MeetsArrow (do let start ← here; advance; next start)
      (do let start ← here; advance; slowNext start) cursor :=
  agreesAt_look (agreesAt_advance other (rest cursor.start))

/-- Before an arrow no other punctuator is next. -/
theorem Cursor.MeetsArrow.atPunct (meets : cursor.MeetsArrow) {punct : String} (other : punct ≠ "=>") :
    cursor.atPunct punct = false := by
  rw [Cursor.atPunct, meets]
  simpa using other.symm

private theorem Cursor.MeetsArrow.atWord (meets : cursor.MeetsArrow) (word : String) :
    cursor.atWord word = false := by
  rw [Cursor.atWord, meets]
  rfl

/-- Behind a punctuator that was there, an arrow may be next. -/
theorem agreesAt_eatPunct {punct : String} (other : punct ≠ "=>") {next slowNext : Bool → Reader β}
    (taken : TracksAt stops (next true) (slowNext true) cursor.advance)
    (left : AgreesAt stops (next false) (slowNext false) cursor) :
    AgreesAt stops (eatPunct punct >>= next) (eatPunct punct >>= slowNext) cursor := by
  cases isNext : cursor.atPunct punct with
  | true =>
    have eaten : eatPunct (m := Reader) punct cursor = .ok true cursor.advance := by
      change (if cursor.atPunct punct = true then advance >>= fun _ => pure true
        else pure false : Reader Bool) cursor = _
      rw [isNext]
      rfl
    constructor
    · exact taken.of_eq (bind_ok eaten next) (bind_ok eaten slowNext)
    · intro meets
      rw [meets.atPunct other] at isNext
      cases isNext
  | false =>
    have passed : eatPunct (m := Reader) punct cursor = .ok false cursor := by
      change (if cursor.atPunct punct = true then advance >>= fun _ => pure true
        else pure false : Reader Bool) cursor = _
      rw [isNext]
      rfl
    constructor
    · exact left.toTracksAt.of_eq (bind_ok passed next) (bind_ok passed slowNext)
    · intro meets value after success
      rw [bind_ok passed] at success
      exact left.halts meets value after success

/-- A punctuator other than the arrow is passed or left alike. -/
theorem agrees_eatPunct {punct : String} (other : punct ≠ "=>") :
    Agrees (eatPunct punct) (eatPunct punct) := by
  intro cursor
  apply AgreesAt.refl
  intro meets
  rw [ensures_eatPunct, meets.atPunct other]
  exact ⟨nofun, fun _ => meets⟩

theorem agrees_eatWord (word : String) : Agrees (eatWord word) (eatWord word) := by
  intro cursor
  apply AgreesAt.refl
  intro meets
  rw [ensures_eatWord, meets.atWord word]
  exact ⟨nofun, fun _ => meets⟩

private theorem agreesFirmly_expectPunct {punct : String} (other : punct ≠ "=>") :
    AgreesFirmly (expectPunct punct) (expectPunct punct) := by
  intro cursor
  apply AgreesAt.refl
  intro meets
  rw [ensures_expectPunct, meets.atPunct other]
  exact nofun

theorem agrees_expectPunct {punct : String} (other : punct ≠ "=>") :
    Agrees (expectPunct punct) (expectPunct punct) :=
  (agreesFirmly_expectPunct other).agrees

/-- The end of a statement is read alike. -/
theorem agrees_semicolon : Agrees semicolon semicolon := by
  intro cursor
  apply AgreesAt.refl
  intro meets
  simp only [semicolon, ensures_bind, ensures_eatPunct, ensures_atPunct,
    meets.atPunct (by decide : ";" ≠ "=>"), meets.atPunct (by decide : "\x7d" ≠ "=>"),
    Bool.false_eq_true, ↓reduceIte, false_implies, forall_const, true_and, ensures_get]
  split
  · exact (ensures_pure _).mpr meets
  · simp only [ensures_ite, ensures_failExpected, implies_true, true_and, ensures_pure]
    exact fun _ => meets

end Primitives

section Repetition

variable {item slowItem : Reader α}

private theorem agrees_manyUpTo {stop : Reader Bool} (stops : Agrees stop stop)
    (items : Agrees item slowItem) (limit : Nat) :
    Agrees (manyUpTo stop item limit) (manyUpTo stop slowItem limit) := by
  induction limit with
  | zero => exact fun _ => agreesAt_fail _
  | succ limit ih =>
    apply stops.bind
    intro stopped
    apply Agrees.ite
    · exact agrees_pure []
    · apply items.bind
      intro first
      apply ih.bind
      intro rest
      exact agrees_pure (first :: rest)

/-- Items are read alike until both readers are told to stop. -/
theorem agrees_many {stop : Reader Bool} (stops : Agrees stop stop) (items : Agrees item slowItem) :
    Agrees (many stop item) (many stop slowItem) :=
  fun cursor => agreesAt_get (agrees_manyUpTo stops items _ cursor)

/-- An element that is stuck before an arrow is followed by neither a comma nor the end of the list. -/
private theorem agreesFirmly_listUpTo {close : String} (other : close ≠ "=>")
    (items : Agrees item slowItem) (limit : Nat) :
    AgreesFirmly (listUpTo close item limit) (listUpTo close slowItem limit) := by
  induction limit with
  | zero => exact fun _ => agreesAt_fail _
  | succ limit ih =>
    intro cursor
    apply agreesAt_eatPunct other
    · exact .refl (pure [])
    · apply (items cursor).bind
      intro first middle
      apply agreesAt_eatPunct (by decide)
      · exact ((ih middle.advance).bind_tracks fun rest _ => .refl (pure (first :: rest))).toTracksAt
      · exact (agreesFirmly_expectPunct other middle).bind_tracks fun _ _ => .refl (pure [first])

/-- A list in brackets is read alike up to its closing bracket. -/
theorem agreesFirmly_list {close : String} (other : close ≠ "=>") (items : Agrees item slowItem) :
    AgreesFirmly (list close item) (list close slowItem) :=
  fun cursor => agreesAt_get (agreesFirmly_listUpTo other items _ cursor)

/-- Items with commas between them are read alike. -/
theorem agrees_commaSeparated (items : Agrees item slowItem) :
    Agrees (commaSeparated item) (commaSeparated slowItem) := by
  apply items.bind
  intro first
  have stops : Agrees (do return !(← eatPunct ",")) (do return !(← eatPunct ",")) :=
    (agrees_eatPunct (by decide)).bind fun comma => agrees_pure (!comma)
  apply (agrees_many stops items).bind
  intro rest
  exact agrees_pure (first :: rest)

private theorem agrees_growUpTo {extend slowExtend : α → Reader (Option α)}
    (extension : ∀ value, Agrees (extend value) (slowExtend value)) (limit : Nat) (value : α) :
    Agrees (growUpTo extend limit value) (growUpTo slowExtend limit value) := by
  induction limit generalizing value with
  | zero => exact fun _ => agreesAt_fail _
  | succ limit ih =>
    apply (extension value).bind
    intro extended
    cases extended with
    | none => exact agrees_pure value
    | some larger => exact ih larger

/-- What grows step by step is read alike. -/
theorem agrees_grow {extend slowExtend : α → Reader (Option α)}
    (extension : ∀ value, Agrees (extend value) (slowExtend value)) (value : α) :
    Agrees (grow extend value) (grow slowExtend value) :=
  fun cursor => agreesAt_get (agrees_growUpTo extension _ value cursor)

end Repetition

/-- Readers agree one level deeper if they agree. -/
theorem agreesAt_nested {quick slow : Reader α} {cursor : Cursor}
    (deeper : AgreesAt Cursor.MeetsArrow quick slow { cursor with depth := cursor.depth + 1 }) :
    AgreesAt Cursor.MeetsArrow (nested quick) (nested slow) cursor := by
  constructor
  · constructor
    · intro value after success
      rw [nested_apply] at success ⊢
      split at success
      · cases success
      · rename_i shallow
        rw [if_neg shallow]
        split at success
        · rename_i middle read
          cases success
          rw [deeper.same value middle read]
        · cases success
    · intro failure
      by_cases deep : cursor.depth ≥ maxDepth
      · intro value after success
        rw [nested_apply, if_pos deep] at success
        cases success
      · apply ensures_nested
        apply deeper.astray
        intro value after read
        apply failure value { after with depth := after.depth - 1 }
        rw [nested_apply, if_neg deep, read]
  · intro meets
    exact ensures_nested (deeper.halts meets)

end SyntaxNav.Script

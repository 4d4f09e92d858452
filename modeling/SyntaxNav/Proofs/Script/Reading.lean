import SyntaxNav.Proofs.Script.Drafts

/-! # What a successful reader ensures

`Ensures reader cursor holds` says that if the reader succeeds at the cursor, then its value and the
cursor it leaves behind satisfy a condition. Each primitive reader has one law that says exactly what
it ensures, the laws of sequence and choice follow the text of a production from front to back, and
the repetitions have one induction each.
-/

namespace SyntaxNav.Script

variable {α β : Type} {cursor : Cursor}

/-- If a reader succeeds at a cursor, its value and the cursor it leaves satisfy a condition. -/
def Ensures (reader : Reader α) (cursor : Cursor) (holds : α → Cursor → Prop) : Prop :=
  ∀ value after, reader cursor = .ok value after → holds value after

/-- Less may be asked of the result. -/
theorem Ensures.mono {reader : Reader α} {holds weaker : α → Cursor → Prop}
    (ensured : Ensures reader cursor holds)
    (imp : ∀ value after, holds value after → weaker value after) :
    Ensures reader cursor weaker :=
  fun value after success => imp value after (ensured value after success)

/-- Two properties of a result hold together. -/
theorem Ensures.and {reader : Reader α} {holds also : α → Cursor → Prop}
    (first : Ensures reader cursor holds) (second : Ensures reader cursor also) :
    Ensures reader cursor fun value after => holds value after ∧ also value after :=
  fun value after success => ⟨first value after success, second value after success⟩

section Primitives

variable {holds : α → Cursor → Prop}

@[simp] theorem ensures_pure (value : α) :
    Ensures (pure value) cursor holds ↔ holds value cursor := by
  constructor
  · intro ensured
    exact ensured value cursor rfl
  · intro holding _ _ success
    cases success
    exact holding

@[simp] theorem ensures_bind (first : Reader β) (next : β → Reader α) :
    Ensures (first >>= next) cursor holds ↔
      Ensures first cursor fun value middle => Ensures (next value) middle holds := by
  constructor
  · intro ensured value middle success final after continued
    refine ensured final after ?_
    change EStateM.bind first next cursor = _
    simp only [EStateM.bind, success, continued]
  · intro ensured final after success
    change EStateM.bind first next cursor = _ at success
    simp only [EStateM.bind] at success
    split at success
    · exact ensured _ _ ‹_› _ _ success
    · cases success

@[simp] theorem ensures_map (change : β → α) (reader : Reader β) :
    Ensures (change <$> reader) cursor holds ↔
      Ensures reader cursor fun value after => holds (change value) after := by
  rw [← bind_pure_comp]
  simp only [ensures_bind, ensures_pure]

@[simp] theorem ensures_discard {holds : Unit → Cursor → Prop} (reader : Reader β) :
    Ensures (discard reader) cursor holds ↔ Ensures reader cursor fun _ after => holds () after :=
  ensures_map (fun _ => ()) reader

@[simp] theorem ensures_ite (test : Prop) [Decidable test] (first second : Reader α) :
    Ensures (if test then first else second) cursor holds ↔
      (test → Ensures first cursor holds) ∧ (¬ test → Ensures second cursor holds) := by
  split <;> simp_all

@[simp] theorem ensures_get {holds : Cursor → Cursor → Prop} :
    Ensures get cursor holds ↔ holds cursor cursor :=
  ensures_pure cursor

@[simp] theorem ensures_fail (fault : Fault) : Ensures (fail fault) cursor holds := by
  intro _ _ success
  cases success

@[simp] theorem ensures_failAt (pos : Pos) (fault : Fault) : Ensures (failAt pos fault) cursor holds := by
  intro _ _ success
  cases success

@[simp] theorem ensures_failExpected (wanted : String) :
    Ensures (failExpected wanted) cursor holds := by
  intro _ _ success
  cases success

@[simp] theorem ensures_advance {holds : Unit → Cursor → Prop} :
    Ensures advance cursor holds ↔ holds () cursor.advance := by
  constructor
  · intro ensured
    exact ensured () cursor.advance rfl
  · intro holding _ _ success
    cases success
    exact holding

@[simp] theorem ensures_here {holds : Pos → Cursor → Prop} :
    Ensures here cursor holds ↔ holds cursor.start cursor := by
  simp [here]

@[simp] theorem ensures_peek {holds : Option TokenKind → Cursor → Prop} :
    Ensures peek cursor holds ↔ holds cursor.next? cursor := by
  simp [peek]

@[simp] theorem ensures_atPunct {holds : Bool → Cursor → Prop} (punct : String) :
    Ensures (atPunct punct) cursor holds ↔ holds (cursor.atPunct punct) cursor := by
  simp [atPunct]

@[simp] theorem ensures_atWord {holds : Bool → Cursor → Prop} (word : String) :
    Ensures (atWord word) cursor holds ↔ holds (cursor.atWord word) cursor := by
  simp [atWord]

@[simp] theorem ensures_atEnd {holds : Bool → Cursor → Prop} :
    Ensures atEnd cursor holds ↔ holds cursor.rest.isEmpty cursor := by
  simp [atEnd]

@[simp] theorem ensures_eatPunct {holds : Bool → Cursor → Prop} (punct : String) :
    Ensures (eatPunct punct) cursor holds ↔
      (cursor.atPunct punct = true → holds true cursor.advance) ∧
        (cursor.atPunct punct = false → holds false cursor) := by
  simp [eatPunct]

@[simp] theorem ensures_eatWord {holds : Bool → Cursor → Prop} (word : String) :
    Ensures (eatWord word) cursor holds ↔
      (cursor.atWord word = true → holds true cursor.advance) ∧
        (cursor.atWord word = false → holds false cursor) := by
  simp [eatWord]

@[simp] theorem ensures_expectPunct {holds : Unit → Cursor → Prop} (punct : String) :
    Ensures (expectPunct punct) cursor holds ↔
      (cursor.atPunct punct = true → holds () cursor.advance) := by
  simp [expectPunct]

@[simp] theorem ensures_makeLeaf {holds : Draft → Cursor → Prop} (kind : String) (token : Token) :
    Ensures (makeLeaf kind token) cursor holds ↔ holds (leaf kind token) cursor :=
  ensures_pure _

@[simp] theorem ensures_noLabel {holds : Unit → Cursor → Prop} :
    Ensures noLabel cursor holds ↔ (cursor.atLabel = false → holds () cursor) := by
  simp [noLabel_eq]

@[simp] theorem ensures_node {holds : Draft → Cursor → Prop} (kind : String) (start : Pos)
    (text : Option String) (fields : List (Field Draft)) :
    Ensures (node kind start text fields) cursor holds ↔
      holds (.branch ⟨kind, some ⟨start, cursor.prevEnd⟩, text⟩ fields) cursor := by
  simp [node]

end Primitives

section Repetition

variable (relates : Cursor → List α → Cursor → Prop)

private theorem manyUpTo_ensures {stop : Reader Bool} {item : Reader α}
    (round : ∀ cursor, Ensures stop cursor fun stopped middle =>
      (stopped = true → relates cursor [] middle) ∧
        (stopped = false → Ensures item middle fun first next =>
          ∀ rest after, relates next rest after → relates cursor (first :: rest) after))
    (limit : Nat) (cursor : Cursor) :
    Ensures (manyUpTo stop item limit) cursor (relates cursor) := by
  induction limit generalizing cursor with
  | zero => simp [manyUpTo]
  | succ limit ih =>
    simp only [manyUpTo, ensures_bind, ensures_ite, ensures_pure]
    refine (round cursor).mono ?_
    rintro stopped middle ⟨ending, going⟩
    refine ⟨ending, ?_⟩
    intro goes
    refine (going (Bool.eq_false_iff.mpr goes)).mono ?_
    intro first next further
    exact (ih next).mono (fun rest after related => further rest after related)

/-- What one round of a repetition ensures, all rounds together ensure. -/
theorem ensures_many {stop : Reader Bool} {item : Reader α}
    (round : ∀ cursor, Ensures stop cursor fun stopped middle =>
      (stopped = true → relates cursor [] middle) ∧
        (stopped = false → Ensures item middle fun first next =>
          ∀ rest after, relates next rest after → relates cursor (first :: rest) after))
    (cursor : Cursor) : Ensures (many stop item) cursor (relates cursor) := by
  simp only [many, ensures_bind, ensures_get]
  exact manyUpTo_ensures relates round _ cursor

private theorem listUpTo_ensures {close : String} {item : Reader α}
    (closing : ∀ cursor, cursor.atPunct close = true → relates cursor [] cursor.advance)
    (round : ∀ cursor, Ensures item cursor fun first next =>
      (next.atPunct "," = true → ∀ rest after,
        relates next.advance rest after → relates cursor (first :: rest) after) ∧
      (next.atPunct close = true → relates cursor [first] next.advance))
    (limit : Nat) (cursor : Cursor) :
    Ensures (listUpTo close item limit) cursor (relates cursor) := by
  induction limit generalizing cursor with
  | zero => simp [listUpTo]
  | succ limit ih =>
    simp only [listUpTo, ensures_bind, ensures_eatPunct, ensures_ite, ensures_pure,
      ensures_expectPunct, Bool.false_eq_true, not_false_eq_true, forall_const, false_implies,
      not_true_eq_false, and_true, true_and]
    refine ⟨closing cursor, fun _ => (round cursor).mono ?_⟩
    rintro first next ⟨further, last⟩
    exact ⟨fun comma => (ih next.advance).mono (further comma), fun _ => last⟩

/-- What one element of a list between brackets ensures, the whole list ensures. -/
theorem ensures_list {close : String} {item : Reader α}
    (closing : ∀ cursor, cursor.atPunct close = true → relates cursor [] cursor.advance)
    (round : ∀ cursor, Ensures item cursor fun first next =>
      (next.atPunct "," = true → ∀ rest after,
        relates next.advance rest after → relates cursor (first :: rest) after) ∧
      (next.atPunct close = true → relates cursor [first] next.advance))
    (cursor : Cursor) : Ensures (list close item) cursor (relates cursor) := by
  simp only [list, ensures_bind, ensures_get]
  exact listUpTo_ensures relates closing round _ cursor

private theorem growUpTo_ensures {invariant final : α → Cursor → Prop} {extend : α → Reader (Option α)}
    (round : ∀ value cursor, invariant value cursor → Ensures (extend value) cursor fun extended after =>
      extended.elim (final value after) fun larger => invariant larger after)
    (limit : Nat) {value : α} (holding : invariant value cursor) :
    Ensures (growUpTo extend limit value) cursor final := by
  induction limit generalizing value cursor with
  | zero => simp [growUpTo]
  | succ limit ih =>
    simp only [growUpTo, ensures_bind]
    refine (round value cursor holding).mono ?_
    intro extended after kept
    cases extended with
    | none => exact (ensures_pure value).mpr kept
    | some larger => exact ih kept

/-- What holds where a value that every extension keeps in order is not extended any more. -/
theorem ensures_grow_until {invariant final : α → Cursor → Prop} {extend : α → Reader (Option α)}
    (round : ∀ value cursor, invariant value cursor → Ensures (extend value) cursor fun extended after =>
      extended.elim (final value after) fun larger => invariant larger after)
    {value : α} (holding : invariant value cursor) :
    Ensures (grow extend value) cursor final := by
  simp only [grow, ensures_bind, ensures_get]
  exact growUpTo_ensures round _ holding

/-- What every extension keeps, the fully extended value has. -/
theorem ensures_grow {invariant : α → Cursor → Prop} {extend : α → Reader (Option α)}
    (round : ∀ value cursor, invariant value cursor →
      Ensures (extend value) cursor fun extended after => invariant (extended.getD value) after)
    {value : α} (holding : invariant value cursor) :
    Ensures (grow extend value) cursor invariant := by
  refine ensures_grow_until (fun value cursor kept => (round value cursor kept).mono ?_) holding
  intro extended after kept
  cases extended with
  | none | some => exact kept

end Repetition

/-- A reader one level deeper ensures what the reader does, if the condition does not look at the
depth. -/
theorem ensures_nested {reader : Reader α} {holds : α → Cursor → Prop}
    (ensured : Ensures reader { cursor with depth := cursor.depth + 1 } fun value after =>
      holds value { after with depth := after.depth - 1 }) :
    Ensures (nested reader) cursor holds := by
  intro value after success
  rw [nested_apply] at success
  split at success
  · exact ensures_fail .tooDeep value after success
  · split at success
    · cases success
      exact ensured _ _ ‹_›
    · cases success

end SyntaxNav.Script

import SyntaxNav.Proofs.Script.Coverage

/-! # Readers that settle

`Settles reader cursor holds` says that the reader comes to an end of its own at the cursor: it fails for
a reason that lies in the script, or it succeeds and its value and the cursor it leaves satisfy a
condition. The limits that repetitions are given are then never met, since every round takes a token.
-/

namespace SyntaxNav.Script

variable {α β : Type} {cursor : Cursor}

/-- A reader succeeds with a condition, or fails without having met a limit. -/
def Settles (reader : Reader α) (cursor : Cursor) (holds : α → Cursor → Prop) : Prop :=
  match reader cursor with
  | .ok value after => holds value after
  | .error error _ => error.fault ≠ .stalled

/-- Less may be asked of the result. -/
theorem Settles.mono {reader : Reader α} {holds weaker : α → Cursor → Prop}
    (settles : Settles reader cursor holds)
    (imp : ∀ value after, holds value after → weaker value after) : Settles reader cursor weaker := by
  unfold Settles at settles ⊢
  split <;> simp_all

/-- An error of a reader that settles lies in the script. -/
theorem Settles.fault_ne_stalled {reader : Reader α} {holds : α → Cursor → Prop} {error : Error}
    {after : Cursor} (settles : Settles reader cursor holds) (failed : reader cursor = .error error after) :
    error.fault ≠ .stalled := by
  unfold Settles at settles
  rw [failed] at settles
  exact settles

section Primitives

variable {holds : α → Cursor → Prop}

@[simp] theorem settles_pure (value : α) : Settles (pure value) cursor holds ↔ holds value cursor :=
  Iff.rfl

@[simp] theorem settles_bind (first : Reader β) (next : β → Reader α) :
    Settles (first >>= next) cursor holds ↔
      Settles first cursor fun value middle => Settles (next value) middle holds := by
  change (match EStateM.bind first next cursor with | .ok _ _ => _ | .error _ _ => _) ↔ _
  simp only [Settles, EStateM.bind]
  cases first cursor with
  | ok value middle => rfl
  | error error middle => rfl

@[simp] theorem settles_map (change : β → α) (reader : Reader β) :
    Settles (change <$> reader) cursor holds ↔
      Settles reader cursor fun value after => holds (change value) after := by
  rw [← bind_pure_comp]
  simp only [settles_bind, settles_pure]

@[simp] theorem settles_discard {holds : Unit → Cursor → Prop} (reader : Reader β) :
    Settles (discard reader) cursor holds ↔ Settles reader cursor fun _ after => holds () after :=
  settles_map (fun _ => ()) reader

@[simp] theorem settles_ite (test : Prop) [Decidable test] (first second : Reader α) :
    Settles (if test then first else second) cursor holds ↔
      (test → Settles first cursor holds) ∧ (¬ test → Settles second cursor holds) := by
  split <;> simp_all

@[simp] theorem settles_get {holds : Cursor → Cursor → Prop} :
    Settles get cursor holds ↔ holds cursor cursor := Iff.rfl

@[simp] theorem settles_fail (fault : Fault) :
    Settles (fail fault) cursor holds ↔ fault ≠ .stalled := Iff.rfl

@[simp] theorem settles_failAt (pos : Pos) (fault : Fault) :
    Settles (failAt pos fault) cursor holds ↔ fault ≠ .stalled := Iff.rfl

@[simp] theorem settles_failExpected (wanted : String) :
    Settles (failExpected wanted) cursor holds :=
  Fault.noConfusion

@[simp] theorem settles_advance {holds : Unit → Cursor → Prop} :
    Settles advance cursor holds ↔ holds () cursor.advance := Iff.rfl

@[simp] theorem settles_here {holds : Pos → Cursor → Prop} :
    Settles here cursor holds ↔ holds cursor.start cursor := Iff.rfl

@[simp] theorem settles_peek {holds : Option TokenKind → Cursor → Prop} :
    Settles peek cursor holds ↔ holds cursor.next? cursor := Iff.rfl

@[simp] theorem settles_atPunct {holds : Bool → Cursor → Prop} (punct : String) :
    Settles (atPunct punct) cursor holds ↔ holds (cursor.atPunct punct) cursor := Iff.rfl

@[simp] theorem settles_atWord {holds : Bool → Cursor → Prop} (word : String) :
    Settles (atWord word) cursor holds ↔ holds (cursor.atWord word) cursor := Iff.rfl

@[simp] theorem settles_atEnd {holds : Bool → Cursor → Prop} :
    Settles atEnd cursor holds ↔ holds cursor.rest.isEmpty cursor := Iff.rfl

@[simp] theorem settles_node {holds : Draft → Cursor → Prop} (kind : String) (start : Pos)
    (text : Option String) (fields : List (Field Draft)) :
    Settles (node kind start text fields) cursor holds ↔
      holds (.branch ⟨kind, some ⟨start, cursor.prevEnd⟩, text⟩ fields) cursor := Iff.rfl

end Primitives

namespace Cursor

def remaining (cursor : Cursor) : Nat := cursor.rest.length

/-- Going past a token that is there leaves one token less. -/
theorem advance_of_rest {token : Token} {rest : List Token} (ahead : cursor.rest = token :: rest) :
    cursor.advance.remaining < cursor.remaining := by
  simp [advance, remaining, ahead]

/-- Going on leaves no more tokens. -/
theorem advance_le (cursor : Cursor) : cursor.advance.remaining ≤ cursor.remaining := by
  cases ahead : cursor.rest with
  | nil => simp [advance, ahead]
  | cons token rest => exact Nat.le_of_lt (advance_of_rest ahead)

/-- Going past a token leaves fewer tokens. -/
theorem advance_of_next? {kind : TokenKind} (next : cursor.next? = some kind) :
    cursor.advance.remaining < cursor.remaining := by
  obtain ⟨token, rest, ahead, -⟩ := exists_of_next? next
  exact advance_of_rest ahead

end Cursor

section Tokens

variable {holds : Bool → Cursor → Prop}

/-- Going past a punctuator leaves one token less. -/
theorem settles_eatPunct {punct : String}
    (taken : ∀ after, after.remaining < cursor.remaining → holds true after) (left : holds false cursor) :
    Settles (eatPunct punct) cursor holds := by
  simp only [eatPunct, settles_bind, settles_atPunct, settles_ite, settles_advance, settles_pure]
  exact ⟨fun here => taken _ (Cursor.advance_of_next? (Cursor.atPunct_iff.mp here)), fun _ => left⟩

/-- A word that is passed leaves fewer tokens, and otherwise nothing changes. -/
theorem settles_eatWord {word : String}
    (taken : ∀ after, after.remaining < cursor.remaining → holds true after) (left : holds false cursor) :
    Settles (eatWord word) cursor holds := by
  simp only [eatWord, settles_bind, settles_atWord, settles_ite, settles_advance, settles_pure]
  exact ⟨fun here => taken _ (Cursor.advance_of_next? (Cursor.atWord_iff.mp here)), fun _ => left⟩

/-- A choice settles if both ways do. The first is taken with one token less to read. -/
private theorem settles_choice {test : Reader Bool} {first second : Reader α} {holds : α → Cursor → Prop}
    (eats : ∀ {holds : Bool → Cursor → Prop},
      (∀ after, after.remaining < cursor.remaining → holds true after) → holds false cursor →
        Settles test cursor holds)
    (taken : ∀ after, after.remaining < cursor.remaining → Settles first after holds)
    (left : Settles second cursor holds) :
    Settles test cursor fun eaten after => Settles (if eaten = true then first else second) after holds := by
  apply eats
  · intro after shorter
    rw [if_pos rfl]
    exact taken after shorter
  · rw [if_neg Bool.false_ne_true]
    exact left

/-- What follows a punctuator has fewer tokens to read. -/
theorem settles_ifPunct {punct : String} {first second : Reader α} {holds : α → Cursor → Prop}
    (taken : ∀ after, after.remaining < cursor.remaining → Settles first after holds)
    (left : Settles second cursor holds) :
    Settles (eatPunct punct) cursor fun eaten after =>
      Settles (if eaten = true then first else second) after holds :=
  settles_choice settles_eatPunct taken left

/-- What follows a word has fewer tokens to read. -/
theorem settles_ifWord {word : String} {first second : Reader α} {holds : α → Cursor → Prop}
    (taken : ∀ after, after.remaining < cursor.remaining → Settles first after holds)
    (left : Settles second cursor holds) :
    Settles (eatWord word) cursor fun eaten after =>
      Settles (if eaten = true then first else second) after holds :=
  settles_choice settles_eatWord taken left

/-- A punctuator that has to come leaves fewer tokens. -/
theorem settles_expectPunct {holds : Unit → Cursor → Prop} {punct : String}
    (taken : ∀ after, after.remaining < cursor.remaining → holds () after) :
    Settles (expectPunct punct) cursor holds := by
  simp only [expectPunct, settles_bind]
  refine settles_eatPunct ?_ ?_
  · intro after shorter
    simpa using taken after shorter
  · simp

/-- The end of a statement takes one token at most. -/
theorem settles_semicolon {holds : Unit → Cursor → Prop}
    (ended : ∀ after, after.remaining ≤ cursor.remaining → holds () after) :
    Settles semicolon cursor holds := by
  simp only [semicolon, settles_bind]
  refine settles_eatPunct ?_ ?_
  · intro after shorter
    simpa using ended after (Nat.le_of_lt shorter)
  · have stays := ended cursor (Nat.le_refl _)
    simp only [Bool.false_eq_true, ↓reduceIte, settles_bind, settles_pure, settles_atPunct, settles_ite,
      settles_get]
    refine ⟨fun _ => stays, fun _ => ?_⟩
    split
    · exact stays
    · simp only [settles_ite, settles_failExpected, settles_pure, implies_true, true_and]
      exact fun _ => stays

end Tokens

section Repetition

private theorem manyUpTo_settles {stop : Reader Bool} {item : Reader α} {size : Nat}
    (round : ∀ cursor, cursor.remaining ≤ size → Settles stop cursor fun stopped middle =>
      middle.remaining ≤ cursor.remaining ∧
        (stopped = false → Settles item middle fun _ next => next.remaining < cursor.remaining))
    {limit : Nat} {cursor : Cursor} (fits : cursor.remaining ≤ size) (room : cursor.remaining < limit) :
    Settles (manyUpTo stop item limit) cursor fun _ after => after.remaining ≤ cursor.remaining := by
  induction limit generalizing cursor with
  | zero => omega
  | succ limit ih =>
    simp only [manyUpTo, settles_bind, settles_ite, settles_pure]
    refine (round cursor fits).mono ?_
    rintro stopped middle ⟨shorter, further⟩
    refine ⟨fun _ => shorter, fun goes => (further (Bool.eq_false_iff.mpr goes)).mono ?_⟩
    intro first next progress
    refine (ih (by omega) (by omega)).mono ?_
    intro rest after shorter
    omega

/-- A repetition settles if each round takes a token. -/
theorem settles_many {stop : Reader Bool} {item : Reader α} {cursor : Cursor}
    (round : ∀ middle, middle.remaining ≤ cursor.remaining → Settles stop middle fun stopped inner =>
      inner.remaining ≤ middle.remaining ∧
        (stopped = false → Settles item inner fun _ next => next.remaining < middle.remaining)) :
    Settles (many stop item) cursor fun _ after => after.remaining ≤ cursor.remaining := by
  simp only [many, settles_bind, settles_get]
  exact manyUpTo_settles round (Nat.le_refl _) (Nat.lt_succ_self _)

private theorem listUpTo_settles {close : String} {item : Reader α} {size : Nat}
    (round : ∀ cursor, cursor.remaining ≤ size → Settles item cursor fun _ next =>
      next.remaining < cursor.remaining)
    {limit : Nat} {cursor : Cursor} (fits : cursor.remaining ≤ size) (room : cursor.remaining < limit) :
    Settles (listUpTo close item limit) cursor fun _ after => after.remaining < cursor.remaining := by
  induction limit generalizing cursor with
  | zero => omega
  | succ limit ih =>
    simp only [listUpTo, settles_bind]
    apply settles_ifPunct
    · exact fun after shorter => shorter
    simp only [settles_bind]
    refine (round cursor fits).mono ?_
    intro first next progress
    apply settles_ifPunct
    · intro middle shorter
      simp only [settles_bind, settles_pure]
      refine (ih (by omega) (by omega)).mono ?_
      intro rest after shorter
      omega
    · simp only [settles_bind, settles_pure]
      apply settles_expectPunct
      intro after shorter
      omega

/-- A list settles if each element takes a token. -/
theorem settles_list {close : String} {item : Reader α} {cursor : Cursor}
    (round : ∀ middle, middle.remaining ≤ cursor.remaining → Settles item middle fun _ next =>
      next.remaining < middle.remaining) :
    Settles (list close item) cursor fun _ after => after.remaining < cursor.remaining := by
  simp only [list, settles_bind, settles_get]
  exact listUpTo_settles round (Nat.le_refl _) (Nat.lt_succ_self _)

/-- Items with commas between them settle if each item takes a token. -/
theorem settles_commaSeparated {item : Reader α} {cursor : Cursor}
    (round : ∀ middle, middle.remaining ≤ cursor.remaining → Settles item middle fun _ next =>
      next.remaining < middle.remaining) :
    Settles (commaSeparated item) cursor fun _ after => after.remaining < cursor.remaining := by
  simp only [commaSeparated, settles_bind, settles_pure]
  refine (round cursor (Nat.le_refl _)).mono ?_
  intro first next progress
  refine (settles_many ?_).mono fun rest after shorter => by omega
  intro middle shorter
  simp only [settles_bind, settles_pure]
  refine settles_eatPunct ?_ (by simp)
  intro inner taken
  refine ⟨Nat.le_of_lt taken, fun _ => (round inner (by omega)).mono ?_⟩
  intro item after progress
  omega

private theorem growUpTo_settles {extend : α → Reader (Option α)} {size : Nat}
    (round : ∀ value cursor, cursor.remaining ≤ size → Settles (extend value) cursor fun extended after =>
      after.remaining + (if extended.isSome then 1 else 0) ≤ cursor.remaining)
    {limit : Nat} {value : α} {cursor : Cursor} (fits : cursor.remaining ≤ size)
    (room : cursor.remaining < limit) :
    Settles (growUpTo extend limit value) cursor fun _ after => after.remaining ≤ cursor.remaining := by
  induction limit generalizing value cursor with
  | zero => omega
  | succ limit ih =>
    simp only [growUpTo, settles_bind]
    refine (round value cursor fits).mono ?_
    intro extended middle shorter
    cases extended with
    | none => simpa using shorter
    | some larger =>
      simp only [Option.isSome_some, ↓reduceIte] at shorter
      refine (ih (by omega) (by omega)).mono ?_
      intro value after shorter
      omega

/-- Extending a value settles if each extension takes a token. -/
theorem settles_grow {extend : α → Reader (Option α)} {value : α} {cursor : Cursor}
    (round : ∀ value middle, middle.remaining ≤ cursor.remaining →
      Settles (extend value) middle fun extended after =>
        after.remaining + (if extended.isSome then 1 else 0) ≤ middle.remaining) :
    Settles (grow extend value) cursor fun _ after => after.remaining ≤ cursor.remaining := by
  simp only [grow, settles_bind, settles_get]
  exact growUpTo_settles round (Nat.le_refl _) (Nat.lt_succ_self _)

end Repetition

/-- A reader one level deeper settles if the reader does, since the limit on depth is a fault of its
own. -/
theorem settles_nested {reader : Reader α} {holds : α → Cursor → Prop}
    (settles : Settles reader { cursor with depth := cursor.depth + 1 } fun value after =>
      holds value { after with depth := after.depth - 1 }) :
    Settles (nested reader) cursor holds := by
  rw [Settles, nested_apply]
  by_cases deep : cursor.depth ≥ maxDepth
  · rw [if_pos deep]
    exact Fault.noConfusion
  · rw [if_neg deep]
    unfold Settles at settles
    cases result : reader { cursor with depth := cursor.depth + 1 } with
    | ok value after =>
      rw [result] at settles
      exact settles
    | error error after =>
      rw [result] at settles
      exact settles

end SyntaxNav.Script

import SyntaxNav.Proofs.Script.WrittenForms

/-! # Reading what was written

`Gives reader cursor holds` says that a reader succeeds at a cursor with a value and a cursor that satisfy
a condition, or fails only because the limit of nesting is reached. A cursor over written tokens knows
their kinds and nothing else: all tokens are in one place and on one line. `Rereads` says that a reader
gives a value for exactly the tokens that were written for it, whatever the depth.

Each primitive reader has one law for cursors over written tokens, and the repetitions have one induction
each.
-/

namespace SyntaxNav.Script

variable {α β : Type}

/-- A token of a kind without a place, on the line of the token before it. -/
def written (kind : TokenKind) : Token :=
  ⟨kind, ⟨.origin, .origin⟩, false⟩

/-- The cursor in front of written tokens. -/
def Cursor.over (kinds : List TokenKind) (depth : Nat) : Cursor :=
  ⟨kinds.map written, .origin, .origin, depth⟩

namespace Cursor

variable (kinds : List TokenKind) (kind : TokenKind) (depth : Nat) (text : String)

@[simp] theorem over_start : (Cursor.over kinds depth).start = .origin := by
  cases kinds <;> rfl

@[simp] theorem over_next? : (Cursor.over kinds depth).next? = kinds.head? := by
  cases kinds <;> rfl

@[simp] theorem over_advance : (Cursor.over (kind :: kinds) depth).advance = .over kinds depth := rfl

@[simp] theorem over_atPunct :
    (Cursor.over kinds depth).atPunct text = decide (kinds.head? = some (.punct text)) := by
  simp [atPunct]

@[simp] theorem over_atWord :
    (Cursor.over kinds depth).atWord text = decide (kinds.head? = some (.word text)) := by
  simp [atWord]

@[simp] theorem over_isEmpty : (Cursor.over kinds depth).rest.isEmpty = kinds.isEmpty := by
  simp [Cursor.over]

end Cursor

/-- A reader gives a value and a cursor that satisfy a condition, or reaches the limit of nesting. -/
def Gives (reader : Reader α) (cursor : Cursor) (holds : α → Cursor → Prop) : Prop :=
  match reader cursor with
  | .ok value after => holds value after
  | .error error _ => error.fault = .tooDeep

/-- Less may be asked of the result. -/
theorem Gives.mono {reader : Reader α} {cursor : Cursor} {holds weaker : α → Cursor → Prop}
    (gives : Gives reader cursor holds)
    (imp : ∀ value after, holds value after → weaker value after) : Gives reader cursor weaker := by
  unfold Gives at gives ⊢
  split at gives
  · exact imp _ _ gives
  · exact gives

/-- A reader gives a result, or fails because it is too deep. -/
theorem Gives.cases {reader : Reader α} {cursor : Cursor} {holds : α → Cursor → Prop}
    (gives : Gives reader cursor holds) :
    (∃ value after, reader cursor = .ok value after ∧ holds value after) ∨
      ∃ error after, reader cursor = .error error after ∧ error.fault = .tooDeep := by
  unfold Gives at gives
  split at gives
  · exact .inl ⟨_, _, ‹_›, gives⟩
  · exact .inr ⟨_, _, ‹_›, gives⟩

/-- A reader that does at a cursor what another one does gives what the other gives. -/
theorem Gives.of_eq {reader : Reader α} {cursor : Cursor} {holds : α → Cursor → Prop}
    (other : Reader α) (same : reader cursor = other cursor) (gives : Gives other cursor holds) :
    Gives reader cursor holds := by
  unfold Gives at gives ⊢
  rwa [same]

/-- A reader gives a value for the tokens written for it, and stops at the rest. -/
def Rereads (reader : Reader α) (kinds : List TokenKind) (value : α) (rest : List TokenKind) : Prop :=
  ∀ depth, Gives reader (.over (kinds ++ rest) depth) fun again after =>
    again = value ∧ after = .over rest depth

/-- A reader that reads tokens back goes on with what stands behind them. -/
theorem Rereads.gives {reader : Reader α} {kinds rest : List TokenKind} {value : α}
    (rereads : Rereads reader kinds value rest) {depth : Nat} {holds : α → Cursor → Prop}
    (holding : holds value (.over rest depth)) :
    Gives reader (.over (kinds ++ rest) depth) holds := by
  apply (rereads depth).mono
  rintro _ _ ⟨rfl, rfl⟩
  exact holding

section Primitives

variable {cursor : Cursor} {holds : α → Cursor → Prop} {kinds : List TokenKind} {depth : Nat}

@[simp] theorem gives_pure (value : α) : Gives (pure value) cursor holds ↔ holds value cursor :=
  Iff.rfl

@[simp] theorem gives_bind (first : Reader β) (next : β → Reader α) :
    Gives (first >>= next) cursor holds ↔
      Gives first cursor fun value middle => Gives (next value) middle holds := by
  change (match EStateM.bind first next cursor with
    | .ok value after => holds value after
    | .error error _ => error.fault = .tooDeep) ↔ _
  simp only [Gives, EStateM.bind]
  cases first cursor <;> rfl

@[simp] theorem gives_map (change : β → α) (reader : Reader β) :
    Gives (change <$> reader) cursor holds ↔
      Gives reader cursor fun value after => holds (change value) after := by
  rw [← bind_pure_comp]
  simp only [gives_bind, gives_pure]

@[simp] theorem gives_discard {holds : Unit → Cursor → Prop} (reader : Reader β) :
    Gives (discard reader) cursor holds ↔ Gives reader cursor fun _ after => holds () after :=
  gives_map (fun _ => ()) reader

@[simp] theorem gives_ite (test : Prop) [Decidable test] (first second : Reader α) :
    Gives (if test then first else second) cursor holds ↔
      if test then Gives first cursor holds else Gives second cursor holds := by
  split <;> rfl

@[simp] theorem gives_get {holds : Cursor → Cursor → Prop} :
    Gives get cursor holds ↔ holds cursor cursor := Iff.rfl

@[simp] theorem gives_advance {holds : Unit → Cursor → Prop} (kind : TokenKind) :
    Gives advance (.over (kind :: kinds) depth) holds ↔ holds () (.over kinds depth) := Iff.rfl

@[simp] theorem gives_here {holds : Pos → Cursor → Prop} :
    Gives here (.over kinds depth) holds ↔ holds .origin (.over kinds depth) := by
  simp [here]

@[simp] theorem gives_peek {holds : Option TokenKind → Cursor → Prop} :
    Gives peek (.over kinds depth) holds ↔ holds kinds.head? (.over kinds depth) := by
  simp [peek]

@[simp] theorem gives_atPunct {holds : Bool → Cursor → Prop} (punct : String) :
    Gives (atPunct punct) (.over kinds depth) holds ↔
      holds (decide (kinds.head? = some (.punct punct))) (.over kinds depth) := by
  simp [Script.atPunct]

@[simp] theorem gives_atWord {holds : Bool → Cursor → Prop} (word : String) :
    Gives (atWord word) (.over kinds depth) holds ↔
      holds (decide (kinds.head? = some (.word word))) (.over kinds depth) := by
  simp [Script.atWord]

@[simp] theorem gives_atEnd {holds : Bool → Cursor → Prop} :
    Gives atEnd (.over kinds depth) holds ↔ holds kinds.isEmpty (.over kinds depth) := by
  simp [atEnd]

@[simp] theorem gives_eatPunct {holds : Bool → Cursor → Prop} (punct : String) :
    Gives (eatPunct punct) (.over kinds depth) holds ↔
      if kinds.head? = some (.punct punct) then holds true (.over kinds.tail depth)
      else holds false (.over kinds depth) := by
  cases kinds <;> simp [eatPunct]

@[simp] theorem gives_eatWord {holds : Bool → Cursor → Prop} (word : String) :
    Gives (eatWord word) (.over kinds depth) holds ↔
      if kinds.head? = some (.word word) then holds true (.over kinds.tail depth)
      else holds false (.over kinds depth) := by
  cases kinds <;> simp [eatWord]

@[simp] theorem gives_expectPunct {holds : Unit → Cursor → Prop} (punct : String) :
    Gives (expectPunct punct) (.over (.punct punct :: kinds) depth) holds ↔
      holds () (.over kinds depth) := by
  simp [expectPunct]

@[simp] theorem gives_node {holds : Draft → Cursor → Prop} (kind : String) (text : Option String)
    (fields : List (Field Draft)) :
    Gives (node kind .origin text fields) (.over kinds depth) holds ↔
      holds (tree kind text fields) (.over kinds depth) := by
  simp [node, Cursor.over, tree]

@[simp] theorem gives_semicolon {holds : Unit → Cursor → Prop} :
    Gives semicolon (.over (.punct ";" :: kinds) depth) holds ↔ holds () (.over kinds depth) := by
  simp [semicolon]

/-- A reader one level deeper gives what the reader does. -/
theorem Rereads.nested {reader : Reader α} {value : α} {rest : List TokenKind}
    (rereads : Rereads reader kinds value rest) : Rereads (nested reader) kinds value rest := by
  intro depth
  have deeper := rereads (depth + 1)
  have step : Script.nested reader (.over (kinds ++ rest) depth) =
      if depth ≥ maxDepth then fail (m := Reader) .tooDeep (.over (kinds ++ rest) depth)
      else match reader (.over (kinds ++ rest) (depth + 1)) with
        | .ok value after => .ok value { after with depth := after.depth - 1 }
        | .error error after => .error error { after with depth := after.depth - 1 } := nested_apply _ _
  unfold Gives at deeper ⊢
  rw [step]
  by_cases full : depth ≥ maxDepth
  · rw [if_pos full]
    rfl
  · rw [if_neg full]
    cases read : reader (.over (kinds ++ rest) (depth + 1)) with
    | ok again after =>
      rw [read] at deeper
      obtain ⟨rfl, rfl⟩ := deeper
      exact ⟨rfl, rfl⟩
    | error error after =>
      rw [read] at deeper
      exact deeper

end Primitives

section Repetition

variable {stop : Reader Bool} {item : Reader α} {mark ending after rest : List TokenKind}
  {write : α → List TokenKind} {items : List α} {depth : Nat}

/-- What is written for a member of a list is no longer than what is written for all. -/
theorem length_le_flatMap (write : α → List TokenKind) {value : α} (member : value ∈ items) :
    (write value).length ≤ (items.flatMap write).length := by
  induction items with
  | nil => cases member
  | cons first others ih =>
    rw [List.flatMap_cons, List.length_append]
    rcases List.mem_cons.mp member with rfl | member
    · omega
    · have := ih member
      omega

theorem flatMap_some (write : α → List TokenKind) (value : α) :
    (some value).toList.flatMap write = write value := by
  rw [Option.toList_some, List.flatMap_singleton]

/-- There are no more members than tokens that are written for them. -/
theorem length_le_of_nonempty (write : α → List TokenKind) (someTokens : ∀ value ∈ items, write value ≠ []) :
    items.length ≤ (items.flatMap write).length := by
  induction items with
  | nil => simp
  | cons first others ih =>
    have shorter := ih fun value member => someTokens value (List.mem_cons_of_mem first member)
    have nonempty := List.length_pos_iff.mpr (someTokens first List.mem_cons_self)
    rw [List.flatMap_cons, List.length_append, List.length_cons]
    omega

/-- How items are repeated: a mark in front of each tells that it comes, and what is behind the last one
tells that none does. The condition says what may follow an item. -/
structure Repeats (stop : Reader Bool) (item : Reader α) (mark : List TokenKind)
    (write : α → List TokenKind) (follow : List TokenKind → Prop) (items : List α) (depth : Nat) :
    Prop where
  goes : ∀ value ∈ items, ∀ rest, Gives stop (.over (mark ++ (write value ++ rest)) depth)
    fun stopped middle => stopped = false ∧ middle = .over (write value ++ rest) depth
  reads : ∀ value ∈ items, ∀ rest, follow rest → Rereads item (write value) value rest
  follows : ∀ value ∈ items, ∀ rest, follow (mark ++ (write value ++ rest))

private theorem manyUpTo_gives {follow : List TokenKind → Prop}
    (repeats : Repeats stop item mark write follow items depth) (last : follow ending)
    (stops : Gives stop (.over ending depth) fun stopped middle =>
      stopped = true ∧ middle = .over after depth)
    {limit : Nat} (enough : items.length < limit) :
    Gives (manyUpTo stop item limit)
      (.over (items.flatMap (fun value => mark ++ write value) ++ ending) depth)
      fun again cursor => again = items ∧ cursor = .over after depth := by
  induction items generalizing limit with
  | nil =>
    obtain ⟨limit, rfl⟩ := Nat.exists_eq_succ_of_ne_zero (Nat.ne_zero_of_lt enough)
    simp only [manyUpTo, gives_bind]
    apply stops.mono
    rintro _ _ ⟨rfl, rfl⟩
    simp
  | cons first others ih =>
    obtain ⟨limit, rfl⟩ := Nat.exists_eq_succ_of_ne_zero (Nat.ne_zero_of_lt enough)
    have later (value : α) (member : value ∈ others) : value ∈ first :: others :=
      List.mem_cons_of_mem first member
    -- Behind the first item stands the mark of the next one or what ends the repetition.
    have followed : follow (others.flatMap (fun value => mark ++ write value) ++ ending) := by
      cases others with
      | nil => exact last
      | cons second rest =>
        simp only [List.flatMap_cons, List.append_assoc]
        exact repeats.follows second (later second List.mem_cons_self) _
    simp only [manyUpTo, gives_bind, List.flatMap_cons, List.append_assoc]
    apply (repeats.goes first List.mem_cons_self _).mono
    rintro _ _ ⟨rfl, rfl⟩
    simp only [Bool.false_eq_true, ↓reduceIte, gives_bind]
    apply (repeats.reads first List.mem_cons_self _ followed).gives
    have rest := ih ⟨fun value member => repeats.goes value (later value member),
      fun value member => repeats.reads value (later value member),
      fun value member => repeats.follows value (later value member)⟩
      (Nat.lt_of_succ_lt_succ enough)
    apply rest.mono
    rintro _ _ ⟨rfl, rfl⟩
    simp

/-- Items that repeat are read back up to the end. -/
theorem Repeats.many {follow : List TokenKind → Prop}
    (repeats : Repeats stop item mark write follow items depth) (ending after : List TokenKind)
    (last : follow ending) (someTokens : ∀ value ∈ items, mark ++ write value ≠ [])
    (stops : Gives stop (.over ending depth) fun stopped middle =>
      stopped = true ∧ middle = .over after depth) :
    Gives (many stop item) (.over (items.flatMap (fun value => mark ++ write value) ++ ending) depth)
      fun again cursor => again = items ∧ cursor = .over after depth := by
  simp only [Script.many, gives_bind, gives_get]
  apply manyUpTo_gives repeats last stops
  have shorter := length_le_of_nonempty _ someTokens
  simp only [Cursor.over, List.length_map, List.length_append]
  omega

/-- The first of several runs is written without a comma in front. -/
theorem commas_cons (run : List TokenKind) (others : List (List TokenKind)) :
    commas (run :: others) = run ++ others.flatMap fun other => .punct "," :: other := by
  induction others generalizing run with
  | nil => simp [commas]
  | cons second others ih => simp [commas, ih]

/-- What is written for a member of a list with commas is no longer than the list. -/
theorem length_le_commas (write : α → List TokenKind) {value : α} (member : value ∈ items) :
    (write value).length ≤ (commas (items.map write)).length := by
  obtain ⟨first, others, rfl⟩ := List.exists_cons_of_ne_nil (List.ne_nil_of_mem member)
  rw [List.map_cons, commas_cons, List.flatMap_map, List.length_append]
  rcases List.mem_cons.mp member with rfl | member
  · omega
  · have shorter := length_le_flatMap (fun other => TokenKind.punct "," :: write other) member
    rw [List.length_cons] at shorter
    omega

/-- Items with commas between them are read back up to another punctuator. -/
theorem commaSeparated_gives {first : α} {others : List α} {close : String} (closes : close ≠ ",")
    (reads : ∀ value ∈ first :: others, ∀ next ∈ [",", close], ∀ rest,
      Rereads item (write value) value (.punct next :: rest)) :
    Rereads (commaSeparated item) (commas ((first :: others).map write)) (first :: others)
      (.punct close :: rest) := by
  intro depth
  have repeats : Repeats (do return !(← eatPunct ",")) item [.punct ","] write
      (fun rest => ∃ next ∈ [",", close], ∃ more, rest = .punct next :: more) others depth := by
    constructor
    · intro value _ rest
      simp
    · rintro value member _ ⟨next, known, rest, rfl⟩
      exact reads value (List.mem_cons_of_mem first member) next known rest
    · intro value _ rest
      exact ⟨",", by simp, _, rfl⟩
  have followed : ∃ next ∈ [",", close], ∃ more,
      others.flatMap (fun value => [TokenKind.punct ","] ++ write value) ++ .punct close :: rest =
        .punct next :: more := by
    cases others with
    | nil => exact ⟨close, by simp, rest, rfl⟩
    | cons second others => exact ⟨",", by simp, _, rfl⟩
  obtain ⟨next, known, more, same⟩ := followed
  have again := repeats.many (.punct close :: rest) (.punct close :: rest)
    ⟨close, by simp, rest, rfl⟩ (by simp) (by simp [closes])
  simp only [commaSeparated, gives_bind, gives_pure, List.map_cons, commas_cons, List.flatMap_map,
    List.append_assoc]
  simp only [List.cons_append, List.nil_append] at again same
  rw [same] at again ⊢
  apply (reads first List.mem_cons_self next known more).gives
  apply again.mono
  rintro _ _ ⟨rfl, rfl⟩
  exact ⟨rfl, rfl⟩

private theorem listUpTo_gives {close : String} (closes : close ≠ ",")
    (opens : ∀ value ∈ items, ∀ rest, (write value ++ rest).head? ≠ some (.punct close))
    (reads : ∀ value ∈ items, ∀ next ∈ [",", close], ∀ rest,
      Rereads item (write value) value (.punct next :: rest))
    {limit : Nat} (enough : items.length < limit) :
    Gives (listUpTo close item limit)
      (.over (commas (items.map write) ++ .punct close :: rest) depth)
      fun again cursor => again = items ∧ cursor = .over rest depth := by
  induction items generalizing limit with
  | nil =>
    obtain ⟨limit, rfl⟩ := Nat.exists_eq_succ_of_ne_zero (Nat.ne_zero_of_lt enough)
    simp [listUpTo, commas]
  | cons first others ih =>
    obtain ⟨limit, rfl⟩ := Nat.exists_eq_succ_of_ne_zero (Nat.ne_zero_of_lt enough)
    have later (value : α) (member : value ∈ others) : value ∈ first :: others :=
      List.mem_cons_of_mem first member
    cases others with
    | nil =>
      simp only [listUpTo, commas, List.map_cons, List.map_nil, gives_bind, gives_eatPunct,
        opens first List.mem_cons_self, ↓reduceIte, Bool.false_eq_true, gives_ite]
      apply (reads first List.mem_cons_self close (by simp) rest).gives
      simp [closes]
    | cons second others =>
      have rest := ih (fun value member => opens value (later value member))
        (fun value member => reads value (later value member)) (Nat.lt_of_succ_lt_succ enough)
      simp only [listUpTo, commas, List.map_cons, gives_bind, gives_eatPunct, List.append_assoc,
        List.cons_append, opens first List.mem_cons_self, ↓reduceIte, Bool.false_eq_true,
        gives_ite] at rest ⊢
      apply (reads first List.mem_cons_self "," (by simp) _).gives
      apply rest.mono
      rintro _ _ ⟨rfl, rfl⟩
      exact ⟨rfl, rfl⟩

/-- Items in brackets are read back with the bracket that closes them. -/
theorem gives_list {close : String} (closes : close ≠ ",")
    (opens : ∀ value ∈ items, ∀ rest, (write value ++ rest).head? ≠ some (.punct close))
    (reads : ∀ value ∈ items, ∀ next ∈ [",", close], ∀ rest,
      Rereads item (write value) value (.punct next :: rest))
    {holds : List α → Cursor → Prop} (holding : holds items (.over rest depth)) :
    Gives (list close item) (.over (commas (items.map write) ++ .punct close :: rest) depth) holds := by
  have fewer : items.length ≤ (commas (items.map write)).length + 1 := by
    cases items with
    | nil => simp
    | cons first others =>
      have shorter : others.length ≤ _ := length_le_of_nonempty
        (fun other => TokenKind.punct "," :: write other) (by simp)
      rw [List.map_cons, commas_cons, List.flatMap_map, List.length_append, List.length_cons]
      omega
  have enough : items.length < (Cursor.over (commas (items.map write) ++ .punct close :: rest)
      depth).rest.length + 1 := by
    simp only [Cursor.over, List.length_map, List.length_append, List.length_cons]
    omega
  simp only [list, gives_bind, gives_get]
  apply (listUpTo_gives closes opens reads enough).mono
  rintro _ _ ⟨rfl, rfl⟩
  exact holding

end Repetition

section Growth

variable {extend : α → Reader (Option α)} {value larger : α} {kinds rest : List TokenKind} {depth : Nat}
  {holds : α → Cursor → Prop}

/-- A value that cannot be extended stays. -/
theorem grow_none (ends : Rereads (extend value) [] none rest) (holding : holds value (.over rest depth)) :
    Gives (grow extend value) (.over rest depth) holds := by
  simp only [grow, gives_bind, gives_get, growUpTo]
  apply ends.gives
  exact holding

/-- A value that is extended once. -/
theorem grow_once (extends_ : Rereads (extend value) kinds (some larger) rest)
    (ends : Rereads (extend larger) [] none rest) (someTokens : kinds ≠ [])
    (holding : holds larger (.over rest depth)) :
    Gives (grow extend value) (.over (kinds ++ rest) depth) holds := by
  obtain ⟨first, others, rfl⟩ := List.exists_cons_of_ne_nil someTokens
  simp only [grow, gives_bind, gives_get, growUpTo]
  apply extends_.gives
  simp only [Cursor.over, List.cons_append, List.map_cons, List.length_cons, growUpTo, gives_bind]
  apply ends.gives
  exact holding

end Growth

end SyntaxNav.Script

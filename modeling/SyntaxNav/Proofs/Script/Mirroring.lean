import SyntaxNav.Proofs.Script.Drafts
import SyntaxNav.Proofs.Tree.Building
import SyntaxNav.Script.Language

/-! # Makers mirror readers

The grammar is read in two ways. A reader gives drafts; a maker calls a builder for every node while it
reads, and passes the numbers of the nodes on. `Mirrors` says that the maker does what the reader does: it
succeeds or fails where the reader does, leaves the same cursor, and has made the nodes that planting the
drafts makes, one after another and with the same numbers. Since planting a draft never fails, neither does
a call of the builder.

Every primitive is shared by both, nodes are made where their drafts are put together, and sequence, nesting
and repetition keep the relation.
-/

namespace SyntaxNav.Script

variable {α β γ δ : Type}

section Planted

/-- Planting a draft gives a number, and takes one builder to another. -/
def Makes (before : Builder) (draft : Draft) (number : NodeId) (after : Builder) : Prop :=
  draft.plant makingOrder before = .ok (number, after)

inductive MakesOption (before : Builder) : Option Draft → Option NodeId → Builder → Prop
  | none : MakesOption before none none before
  | some {draft : Draft} {number : NodeId} {after : Builder} : Makes before draft number after →
      MakesOption before (some draft) (some number) after

/-- What is related to one value each takes the builder from one to the next. -/
inductive Each (relation : Builder → α → β → Builder → Prop) :
    Builder → List α → List β → Builder → Prop
  | nil {builder : Builder} : Each relation builder [] [] builder
  | cons {before middle after : Builder} {value : α} {made : β} {values : List α} {others : List β} :
      relation before value made middle → Each relation middle values others after →
      Each relation before (value :: values) (made :: others) after

/-- The drafts in the fields of a node are planted in order. -/
inductive MakesFields : Builder → List (Field Draft) → List (Field NodeId) → Builder → Prop
  | nil {builder : Builder} : MakesFields builder [] [] builder
  | single {before middle after : Builder} {name : String} {draft : Option Draft}
      {number : Option NodeId} {drafts : List (Field Draft)} {numbers : List (Field NodeId)} :
      MakesOption before draft number middle → MakesFields middle drafts numbers after →
      MakesFields before (.single name draft :: drafts) (.single name number :: numbers) after
  | list {before middle after : Builder} {name : String} {children : List Draft}
      {numbered : List NodeId} {drafts : List (Field Draft)} {numbers : List (Field NodeId)} :
      Each Makes before children numbered middle → MakesFields middle drafts numbers after →
      MakesFields before (.list name children :: drafts) (.list name numbered :: numbers) after

variable {before middle after : Builder}

private theorem plantAll_cons {slot : Slot} {draft : Draft} {number : NodeId}
    {drafts : List (Slot × Draft)} {numbers : List (Slot × NodeId)} (made : Makes before draft number middle)
    (others : Draft.plantAll makingOrder false drafts middle = .ok (numbers, after)) :
    Draft.plantAll makingOrder false ((slot, draft) :: drafts) before =
      .ok ((slot, number) :: numbers, after) := by
  rw [Makes] at made
  simp [Draft.plantAll, made, others, bind, Except.bind, pure, Except.pure]

private theorem Each.plantAll {children : List Draft} {numbered : List NodeId} {name : String} {first : Nat}
    {drafts : List (Slot × Draft)} {numbers : List (Slot × NodeId)}
    (each : Each Makes before children numbered middle)
    (others : Draft.plantAll makingOrder false drafts middle = .ok (numbers, after)) :
    Draft.plantAll makingOrder false
        ((children.zipIdx first).map (fun (child, index) => (Slot.element name index, child)) ++ drafts)
        before =
      .ok ((numbered.zipIdx first).map (fun (child, index) => (Slot.element name index, child)) ++ numbers,
        after) := by
  induction each generalizing first with
  | nil => exact others
  | cons made _ ih =>
    simp only [List.zipIdx_cons, List.map_cons, List.cons_append]
    exact plantAll_cons made (ih others)

private theorem MakesFields.plantAll {drafts : List (Field Draft)} {numbers : List (Field NodeId)}
    (fields : MakesFields before drafts numbers after) :
    Draft.plantAll makingOrder false (Field.spread drafts) before =
      .ok (Field.spread numbers, after) := by
  induction fields with
  | nil => rfl
  | single first _ ih =>
    cases first with
    | none => exact ih
    | some made => exact plantAll_cons made ih
  | list each _ ih => exact each.plantAll ih

/-- A builder takes the children of a new node over without a defect, since planting its draft would. -/
theorem branch_of_plantAll {label : Label} {drafts : List (Field Draft)} {numbers : List (Field NodeId)}
    (planted : Draft.plantAll makingOrder (makingOrder label.kind) (Field.spread drafts) before =
      .ok (Field.spread numbers, middle)) :
    ∃ number after, middle.branch label numbers = .ok (number, after) ∧
      Makes before (.branch label drafts) number after := by
  obtain ⟨number, after, made, -⟩ := Draft.plants makingOrder (.branch label drafts) before
  refine ⟨number, after, ?_, made⟩
  simpa [Builder.branch, Draft.branch, Draft.plant, planted, bind, Except.bind] using made

/-- Leaving out what is absent keeps what is planted one after another. -/
theorem Each.filterMap {drafts : List (Option Draft)} {numbers : List (Option NodeId)}
    (each : Each MakesOption before drafts numbers after) :
    Each Makes before (drafts.filterMap id) (numbers.filterMap id) after := by
  induction each with
  | nil => exact .nil
  | cons first _ ih =>
    cases first with
    | none => exact ih
    | some made => exact .cons made ih

/-- A node is absent just if its draft is. -/
theorem MakesOption.isNone_eq {draft : Option Draft} {number : Option NodeId}
    (made : MakesOption before draft number after) : number.isNone = draft.isNone := by
  cases made <;> rfl

end Planted

/-- The maker does what the reader does: it fails with the same error, or it succeeds with a related value
behind the nodes that it made; either way it leaves the same cursor. -/
def Mirrors (reader : Reader α) (maker : Maker β) (builder : Builder)
    (related : α → β → Builder → Prop) : Prop :=
  ∀ cursor, match reader cursor with
    | .ok value after =>
      ∃ made later, maker ⟨cursor, builder⟩ = .ok made ⟨after, later⟩ ∧ related value made later
    | .error error after => ∃ later, maker ⟨cursor, builder⟩ = .error (.error error) ⟨after, later⟩

/-- A reader that makes no nodes, read in both ways. -/
def Shares (reader : Reader α) (maker : Maker α) : Prop :=
  ∀ cursor builder, maker ⟨cursor, builder⟩ = match reader cursor with
    | .ok value after => .ok value ⟨after, builder⟩
    | .error error after => .error (.error error) ⟨after, builder⟩

namespace Shares

variable {reader : Reader α} {maker : Maker α}

private theorem pure (value : α) : Shares (Pure.pure value) (Pure.pure value) :=
  fun _ _ => rfl

private theorem bind {next : α → Reader β} {makeNext : α → Maker β} (first : Shares reader maker)
    (rest : ∀ value, Shares (next value) (makeNext value)) :
    Shares (reader >>= next) (maker >>= makeNext) := by
  intro cursor builder
  have start := first cursor builder
  cases read : reader cursor with
  | ok value after =>
    rw [read] at start
    rw [bind_ok read, bind_ok start]
    exact rest value after builder
  | error error after =>
    rw [read] at start
    rw [bind_error read, bind_error start]

private theorem ite {second : Reader α} {makeSecond : Maker α} (test : Prop) [Decidable test]
    (yes : Shares reader maker) (no : Shares second makeSecond) :
    Shares (if test then reader else second) (if test then maker else makeSecond) := by
  split
  · exact yes
  · exact no

/-- A result that is not used need not be shared. -/
theorem discard (inner : Shares reader maker) :
    Shares (Functor.discard reader) (Functor.discard maker) := by
  have dropped {ε σ : Type} (reading : EStateM ε σ α) :
      Functor.discard reading = (reading >>= fun _ => Pure.pure ⟨⟩) := by
    rw [Functor.discard, LawfulFunctor.map_const]
    exact (bind_pure_comp _ _).symm
  rw [dropped, dropped]
  exact inner.bind fun _ => .pure PUnit.unit

theorem get : Shares (MonadState.get : Reader Cursor) (MonadState.get : Maker Cursor) :=
  fun _ _ => rfl

theorem here : Shares Script.here Script.here :=
  fun _ _ => rfl

theorem peek : Shares Script.peek Script.peek :=
  fun _ _ => rfl

theorem atPunct (punct : String) : Shares (Script.atPunct punct) (Script.atPunct punct) :=
  fun _ _ => rfl

theorem atWord (word : String) : Shares (Script.atWord word) (Script.atWord word) :=
  fun _ _ => rfl

theorem atEnd : Shares Script.atEnd Script.atEnd :=
  fun _ _ => rfl

theorem advance : Shares Script.advance Script.advance :=
  fun _ _ => rfl

private theorem failAt (pos : Pos) (fault : Fault) :
    Shares (Script.failAt pos fault : Reader α) (Script.failAt pos fault) :=
  fun _ _ => rfl

theorem failExpected (wanted : String) :
    Shares (Script.failExpected wanted : Reader α) (Script.failExpected wanted) :=
  fun _ _ => rfl

/-- Passing a punctuator makes nothing. -/
theorem eatPunct (punct : String) : Shares (Script.eatPunct punct) (Script.eatPunct punct) := by
  refine (atPunct punct).bind fun next => .ite _ ?_ (.pure false)
  exact advance.bind fun _ => .pure true

theorem eatWord (word : String) : Shares (Script.eatWord word) (Script.eatWord word) := by
  refine (atWord word).bind fun next => .ite _ ?_ (.pure false)
  exact advance.bind fun _ => .pure true

theorem expectPunct (punct : String) : Shares (Script.expectPunct punct) (Script.expectPunct punct) :=
  (eatPunct punct).bind fun _ => .ite _ (failExpected _) (.pure ())

/-- The end of a statement makes nothing. -/
theorem semicolon : Shares Script.semicolon Script.semicolon := by
  refine (eatPunct ";").bind fun ended => .ite _ (.pure ()) ?_
  refine (atPunct _).bind fun closes => .ite _ (.pure ()) (get.bind fun cursor => ?_)
  split
  · exact .pure ()
  · exact .ite _ (failExpected _) (.pure ())

/-- Looking for a label makes nothing. -/
theorem noLabel : Shares Script.noLabel Script.noLabel := by
  refine get.bind fun cursor => ?_
  split
  · exact failAt _ _
  · exact .pure ()

end Shares

/-- The depth of a maker one level deeper is restored behind it, also after a failure. -/
private theorem nested_maker (maker : Maker β) (cursor : Cursor) (builder : Builder) :
    nested maker ⟨cursor, builder⟩ =
      if cursor.depth ≥ maxDepth then fail (m := Maker) .tooDeep ⟨cursor, builder⟩
      else
        match maker ⟨{ cursor with depth := cursor.depth + 1 }, builder⟩ with
        | .ok value ⟨after, later⟩ => .ok value ⟨{ after with depth := after.depth - 1 }, later⟩
        | .error stop ⟨after, later⟩ => .error stop ⟨{ after with depth := after.depth - 1 }, later⟩ := by
  change (ite _ _ _ : Maker β) ⟨cursor, builder⟩ = _
  split
  · rfl
  · change (tryFinally maker _ : Maker β) _ = _
    simp only [tryFinally, tryFinally', Functor.map, EStateM.map]
    cases maker ⟨{ cursor with depth := cursor.depth + 1 }, builder⟩ <;> rfl

namespace Mirrors

variable {reader : Reader α} {maker : Maker β} {builder : Builder} {related : α → β → Builder → Prop}
  {further : γ → δ → Builder → Prop}

/-- A result that is related to another one mirrors it. -/
theorem pure {value : α} {made : β} (holds : related value made builder) :
    Mirrors (Pure.pure value) (Pure.pure made) builder related :=
  fun _ => ⟨made, builder, rfl, holds⟩

/-- Readers mirror makers one after another; the builder goes on from what was made. -/
theorem bind {next : α → Reader γ} {makeNext : β → Maker δ} (first : Mirrors reader maker builder related)
    (rest : ∀ value made later, related value made later →
      Mirrors (next value) (makeNext made) later further) :
    Mirrors (reader >>= next) (maker >>= makeNext) builder further := by
  intro cursor
  have start := first cursor
  cases read : reader cursor with
  | ok value after =>
    rw [read] at start
    obtain ⟨made, later, ran, holds⟩ := start
    rw [bind_ok read, bind_ok ran]
    exact rest value made later holds after
  | error error after =>
    rw [read] at start
    obtain ⟨later, ran⟩ := start
    rw [bind_error read]
    exact ⟨later, bind_error ran _⟩

/-- A maker succeeds only where the reader does, and its value is related to that of the reader. -/
theorem of_ok (mirrors : Mirrors reader maker builder related) {cursor : Cursor} {made : β}
    {bench : Workbench} (ran : maker ⟨cursor, builder⟩ = .ok made bench) :
    ∃ value, reader cursor = .ok value bench.cursor ∧ related value made bench.builder := by
  have mirrored := mirrors cursor
  cases read : reader cursor with
  | ok value after =>
    rw [read, ran] at mirrored
    obtain ⟨other, later, same, holds⟩ := mirrored
    cases same
    exact ⟨value, rfl, holds⟩
  | error error after =>
    rw [read, ran] at mirrored
    obtain ⟨later, same⟩ := mirrored
    cases same

/-- What both share comes first; no node is made meanwhile. -/
theorem share {shared : Reader γ} {sharedMaker : Maker γ} {next : γ → Reader α} {makeNext : γ → Maker β}
    (first : Shares shared sharedMaker)
    (rest : ∀ value, Mirrors (next value) (makeNext value) builder related) :
    Mirrors (shared >>= next) (sharedMaker >>= makeNext) builder related := by
  intro cursor
  have start := first cursor builder
  cases read : shared cursor with
  | ok value after =>
    rw [read] at start
    rw [bind_ok read, bind_ok start]
    exact rest value after
  | error error after =>
    rw [read] at start
    rw [bind_error read]
    exact ⟨builder, bind_error start _⟩

/-- A reader and a maker take the same branch of a test. -/
theorem ite {second : Reader α} {makeSecond : Maker β} (test : Prop) [Decidable test]
    (yes : Mirrors reader maker builder related) (no : Mirrors second makeSecond builder related) :
    Mirrors (if test then reader else second) (if test then maker else makeSecond) builder related := by
  split
  · exact yes
  · exact no

/-- Both fail with the same error. -/
theorem fail (fault : Fault) : Mirrors (Script.fail fault) (Script.fail fault) builder related :=
  fun _ => ⟨builder, rfl⟩

theorem failAt (pos : Pos) (fault : Fault) :
    Mirrors (Script.failAt pos fault) (Script.failAt pos fault) builder related :=
  fun _ => ⟨builder, rfl⟩

theorem failExpected (wanted : String) :
    Mirrors (Script.failExpected wanted) (Script.failExpected wanted) builder related :=
  fun _ => ⟨builder, rfl⟩

/-- A level deeper, a reader mirrors a maker if it does. -/
theorem nested (inner : Mirrors reader maker builder related) :
    Mirrors (Script.nested reader) (Script.nested maker) builder related := by
  intro cursor
  rw [nested_apply, nested_maker]
  by_cases deep : cursor.depth ≥ maxDepth
  · simp only [if_pos deep]
    exact ⟨builder, rfl⟩
  · have ran := inner { cursor with depth := cursor.depth + 1 }
    simp only [if_neg deep]
    cases read : reader { cursor with depth := cursor.depth + 1 } with
    | ok value after =>
      rw [read] at ran
      obtain ⟨made, later, same, holds⟩ := ran
      exact ⟨made, later, by rw [same], holds⟩
    | error error after =>
      rw [read] at ran
      obtain ⟨later, same⟩ := ran
      exact ⟨later, by rw [same]⟩

end Mirrors

section Nodes

variable {before builder : Builder} {drafts : List (Field Draft)} {numbers : List (Field NodeId)}

/-- A maker hands a node to the builder, and the cursor stays. -/
private theorem run_make {label : Label} {after : Builder} {number : NodeId}
    (branched : builder.branch label numbers = .ok (number, after)) (cursor : Cursor) :
    (Making.make label numbers : Maker NodeId) ⟨cursor, builder⟩ = .ok number ⟨cursor, after⟩ := by
  simp only [Making.make, branched]

/-- A node is made over the nodes of its fields. -/
private theorem make_of_plantAll {label : Label}
    (planted : Draft.plantAll makingOrder (makingOrder label.kind) (Field.spread drafts) before =
      .ok (Field.spread numbers, builder)) :
    Mirrors (Making.make label drafts) (Making.make label numbers : Maker NodeId) builder
      (Makes before) := by
  obtain ⟨number, after, branched, made⟩ := branch_of_plantAll planted
  intro cursor
  exact ⟨number, after, run_make branched cursor, made⟩

/-- A node whose fields were planted in order is planted behind them. -/
theorem make_mirrors {label : Label} (forward : label.kind ≠ "DoWhileStatement")
    (fields : MakesFields before drafts numbers builder) :
    Mirrors (Making.make label drafts) (Making.make label numbers : Maker NodeId) builder
      (Makes before) := by
  apply make_of_plantAll
  rw [makingOrder, decide_eq_false forward]
  exact fields.plantAll

/-- A node over what was read since a start is planted behind its fields. -/
theorem node_mirrors {kind : String} (start : Pos) (text : Option String)
    (forward : kind ≠ "DoWhileStatement") (fields : MakesFields before drafts numbers builder) :
    Mirrors (node kind start text drafts) (node kind start text numbers : Maker NodeId) builder
      (Makes before) :=
  .share .get fun _ => make_mirrors forward fields

/-- The leaf of a token is planted. -/
theorem makeLeaf_mirrors {kind : String} (token : Token) (forward : kind ≠ "DoWhileStatement") :
    Mirrors (makeLeaf kind token) (makeLeaf kind token : Maker NodeId) builder (Makes builder) :=
  make_mirrors forward .nil

/-- The body of a loop is made before its test, which is its first field. -/
theorem doWhile_mirrors {middle : Builder} {test body : Draft} {testNumber bodyNumber : NodeId}
    (start : Pos) (bodyMade : Makes before body bodyNumber middle)
    (testMade : Makes middle test testNumber builder) :
    Mirrors (node "DoWhileStatement" start none [.single "test" test, .single "body" body])
      (node "DoWhileStatement" start none [.single "test" testNumber, .single "body" bodyNumber] :
        Maker NodeId) builder (Makes before) := by
  refine .share .get fun _ => make_of_plantAll ?_
  rw [Makes] at bodyMade testMade
  simp [Field.spread, Field.slots, makingOrder, Draft.plantAll, bodyMade, testMade, bind, Except.bind,
    Pure.pure, Except.pure]

end Nodes

section Repetition

variable {relation : Builder → α → β → Builder → Prop} {item : Reader α} {makeItem : Maker β}

private theorem manyUpTo_mirrors {stop : Reader Bool} {makeStop : Maker Bool} (stops : Shares stop makeStop)
    (items : ∀ builder, Mirrors item makeItem builder (relation builder)) (limit : Nat)
    (builder : Builder) :
    Mirrors (manyUpTo stop item limit) (manyUpTo makeStop makeItem limit) builder
      (Each relation builder) := by
  induction limit generalizing builder with
  | zero => exact .fail _
  | succ limit ih =>
    refine .share stops fun stopped => .ite _ (.pure .nil) ?_
    refine (items builder).bind fun first made middle makes => ?_
    refine (ih middle).bind fun rest others later each => .pure ?_
    exact .cons makes each

/-- Items are planted one after another. -/
theorem many_mirrors {stop : Reader Bool} {makeStop : Maker Bool} (stops : Shares stop makeStop)
    (items : ∀ builder, Mirrors item makeItem builder (relation builder)) (builder : Builder) :
    Mirrors (many stop item) (many makeStop makeItem) builder (Each relation builder) :=
  .share .get fun _ => manyUpTo_mirrors stops items _ builder

private theorem listUpTo_mirrors (close : String)
    (items : ∀ builder, Mirrors item makeItem builder (relation builder)) (limit : Nat)
    (builder : Builder) :
    Mirrors (listUpTo close item limit) (listUpTo close makeItem limit) builder
      (Each relation builder) := by
  induction limit generalizing builder with
  | zero => exact .fail _
  | succ limit ih =>
    refine .share (.eatPunct close) fun closed => .ite _ (.pure .nil) ?_
    refine (items builder).bind fun first made middle makes => ?_
    refine .share (.eatPunct ",") fun more => .ite _ ?_ ?_
    · refine (ih middle).bind fun rest others later each => .pure ?_
      exact .cons makes each
    · exact .share (.expectPunct close) fun _ => .pure (.cons makes .nil)

/-- The items of a list are planted one after another. -/
theorem list_mirrors (close : String)
    (items : ∀ builder, Mirrors item makeItem builder (relation builder)) (builder : Builder) :
    Mirrors (list close item) (list close makeItem) builder (Each relation builder) :=
  .share .get fun _ => listUpTo_mirrors close items _ builder

/-- Items with commas between them are planted one after another. -/
theorem commaSeparated_mirrors (items : ∀ builder, Mirrors item makeItem builder (relation builder))
    (builder : Builder) :
    Mirrors (commaSeparated item) (commaSeparated makeItem) builder (Each relation builder) := by
  have ends : Shares (do return !(← eatPunct ",")) (do return !(← eatPunct ",")) :=
    (Shares.eatPunct ",").bind fun _ => .pure _
  refine (items builder).bind fun first made middle makes => ?_
  refine (many_mirrors ends items middle).bind fun rest others later each => .pure ?_
  exact .cons makes each

/-- A value is left as it is, or another one is made of it. -/
inductive Extends (before builder : Builder) : Option Draft → Option NodeId → Builder → Prop
  | stop : Extends before builder none none builder
  | go {draft : Draft} {number : NodeId} {after : Builder} : Makes before draft number after →
      Extends before builder (some draft) (some number) after

private theorem growUpTo_mirrors {before : Builder} {extend : Draft → Reader (Option Draft)}
    {makeMore : NodeId → Maker (Option NodeId)}
    (extends_ : ∀ draft number builder, Makes before draft number builder →
      Mirrors (extend draft) (makeMore number) builder (Extends before builder))
    (limit : Nat) {draft : Draft} {number : NodeId} {builder : Builder}
    (makes : Makes before draft number builder) :
    Mirrors (growUpTo extend limit draft) (growUpTo makeMore limit number) builder (Makes before) := by
  induction limit generalizing draft number builder with
  | zero => exact .fail _
  | succ limit ih =>
    refine (extends_ draft number builder makes).bind fun more made later extended => ?_
    cases extended with
    | stop => exact .pure makes
    | go further => exact ih further

/-- What grows is planted around what was planted before. -/
theorem grow_mirrors {before : Builder} {extend : Draft → Reader (Option Draft)}
    {makeMore : NodeId → Maker (Option NodeId)}
    (extends_ : ∀ draft number builder, Makes before draft number builder →
      Mirrors (extend draft) (makeMore number) builder (Extends before builder))
    {draft : Draft} {number : NodeId} {builder : Builder} (makes : Makes before draft number builder) :
    Mirrors (grow extend draft) (grow makeMore number) builder (Makes before) :=
  .share .get fun _ => growUpTo_mirrors extends_ _ makes

end Repetition

end SyntaxNav.Script

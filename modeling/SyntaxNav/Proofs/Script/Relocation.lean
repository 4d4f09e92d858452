import SyntaxNav.Proofs.Tree.Fields
import SyntaxNav.Proofs.Tree.Occurrence
import SyntaxNav.Proofs.Script.Drafts

/-! # Readers do not look at positions

Positions go through a reader without being looked at: if all positions in its cursor are moved, the
reader does the same, and the positions in what it gives are moved alike. `Follows` says this of two
readers, the second of which may have been given moved positions. It holds of every primitive and is
kept by sequence, choice and repetition.
-/

namespace SyntaxNav

variable (move : Pos → Pos)

def Span.relocate (span : Span) : Span := ⟨move span.start, move span.stop⟩

def Label.relocate (label : Label) : Label :=
  { label with span := label.span.map (Span.relocate move) }

def Draft.relocate (draft : Draft) : Draft :=
  SlotTree.relabel (Label.relocate move) draft

/-- Moving a node moves its label and its fields. -/
theorem Draft.relocate_branch (label : Label) (fields : List (Field Draft)) :
    (branch label fields).relocate move =
      branch (label.relocate move) (fields.map (Field.map (relocate move))) := by
  rw [relocate, branch, SlotTree.relabel_node, branch, Field.spread_map]
  rfl

namespace Script

def Token.relocate (token : Token) : Token :=
  { token with span := token.span.relocate move }

def Error.relocate (error : Error) : Error :=
  { error with pos := move error.pos }

namespace Cursor

def relocate (cursor : Cursor) : Cursor :=
  ⟨cursor.rest.map (Token.relocate move), move cursor.prevEnd, move cursor.sourceEnd, cursor.depth⟩

variable (cursor : Cursor)

@[simp] theorem rest_relocate :
    (cursor.relocate move).rest = cursor.rest.map (Token.relocate move) := rfl

@[simp] theorem next?_relocate : (cursor.relocate move).next? = cursor.next? := by
  simp [next?, Function.comp_def, Token.relocate]

@[simp] theorem second?_relocate : (cursor.relocate move).second? = cursor.second? := by
  simp [second?, Function.comp_def, Token.relocate]

@[simp] theorem atPunct_relocate (punct : String) :
    (cursor.relocate move).atPunct punct = cursor.atPunct punct := by
  simp [atPunct]

@[simp] theorem atWord_relocate (word : String) :
    (cursor.relocate move).atWord word = cursor.atWord word := by
  simp [atWord]

@[simp] theorem start_relocate : (cursor.relocate move).start = move cursor.start := by
  obtain ⟨rest, prevEnd, sourceEnd, depth⟩ := cursor
  cases rest <;> rfl

@[simp] theorem advance_relocate :
    (cursor.relocate move).advance = cursor.advance.relocate move := by
  obtain ⟨rest, prevEnd, sourceEnd, depth⟩ := cursor
  cases rest <;> rfl

end Cursor

variable {α β γ δ : Type}

/-- What a reader gives, with its value changed and all positions around it moved. -/
def relocateResult (change : α → β) : EStateM.Result Error Cursor α → EStateM.Result Error Cursor β
  | .ok value after => .ok (change value) (after.relocate move)
  | .error error after => .error (error.relocate move) (after.relocate move)

/-- At a moved cursor, a reader does what another one does at the cursor. -/
def Follows (change : α → β) (reader : Reader α) (moved : Reader β) : Prop :=
  ∀ cursor, moved (cursor.relocate move) = relocateResult move change (reader cursor)

/-- A reader does the same at a moved cursor. -/
abbrev Stays (change : α → α) (reader : Reader α) : Prop :=
  Follows move change reader reader

variable {move}

namespace Follows

theorem pure {change : α → β} (value : α) :
    Follows move change (Pure.pure value) (Pure.pure (change value)) := fun _ => rfl

/-- A value that is the other one moved is given alike. -/
theorem give {change : α → β} {value : α} {moved : β} (same : moved = change value) :
    Follows move change (Pure.pure value) (Pure.pure moved) :=
  same ▸ pure value

/-- Readers that follow a move do so one after the other. -/
theorem bind {change : α → β} {further : γ → δ} {first : Reader α} {next : α → Reader γ}
    {movedFirst : Reader β} {movedNext : β → Reader δ} (start : Follows move change first movedFirst)
    (rest : ∀ value, Follows move further (next value) (movedNext (change value))) :
    Follows move further (first >>= next) (movedFirst >>= movedNext) := by
  intro cursor
  change EStateM.bind movedFirst movedNext _ =
    relocateResult move further (EStateM.bind first next cursor)
  simp only [EStateM.bind, start cursor]
  cases first cursor with
  | ok value after => exact rest value after
  | error error after => rfl

/-- Where the first results are the same, the second readers start from the same value. -/
theorem bind_same {further : γ → δ} {first movedFirst : Reader α} {next : α → Reader γ}
    {movedNext : α → Reader δ} (start : Follows move id first movedFirst)
    (rest : ∀ value, Follows move further (next value) (movedNext value)) :
    Follows move further (first >>= next) (movedFirst >>= movedNext) :=
  start.bind rest

theorem discard {change : α → β} {reader : Reader α} {moved : Reader β}
    (inner : Follows move change reader moved) :
    Follows move id (Functor.discard reader) (Functor.discard moved) :=
  inner.bind fun _ => pure ()

/-- Readers follow through the same branch of a test. -/
theorem ite {change : α → β} {first second : Reader α} {movedFirst movedSecond : Reader β}
    (test : Prop) [Decidable test] (yes : Follows move change first movedFirst)
    (no : Follows move change second movedSecond) :
    Follows move change (if test then first else second)
      (if test then movedFirst else movedSecond) := by
  split
  · exact yes
  · exact no

/-- A choice between two readers before a common rest. -/
theorem join {change : α → β} {further : γ → δ} {test : Prop} {decided : Decidable test}
    {first second : Reader α} {next : α → Reader γ} {movedFirst movedSecond : Reader β}
    {movedNext : β → Reader δ} (yes : Follows move change first movedFirst)
    (no : Follows move change second movedSecond)
    (rest : ∀ value, Follows move further (next value) (movedNext (change value))) :
    Follows move further (if test then first >>= next else second >>= next)
      (if test then movedFirst >>= movedNext else movedSecond >>= movedNext) :=
  .ite test (yes.bind rest) (no.bind rest)

/-- A reader whose value is wrapped before the rest. -/
theorem bind_wrapped {ε ζ : Type} {change : α → β} {between : ε → ζ} {further : γ → δ}
    {first : Reader α} {wrap : α → ε} {next : ε → Reader γ} {movedFirst : Reader β}
    {movedWrap : β → ζ} {movedNext : ζ → Reader δ} (start : Follows move change first movedFirst)
    (wraps : ∀ value, movedWrap (change value) = between (wrap value))
    (rest : ∀ value, Follows move further (next value) (movedNext (between value))) :
    Follows move further (first >>= fun value => Pure.pure (wrap value) >>= next)
      (movedFirst >>= fun value => Pure.pure (movedWrap value) >>= movedNext) :=
  start.bind fun value => (give (wraps value)).bind rest

/-- A part that may be absent, before the rest. -/
theorem optional {change : α → β} {further : γ → δ} {test : Prop} {decided : Decidable test}
    {part : Reader α} {next : Option α → Reader γ} {movedPart : Reader β}
    {movedNext : Option β → Reader δ} (present : Follows move change part movedPart)
    (rest : ∀ value, Follows move further (next value) (movedNext (value.map change))) :
    Follows move further
      (if test then part >>= fun value => Pure.pure (some value) >>= next else Pure.pure none >>= next)
      (if test then movedPart >>= fun value => Pure.pure (some value) >>= movedNext
        else Pure.pure none >>= movedNext) :=
  .ite test (present.bind_wrapped (fun _ => rfl) rest) ((Follows.pure none).bind rest)

end Follows

section Primitives

variable {change : α → β}

theorem stays_get : Stays move (Cursor.relocate move) get := fun _ => rfl

/-- What is seen at a cursor is seen at the moved cursor, if moving it makes no difference. -/
theorem follows_look {look : Cursor → α} {movedLook : Cursor → β}
    (same : ∀ cursor, movedLook (cursor.relocate move) = change (look cursor)) :
    Follows move change (do return look (← get)) (do return movedLook (← get)) :=
  stays_get.bind fun cursor => .give (same cursor)

theorem stays_here : Stays move move here := follows_look (Cursor.start_relocate move)

theorem stays_peek : Stays move id peek := follows_look (Cursor.next?_relocate move)

theorem stays_atPunct (punct : String) : Stays move id (atPunct punct) :=
  follows_look fun cursor => cursor.atPunct_relocate move punct

theorem stays_atWord (word : String) : Stays move id (atWord word) :=
  follows_look fun cursor => cursor.atWord_relocate move word

theorem stays_atEnd : Stays move id atEnd := by
  refine follows_look fun cursor => ?_
  simp

theorem stays_advance : Stays move id advance := by
  intro cursor
  change EStateM.Result.ok () (cursor.relocate move).advance = _
  rw [Cursor.advance_relocate]
  rfl

/-- A failure is moved with the cursor. -/
theorem follows_fail (fault : Fault) : Follows move change (fail fault) (fail fault) := by
  intro cursor
  change EStateM.Result.error (Error.mk (cursor.relocate move).start fault) _ = _
  rw [Cursor.start_relocate]
  rfl

/-- A failure at a position is moved with the position. -/
theorem follows_failAt (pos : Pos) (fault : Fault) :
    Follows move change (failAt pos fault) (failAt (move pos) fault) :=
  fun _ => rfl

theorem follows_failExpected (wanted : String) :
    Follows move change (failExpected wanted) (failExpected wanted) := by
  refine stays_get.bind fun cursor => ?_
  rw [Cursor.next?_relocate]
  exact follows_fail _

theorem stays_eatPunct (punct : String) : Stays move id (eatPunct punct) :=
  (stays_atPunct punct).bind_same fun _ =>
    .ite _ (stays_advance.bind_same fun _ => .pure true) (.pure false)

theorem stays_eatWord (word : String) : Stays move id (eatWord word) :=
  (stays_atWord word).bind_same fun _ =>
    .ite _ (stays_advance.bind_same fun _ => .pure true) (.pure false)

theorem stays_expectPunct (punct : String) : Stays move id (expectPunct punct) :=
  (stays_eatPunct punct).bind_same fun _ => .ite _ (follows_failExpected _) (.pure ())

/-- A node is moved with its start and its fields. -/
theorem follows_node (kind : String) (start : Pos) (text : Option String)
    (fields : List (Field Draft)) :
    Follows move (Draft.relocate move) (node kind start text fields)
      (node kind (move start) text (fields.map (Field.map (Draft.relocate move)))) :=
  stays_get.bind fun cursor =>
    .give (Draft.relocate_branch move ⟨kind, some ⟨start, cursor.prevEnd⟩, text⟩ fields).symm

/-- The end of a statement is found alike at a moved cursor. -/
theorem stays_semicolon : Stays move id semicolon := by
  refine (stays_eatPunct ";").bind_same fun ate => ?_
  refine .ite _ (.pure ()) ?_
  refine (stays_atPunct "\x7d").bind_same fun closes => ?_
  refine .ite _ (.pure ()) ?_
  refine stays_get.bind fun cursor => ?_
  obtain ⟨rest, prevEnd, sourceEnd, depth⟩ := cursor
  cases rest with
  | nil => exact .pure ()
  | cons token rest => exact .ite _ (follows_failExpected _) (.pure ())

end Primitives

section Repetition

variable {change : α → β} {item : Reader α} {movedItem : Reader β}

private theorem follows_manyUpTo {stop movedStop : Reader Bool} (stops : Follows move id stop movedStop)
    (items : Follows move change item movedItem) (limit : Nat) :
    Follows move (List.map change) (manyUpTo stop item limit) (manyUpTo movedStop movedItem limit) := by
  induction limit with
  | zero => exact follows_fail _
  | succ limit ih =>
    refine stops.bind_same fun stopped => .ite _ (.pure []) ?_
    exact items.bind fun first => ih.bind fun rest => .pure (first :: rest)

/-- Items are read alike at a moved cursor until both readers are told to stop. -/
theorem follows_many {stop movedStop : Reader Bool} (stops : Follows move id stop movedStop)
    (items : Follows move change item movedItem) :
    Follows move (List.map change) (many stop item) (many movedStop movedItem) := by
  refine stays_get.bind fun cursor => ?_
  rw [Cursor.rest_relocate, List.length_map]
  exact follows_manyUpTo stops items _

private theorem follows_listUpTo (close : String) (items : Follows move change item movedItem)
    (limit : Nat) :
    Follows move (List.map change) (listUpTo close item limit) (listUpTo close movedItem limit) := by
  induction limit with
  | zero => exact follows_fail _
  | succ limit ih =>
    refine (stays_eatPunct close).bind_same fun closed => .ite _ (.pure []) ?_
    refine items.bind fun first => ?_
    refine (stays_eatPunct ",").bind_same fun comma => .ite _ ?_ ?_
    · exact ih.bind fun rest => .pure (first :: rest)
    · exact (stays_expectPunct close).bind_same fun _ => .pure [first]

/-- Lists are read alike at a moved cursor. -/
theorem follows_list (close : String) (items : Follows move change item movedItem) :
    Follows move (List.map change) (list close item) (list close movedItem) := by
  refine stays_get.bind fun cursor => ?_
  rw [Cursor.rest_relocate, List.length_map]
  exact follows_listUpTo close items _

/-- Items with commas between them are read alike at a moved cursor. -/
theorem follows_commaSeparated (items : Follows move change item movedItem) :
    Follows move (List.map change) (commaSeparated item) (commaSeparated movedItem) := by
  refine items.bind fun first => ?_
  have stops : Stays move id (do return !(← eatPunct ",")) :=
    (stays_eatPunct ",").bind_same fun comma => .pure (!comma)
  exact (follows_many stops items).bind fun rest => .pure (first :: rest)

private theorem follows_growUpTo {extend : α → Reader (Option α)} {movedExtend : β → Reader (Option β)}
    (extension : ∀ value, Follows move (Option.map change) (extend value) (movedExtend (change value)))
    (limit : Nat) (value : α) :
    Follows move change (growUpTo extend limit value) (growUpTo movedExtend limit (change value)) := by
  induction limit generalizing value with
  | zero => exact follows_fail _
  | succ limit ih =>
    refine (extension value).bind fun extended => ?_
    cases extended with
    | none => exact .pure value
    | some larger => exact ih larger

/-- What grows step by step does so alike at a moved cursor. -/
theorem follows_grow {extend : α → Reader (Option α)} {movedExtend : β → Reader (Option β)}
    (extension : ∀ value, Follows move (Option.map change) (extend value) (movedExtend (change value)))
    (value : α) : Follows move change (grow extend value) (grow movedExtend (change value)) := by
  refine stays_get.bind fun cursor => ?_
  rw [Cursor.rest_relocate, List.length_map]
  exact follows_growUpTo extension _ value

end Repetition

/-- A level deeper, readers follow as they do. -/
theorem follows_nested {change : α → β} {reader : Reader α} {moved : Reader β}
    (inner : Follows move change reader moved) :
    Follows move change (nested reader) (nested moved) := by
  intro cursor
  by_cases deep : cursor.depth ≥ maxDepth
  · have movedDeep : (cursor.relocate move).depth ≥ maxDepth := deep
    rw [nested_apply, if_pos movedDeep, nested_apply, if_pos deep]
    exact follows_fail .tooDeep cursor
  · have deeper := inner { cursor with depth := cursor.depth + 1 }
    change moved { cursor.relocate move with depth := cursor.depth + 1 } = _ at deeper
    have shallow : ¬(cursor.relocate move).depth ≥ maxDepth := deep
    rw [nested_apply, if_neg shallow, nested_apply, if_neg deep]
    change (match moved { cursor.relocate move with depth := cursor.depth + 1 } with
      | .ok value after => _ | .error error after => _) = _
    rw [deeper]
    cases reader { cursor with depth := cursor.depth + 1 } <;> rfl

end Script

end SyntaxNav

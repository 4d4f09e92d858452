import SyntaxNav.Proofs.Editor.SessionRuns

/-! # Commands are carried out whole or not at all

A command ends in one of five ways: a promise is broken, nothing is found, a node becomes current, the
span to delete does not lie in the text, or text is deleted. `Ending` lists them with everything that
each leaves behind. Only a deletion changes the text, and only it and a new current node change the
session that carried the command out. Before that, the text may have been parsed anew; `refresh_kept`
and `refresh_new` say when it was.
-/

namespace SyntaxNav.Session

variable {session : Session} {tree : Tree} {view : View} {command : Command} {turn : Turn}

/-- How a command that is carried out in the tree of the text can end. -/
inductive Ending (session : Session) (view : View) : Turn → Prop
  | broken (defect : Defect) : Ending session view ⟨.error (.defect defect), session, view⟩
  | nowhere : Ending session view ⟨.ok .noTarget, session, view⟩
  | reached (kind : String) (span : Option Span) (path : Path) {shown : View} :
      shown.text = view.text →
      Ending session view ⟨.ok (.target kind span), { session with current := some path }, shown⟩
  | refused (span : Span) : Ending session view ⟨.error (.outOfRange span), session, view⟩
  | deleted (removed : Span) (cursor : Pos) (text : String) :
      Ending session view ⟨.ok (.cut removed cursor), { session with current := none },
        { view with text }.moveTo cursor⟩

/-- Showing a span does not change the text. -/
theorem reveal_text (view : View) (command : Command) (span : Span) :
    (view.reveal command span).text = view.text := by
  unfold View.reveal
  split
  · rfl
  · rfl
  · split <;> rfl

private theorem settle_ending (session : Session) (tree : Tree) (command : Command) (view : View)
    (path : Path) : Ending session view (session.settle tree command view path) := by
  unfold settle
  cases tree.lookup path.node with
  | error defect => exact .broken defect
  | ok node =>
    have kept : (node.label.span.elim view (view.reveal command)).text = view.text := by
      cases node.label.span with
      | none => rfl
      | some span => exact reveal_text view command span
    exact .reached node.label.kind node.label.span path kept

private theorem move_ending (session : Session) (tree : Tree) (command : Command) (view : View) :
    Ending session view (session.move tree command view).value := by
  simp only [move, Noted.value_bind]
  cases (session.seek ⟨tree, session.order⟩ command (.point view.cursor)).value with
  | error defect => exact .broken defect
  | ok target =>
    cases target with
    | none => exact .nowhere
    | some path => exact settle_ending session tree command view path

private theorem cut_ending (session : Session) (tree : Tree) (view : View) :
    Ending session view (session.cut tree view).value := by
  simp only [cut, Noted.value_bind, Navigator.value_notedPlan]
  cases Navigator.plan ⟨tree, session.order⟩ (session.removalTarget view) with
  | error defect => exact .broken defect
  | ok planned =>
    cases planned with
    | none => exact .nowhere
    | some removal =>
      rcases session.remove_cases view removal with ⟨-, result⟩ | ⟨text, -, result⟩
      · exact result ▸ .refused removal.deleted
      · exact result ▸ .deleted removal.deleted removal.cursor text

/-- Whatever a command does in a tree, it ends in one of the ways that are allowed. -/
theorem perform_ending (session : Session) (tree : Tree) (command : Command) (view : View) :
    Ending session view (session.perform tree command view).value := by
  unfold perform
  split
  · exact cut_ending session tree view
  · exact move_ending session tree command view

namespace Ending

variable (ending : Ending session view turn)

include ending

private theorem view_kept (stopped : (∃ error, turn.result = .error error) ∨ turn.result = .ok .noTarget) :
    turn.view = view := by
  cases ending with
  | broken | nowhere | refused => rfl
  | reached | deleted => rcases stopped with ⟨_, result⟩ | result <;> cases result

private theorem session_kept
    (stopped : turn.result = .ok .noTarget ∨ ∃ span, turn.result = .error (.outOfRange span)) :
    turn.session = session := by
  cases ending with
  | broken | nowhere | refused => rfl
  | reached | deleted => rcases stopped with result | ⟨_, result⟩ <;> cases result

private theorem not_parse (error : ParseError) : turn.result ≠ .error (.parse error) := by
  cases ending <;> intro result <;> cases result

private theorem text_kept (uncut : ∀ removed cursor, turn.result ≠ .ok (.cut removed cursor)) :
    turn.view.text = view.text := by
  cases ending with
  | broken | nowhere | refused => rfl
  | reached _ _ _ kept => exact kept
  | deleted removed cursor => exact absurd rfl (uncut removed cursor)

private theorem unset_of_cut {removed : Span} {cursor : Pos} (cut : turn.result = .ok (.cut removed cursor)) :
    turn.session.current = none ∧ turn.view.isSelecting = false := by
  cases ending with
  | broken | nowhere | reached | refused => cases cut
  | deleted removed cursor text => exact ⟨rfl, by simp [View.isSelecting, View.moveTo]⟩

end Ending

/-- What a command leaves behind if it does not go through: a turn is the whole command, or nothing
but the parse of a new text. -/
structure Atomic (session : Session) (view : View) (turn : Turn) : Prop where
  /-- Without success the view stays as it was. -/
  view_kept : (∃ error, turn.result = .error error) ∨ turn.result = .ok .noTarget → turn.view = view
  /-- A text that cannot be parsed changes nothing. -/
  unparsed : ∀ error, turn.result = .error (.parse error) → turn.session = session
  /-- Nothing was found or could be deleted in the kept text. -/
  kept : turn.result = .ok .noTarget ∨ (∃ span, turn.result = .error (.outOfRange span)) →
    session.parsed.map (·.text) = some view.text → turn.session = session
  /-- Nothing was found or could be deleted in a new text, which is kept from now on. -/
  replaced : turn.result = .ok .noTarget ∨ (∃ span, turn.result = .error (.outOfRange span)) →
    session.parsed.map (·.text) ≠ some view.text →
      ∃ tree, (session.language.parse session.parses view.text).value = .ok tree ∧
        turn.session.parsed = some ⟨view.text, tree⟩ ∧ turn.session.current = none
  /-- Only a cut changes the text. -/
  text_kept : (∀ removed cursor, turn.result ≠ .ok (.cut removed cursor)) → turn.view.text = view.text
  /-- After a cut no node is current and nothing is selected. -/
  cut : ∀ removed cursor, turn.result = .ok (.cut removed cursor) →
    turn.session.current = none ∧ turn.view.isSelecting = false

private theorem atomic_of_parse_failure (session : Session) (view : View) (failure : ParseFailure) :
    Atomic session view ⟨.error (.ofParseFailure failure), session, view⟩ where
  view_kept _ := rfl
  unparsed _ _ := rfl
  kept _ _ := rfl
  replaced stopped _ := by
    cases failure <;> rcases stopped with result | ⟨_, result⟩ <;> cases result
  text_kept _ := rfl
  cut _ _ result := by cases result

/-- A text that is not the kept one is parsed when a session is refreshed with it. -/
theorem refresh_new {after : Session} (new : session.parsed.map (·.text) ≠ some view.text)
    (refreshed : (session.refresh view.text).value = .ok after) :
    ∃ tree, (session.language.parse session.parses view.text).value = .ok tree ∧
      after = session.adopt view.text tree := by
  rcases session.refresh_cases view.text with
    ⟨kept, known, -⟩ | ⟨failure, -, result⟩ | ⟨fresh, parsed, result⟩
  · rw [known] at new
    exact absurd rfl new
  · cases refreshed.symm.trans result
  · cases refreshed.symm.trans result
    exact ⟨fresh, parsed, rfl⟩

/-- The kept text is not parsed again. -/
theorem refresh_kept {after : Session} (old : session.parsed.map (·.text) = some view.text)
    (refreshed : (session.refresh view.text).value = .ok after) : after = session := by
  obtain ⟨⟨text, kept⟩, known, rfl⟩ := Option.map_eq_some_iff.mp old
  have answered : session.keeps view.text = true := keeps_iff.mpr ⟨kept, known⟩
  rw [refresh, if_pos answered] at refreshed
  cases refreshed
  rfl

/-- A command that fails or finds nothing leaves the view as it was, and changes the session only by
keeping a new text with its tree. Only a cut changes the text; it leaves no node current and nothing
selected. -/
theorem execute_is_atomic (session : Session) (command : Command) (view : View) :
    Atomic session view (session.execute command view).value := by
  rcases session.execute_cases command view with
    ⟨failure, -, result⟩ | ⟨after, tree, refreshed, -, result⟩
  · rw [result]
    exact atomic_of_parse_failure session view failure
  · rw [result]
    have ending := perform_ending after tree command view
    constructor
    · exact ending.view_kept
    · intro error failed
      exact absurd failed (ending.not_parse error)
    · intro stopped old
      rw [ending.session_kept stopped, refresh_kept old refreshed]
    · intro stopped new
      obtain ⟨fresh, parsed, rfl⟩ := refresh_new new refreshed
      rw [ending.session_kept stopped]
      exact ⟨fresh, parsed, rfl, rfl⟩
    · exact ending.text_kept
    · intro removed cursor cut
      exact ending.unset_of_cut cut

end SyntaxNav.Session

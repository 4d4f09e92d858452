import SyntaxNav.Proofs.Editor.SafeCuts

/-! # The view shows the current node

A session for scripts works on one view. Between the commands the view may be repositioned through the
session, and its text may be changed behind the back of the session. However a run goes on, whenever a
node is current the view shows it: it selects the span of the node, or has its cursor at the start of the
span. `Sound.perform_cases` says what a command does to session and view together; the invariant is kept
by one command (`ShowsCurrent.execute`) and so by every run.
-/

namespace SyntaxNav

private theorem Script.toTree_span {id : TreeId} {source : String} {tree : Tree} {node : Node}
    (parsed : Script.toTree id source = .ok tree) (occurs : tree.root.Occurs node) :
    ∃ span, node.label.span = some span ∧ span.start ≤ span.stop := by
  obtain ⟨span, spanned⟩ := Option.isSome_iff_exists.mp (Script.toTree_spansNest parsed occurs).spanned
  have drafted : (node.relabel Numbered.toLabel).label.span = some span := by
    rw [SlotTree.label_relabel]
    exact spanned
  exact ⟨span, spanned,
    Script.parse_span_ordered (Script.toTree_spec parsed).1 (occurs.relabel Numbered.toLabel) drafted⟩

namespace View

/-- A view selects a span, or has its cursor at the start of it. -/
def Shows (view : View) (span : Span) : Prop :=
  view.anchor = span.start ∧ (view.head = span.stop ∨ view.head = span.start)

variable (view : View) {command : Command} (span : Span)

private theorem reveal_shows : (view.reveal command span).Shows span := by
  unfold reveal
  split
  · exact ⟨rfl, .inl rfl⟩
  · exact ⟨rfl, .inr rfl⟩
  · split
    · exact ⟨rfl, .inl rfl⟩
    · exact ⟨rfl, .inr rfl⟩

/-- Going in, out and aside keeps selecting, or keeps moving the cursor. -/
theorem reveal_of_step (isStep : command ∈ [.expand, .shrink, .next, .prev]) :
    view.reveal command span =
      if view.isSelecting then view.select span else view.moveTo span.start := by
  simp only [List.mem_cons, List.not_mem_nil, or_false] at isStep
  rcases isStep with rfl | rfl | rfl | rfl <;> rfl

private theorem selection_select (ordered : span.start ≤ span.stop) :
    (view.select span).selection = span := by
  rw [selection, select, if_neg (not_lt.mpr ordered)]

end View

namespace Session

/-- The sessions for scripts and the views that a run on one view leads to. -/
inductive Attended : Session → View → Prop
  | start (order : FieldOrder) (view : View) : Attended (start Script.language order) view
  | execute {session : Session} {view : View} (command : Command) : Attended session view →
      Attended (session.execute command view).value.session (session.execute command view).value.view
  | reposition {session : Session} {view : View} (anchor head : Pos) : Attended session view →
      Attended (session.reposition view anchor head).1 (session.reposition view anchor head).2
  /-- The text is changed, and the selection stays where it is. -/
  | edit {session : Session} {view : View} (text : String) : Attended session view →
      Attended session { view with text }

variable {session after : Session} {view : View} {tree : Tree} {text : String} {command : Command}

private theorem Attended.reachable (attended : Attended session view) :
    session.Reachable (· = Script.language) := by
  induction attended with
  | start order view => exact .start order rfl
  | execute command _ ih => exact .execute command _ ih
  | reposition anchor head _ ih => exact .reposition _ anchor head ih
  | edit text _ ih => exact ih

private theorem scripts_build : ∀ language, language = Script.language → language.Builds := by
  rintro _ rfl id source tree parsed
  exact (Script.toTree_spec parsed).2

private theorem Attended.sound (attended : Attended session view) : session.Sound (· = Script.language) :=
  attended.reachable.sound scripts_build

/-- A node of the kept tree has a span. -/
theorem Sound.exists_span (sound : session.Sound (· = Script.language))
    (known : session.parsed = some ⟨text, tree⟩) {node : Node} (occurs : tree.root.Occurs node) :
    ∃ span, node.label.span = some span ∧ span.start ≤ span.stop := by
  obtain ⟨_, id, rfl, parsed⟩ := sound.parsed _ known
  exact Script.toTree_span parsed occurs

/-- A command keeps session and view, makes a node of the tree current and shows it, or leaves no node
current. -/
theorem Sound.perform_cases (sound : session.Sound (· = Script.language))
    (known : session.parsed = some ⟨text, tree⟩) (command : Command) (view : View) :
    (∃ result, (session.perform tree command view).value = ⟨result, session, view⟩ ∧
      ∀ kind span, result ≠ .ok (.target kind span)) ∨
    (∃ path node span, tree.Leads path node ∧ node.label.span = some span ∧ span.start ≤ span.stop ∧
      (session.perform tree command view).value = ⟨.ok (.target node.label.kind (some span)),
        { session with current := some path }, view.reveal command span⟩) ∨
    (command = .cut ∧ (session.perform tree command view).value.session.current = none) := by
  have coherent := sound.tree_coherent known scripts_build
  unfold Session.perform
  split
  · rename_i isCut
    rcases sound.cut_cases known coherent view with result | ⟨removal, node, outer, -, result⟩
    · exact .inl ⟨_, result, nofun⟩
    · rcases session.remove_cases view removal with ⟨-, removed⟩ | ⟨text, -, removed⟩
      · exact .inl ⟨_, result.trans removed, nofun⟩
      · refine .inr (.inr ⟨isCut, ?_⟩)
        rw [result, removed]
  · rename_i uncut
    obtain ⟨target, sought, genuine⟩ := sound.seek_finds known coherent uncut (.point view.cursor)
    simp only [Session.move, Noted.value_bind, sought]
    cases target with
    | none => exact .inl ⟨_, rfl, nofun⟩
    | some path =>
      obtain ⟨node, leads⟩ := genuine path rfl
      obtain ⟨span, spanned, ordered⟩ := sound.exists_span known leads.occurs
      refine .inr (.inl ⟨path, node, span, leads, spanned, ordered, ?_⟩)
      simp only [Noted.value_pure, settle, leads.lookup coherent, spanned, Option.elim_some]

/-- The current node has a span in the kept tree, and the view shows it. -/
def ShowsCurrent (session : Session) (view : View) : Prop :=
  ∀ path, session.current = some path → ∃ parsed node span, session.parsed = some parsed ∧
    parsed.tree.lookup path.node = .ok node ∧ node.label.span = some span ∧ view.Shows span

private theorem showsCurrent_of_none (nowhere : session.current = none) : session.ShowsCurrent view := by
  intro path current
  rw [nowhere] at current
  cases current

namespace ShowsCurrent

variable (shows : session.ShowsCurrent view)

include shows

private theorem refresh (refreshed : (session.refresh text).value = .ok after) :
    after.ShowsCurrent view := by
  rcases session.refresh_cases text with
    ⟨kept, -, result⟩ | ⟨failure, -, result⟩ | ⟨fresh, -, result⟩ <;>
      cases refreshed.symm.trans result
  · exact shows
  · exact showsCurrent_of_none rfl

private theorem perform (sound : session.Sound (· = Script.language))
    (known : session.parsed = some ⟨text, tree⟩) (command : Command) :
    (session.perform tree command view).value.session.ShowsCurrent
      (session.perform tree command view).value.view := by
  rcases sound.perform_cases known command view with
    ⟨result, turn, -⟩ | ⟨path, node, span, leads, spanned, -, turn⟩ | ⟨-, nowhere⟩
  · rw [turn]
    exact shows
  · rw [turn]
    rintro _ ⟨⟩
    have found := leads.lookup (sound.tree_coherent known scripts_build)
    exact ⟨⟨text, tree⟩, node, span, known, found, spanned, view.reveal_shows span⟩
  · exact showsCurrent_of_none nowhere

/-- A command leaves a view that shows the current node. -/
theorem execute (sound : session.Sound (· = Script.language)) (command : Command) :
    (session.execute command view).value.session.ShowsCurrent
      (session.execute command view).value.view := by
  rcases session.execute_cases command view with
    ⟨failure, -, result⟩ | ⟨after, tree, refreshed, known, result⟩
  · rw [result]
    exact shows
  · rw [result]
    exact (shows.refresh refreshed).perform (sound.refresh refreshed) known command

end ShowsCurrent

private theorem Attended.showsCurrent (attended : Attended session view) : session.ShowsCurrent view := by
  induction attended with
  | start order view => exact showsCurrent_of_none rfl
  | execute command attended ih => exact ih.execute attended.sound command
  | reposition anchor head _ ih => exact showsCurrent_of_none rfl
  | edit text _ ih => exact ih

/-- What a step in, out or aside does to a selection: a mere cursor stays one, and where the step leads
somewhere, a selection moves on to exactly the span of the node that is now current. -/
structure KeepsShape (view : View) (turn : Turn) : Prop where
  cursor : view.isSelecting = false → turn.view.isSelecting = false
  selection : ∀ kind shown, turn.result = .ok (.target kind shown) → view.isSelecting = true →
    ∃ path parsed node span, turn.session.current = some path ∧ turn.session.parsed = some parsed ∧
      parsed.tree.lookup path.node = .ok node ∧ node.label.span = some span ∧ shown = some span ∧
      turn.view.anchor = span.start ∧ turn.view.head = span.stop ∧ turn.view.selection = span

private theorem keepsShape_of_kept {result : Except SessionError Outcome}
    (failed : ∀ kind span, result ≠ .ok (.target kind span)) :
    KeepsShape view ⟨result, session, view⟩ :=
  ⟨id, fun kind span reached => absurd reached (failed kind span)⟩

private theorem Sound.perform_keepsShape (sound : session.Sound (· = Script.language))
    (known : session.parsed = some ⟨text, tree⟩) (view : View)
    (isStep : command ∈ [.expand, .shrink, .next, .prev]) :
    KeepsShape view (session.perform tree command view).value := by
  rcases sound.perform_cases known command view with
    ⟨result, turn, failed⟩ | ⟨path, node, span, leads, spanned, ordered, turn⟩ | ⟨rfl, -⟩
  · rw [turn]
    exact keepsShape_of_kept failed
  · rw [turn, view.reveal_of_step span isStep]
    constructor
    · intro bare
      simp only [bare, Bool.false_eq_true, if_false]
      simp [View.isSelecting, View.moveTo]
    · rintro _ _ ⟨⟩ selecting
      have found := leads.lookup (sound.tree_coherent known scripts_build)
      rw [if_pos selecting]
      exact ⟨path, ⟨text, tree⟩, node, span, rfl, known, found, spanned, rfl, rfl, rfl,
        view.selection_select span ordered⟩
  · exact absurd isStep (by decide)

private theorem Sound.execute_keepsShape (sound : session.Sound (· = Script.language)) (view : View)
    (isStep : command ∈ [.expand, .shrink, .next, .prev]) :
    KeepsShape view (session.execute command view).value := by
  rcases session.execute_cases command view with
    ⟨failure, -, result⟩ | ⟨after, tree, refreshed, known, result⟩
  · rw [result]
    exact keepsShape_of_kept nofun
  · rw [result]
    exact (sound.refresh refreshed).perform_keepsShape known view isStep

/-- Throughout a run the view shows the current node. Going in, out and aside never makes a selection of
a mere cursor, and takes a selection to the node that becomes current. -/
theorem view_shows_current_node (attended : Attended session view) :
    (∀ path, session.current = some path → ∃ parsed node span, session.parsed = some parsed ∧
      parsed.tree.lookup path.node = .ok node ∧ node.label.span = some span ∧
      ((view.anchor, view.head) = (span.start, span.stop) ∨
        (view.anchor, view.head) = (span.start, span.start))) ∧
    ∀ command ∈ [.expand, .shrink, .next, .prev],
      KeepsShape view (session.execute command view).value := by
  constructor
  · intro path current
    obtain ⟨parsed, node, span, known, found, spanned, anchor, head⟩ := attended.showsCurrent path current
    refine ⟨parsed, node, span, known, found, spanned, ?_⟩
    rcases head with head | head
    · exact .inl (by rw [anchor, head])
    · exact .inr (by rw [anchor, head])
  · intro command isStep
    exact attended.sound.execute_keepsShape view isStep

/-- An argument is selected, the text is broken, a command fails, and the argument is still shown. -/
theorem argument_is_shown_over_broken_text :
    ∃ session view path, Attended session view ∧ view.text = "f(a, " ∧ view.isSelecting = true ∧
      session.current = some path ∧ ∃ parsed node span, session.parsed = some parsed ∧
        parsed.tree.lookup path.node = .ok node ∧ node.label.span = some span ∧
        ((view.anchor, view.head) = (span.start, span.stop) ∨
          (view.anchor, view.head) = (span.start, span.start)) := by
  let selected := ((start Script.language .bundled).execute .select ⟨"f(a, b)", ⟨1, 2⟩, ⟨1, 2⟩⟩).value
  let beside := (selected.session.execute .next selected.view).value
  let broken := (beside.session.execute .expand { beside.view with text := "f(a, " }).value
  have attended : Attended broken.session broken.view :=
    .execute .expand (.edit "f(a, " (.execute .next (.execute .select (.start .bundled _))))
  have facts : broken.view.text = "f(a, " ∧ broken.view.isSelecting = true ∧
      broken.session.current.isSome = true := by
    decide +kernel
  obtain ⟨text, selecting, positioned⟩ := facts
  obtain ⟨path, current⟩ := Option.isSome_iff_exists.mp positioned
  exact ⟨_, _, path, attended, text, selecting, current,
    (view_shows_current_node attended).1 path current⟩

end Session

end SyntaxNav

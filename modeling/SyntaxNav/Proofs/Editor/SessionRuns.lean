import SyntaxNav.Editor.Session
import SyntaxNav.Proofs.Navigation.Moves
import SyntaxNav.Proofs.Script.SpanGeometry

/-! # Runs of a session

A session is reachable if commands, repositionings and changes from outside lead to it. The view is no
part of it: each command may find any text and any cursor. Nor does the language have to answer alike
every time, as long as its trees are made by a builder.

A reachable session is sound: it keeps a tree that the language returned for the text it keeps, and
its current path is a path of that tree. `Sound.execute` is the step, `Reachable.sound` the run. A
parse replaces the tree and drops the path at once, and no command does one without the other, so the
identities of trees play no part in the argument.
-/

namespace SyntaxNav

/-- The trees of a language are made by a builder. -/
def Language.Builds (language : Language) : Prop :=
  ∀ id text tree, (language.parse id text).value = .ok tree → tree.Built

namespace Session

variable {allowed : Language → Prop} {session after : Session} {tree : Tree} {text : String}

/-- The sessions of languages of some sort that any run leads to. -/
inductive Reachable (allowed : Language → Prop) : Session → Prop
  | start {language : Language} (order : FieldOrder) :
      allowed language → Reachable allowed (start language order)
  | execute {session : Session} (command : Command) (view : View) :
      Reachable allowed session → Reachable allowed (session.execute command view).value.session
  | reposition {session : Session} (view : View) (anchor head : Pos) :
      Reachable allowed session → Reachable allowed (session.reposition view anchor head).1
  /-- The language behaves differently from now on. -/
  | relearn {session : Session} {language : Language} :
      Reachable allowed session → allowed language → Reachable allowed { session with language }

/-- What holds of a session between commands. -/
structure Sound (allowed : Language → Prop) (session : Session) : Prop where
  language : allowed session.language
  parsed : ∀ parsed, session.parsed = some parsed → ∃ language id, allowed language ∧
    (language.parse id parsed.text).value = .ok parsed.tree
  current : ∀ path, session.current = some path →
    ∃ parsed, session.parsed = some parsed ∧ path.Genuine parsed.tree

/-- A text is the one parsed last just if it is kept together with some tree. -/
theorem keeps_iff : session.keeps text = true ↔ ∃ tree, session.parsed = some ⟨text, tree⟩ := by
  unfold keeps
  constructor
  · intro kept
    cases known : session.parsed with
    | none =>
      rw [known] at kept
      cases kept
    | some parsed =>
      rw [known] at kept
      obtain rfl : parsed.text = text := of_decide_eq_true kept
      exact ⟨parsed.tree, rfl⟩
  · rintro ⟨tree, known⟩
    rw [known]
    exact decide_eq_true rfl

/-- A text is kept, cannot be parsed, or is parsed and then kept. -/
theorem refresh_cases (session : Session) (text : String) :
    (∃ tree, session.parsed = some ⟨text, tree⟩ ∧ (session.refresh text).value = .ok session) ∨
    (∃ failure, (session.language.parse session.parses text).value = .error failure ∧
      (session.refresh text).value = .error failure) ∨
    ∃ tree, (session.language.parse session.parses text).value = .ok tree ∧
      (session.refresh text).value = .ok (session.adopt text tree) := by
  unfold refresh
  by_cases kept : session.keeps text = true
  · obtain ⟨tree, known⟩ := keeps_iff.mp kept
    exact .inl ⟨tree, known, by rw [if_pos kept]; rfl⟩
  · right
    rw [if_neg kept]
    simp only [parse, Noted.value_bind]
    cases parsed : (session.language.parse session.parses text).value with
    | error failure => exact .inl ⟨failure, rfl, rfl⟩
    | ok tree => exact .inr ⟨tree, rfl, rfl⟩

/-- Behind a successful parse there is a tree, and it is that of the text. -/
theorem refresh_parsed (refreshed : (session.refresh text).value = .ok after) :
    ∃ tree, after.parsed = some ⟨text, tree⟩ := by
  rcases session.refresh_cases text with
    ⟨tree, known, result⟩ | ⟨failure, -, result⟩ | ⟨tree, -, result⟩ <;>
      cases refreshed.symm.trans result
  · exact ⟨tree, known⟩
  · exact ⟨tree, rfl⟩

/-- A removal is carried out unless its span does not lie in the text. -/
theorem remove_cases (session : Session) (view : View) (removal : Removal) :
    (removal.apply view.text = none ∧
      (session.remove view removal).value = ⟨.error (.outOfRange removal.deleted), session, view⟩) ∨
    ∃ text, removal.apply view.text = some text ∧
      (session.remove view removal).value = ⟨.ok (.cut removal.deleted removal.cursor),
        { session with current := none }, { view with text }.moveTo removal.cursor⟩ := by
  unfold remove
  cases applied : removal.apply view.text with
  | none => exact .inl ⟨rfl, rfl⟩
  | some text => exact .inr ⟨text, rfl, rfl⟩

/-- A command fails with the parse of the text, or is performed in its tree. -/
theorem execute_cases (session : Session) (command : Command) (view : View) :
    (∃ failure, (session.language.parse session.parses view.text).value = .error failure ∧
      (session.execute command view).value = ⟨.error (.ofParseFailure failure), session, view⟩) ∨
    ∃ after tree, (session.refresh view.text).value = .ok after ∧
      after.parsed = some ⟨view.text, tree⟩ ∧
      (session.execute command view).value = (after.perform tree command view).value := by
  simp only [execute, Noted.value_bind]
  cases refreshed : (session.refresh view.text).value with
  | error failure =>
    refine .inl ⟨failure, ?_, rfl⟩
    rcases session.refresh_cases view.text with
      ⟨tree, -, result⟩ | ⟨other, failed, result⟩ | ⟨tree, -, result⟩ <;>
        cases refreshed.symm.trans result
    exact failed
  | ok after =>
    obtain ⟨tree, known⟩ := refresh_parsed refreshed
    refine .inr ⟨after, tree, rfl, known, ?_⟩
    simp only [known]

namespace Sound

/-- A refreshed session is sound. -/
theorem refresh (sound : session.Sound allowed)
    (refreshed : (session.refresh text).value = .ok after) : after.Sound allowed := by
  rcases session.refresh_cases text with
    ⟨kept, -, result⟩ | ⟨failure, -, result⟩ | ⟨fresh, parsed, result⟩ <;>
      cases refreshed.symm.trans result
  · exact sound
  · refine ⟨sound.language, ?_, nofun⟩
    rintro _ ⟨⟩
    exact ⟨session.language, session.parses, sound.language, parsed⟩

variable (sound : session.Sound allowed) (known : session.parsed = some ⟨text, tree⟩)

include sound known

/-- The current path of a sound session is a path of the kept tree. -/
theorem current_genuine {path : Path} (current : session.current = some path) : path.Genuine tree := by
  obtain ⟨parsed, same, genuine⟩ := sound.current path current
  rw [known, Option.some.injEq] at same
  subst same
  exact genuine

private theorem origin_genuine {cursor : Span} {path : Path}
    (found : (session.origin ⟨tree, session.order⟩ cursor).value = some path) : path.Genuine tree := by
  unfold origin at found
  cases current : session.current with
  | some start =>
    rw [current] at found
    cases found
    exact sound.current_genuine known current
  | none =>
    rw [current] at found
    exact Tree.locate?_genuine found

variable (coherent : tree.Coherent)

include coherent

private theorem seekBeside_finds (direction : Direction) (cursor : Span) :
    Navigator.Finds ⟨tree, session.order⟩
      (session.seekBeside ⟨tree, session.order⟩ direction cursor).value := by
  simp only [seekBeside, Noted.value_bind]
  cases found : (session.origin ⟨tree, session.order⟩ cursor).value with
  | none => exact ⟨none, rfl, nofun⟩
  | some path =>
    obtain ⟨node, leads⟩ := sound.origin_genuine known found
    exact Navigator.step_finds coherent leads direction

/-- Every command but a cut finds its way, and where it leads is a path of the tree. -/
theorem seek_finds {command : Command} (uncut : command ≠ .cut) (cursor : Span) :
    Navigator.Finds ⟨tree, session.order⟩
      (session.seek ⟨tree, session.order⟩ command cursor).value := by
  cases command with
  | select => exact ⟨_, rfl, fun path found => Tree.locate?_genuine found⟩
  | expand =>
    refine ⟨_, rfl, ?_⟩
    intro path found
    rw [Navigator.value_notedExpand] at found
    exact Navigator.expand_genuine (fun _ current => sound.current_genuine known current) found
  | shrink =>
    unfold seek
    cases current : session.current with
    | none => exact ⟨none, rfl, nofun⟩
    | some path =>
      obtain ⟨node, leads⟩ := sound.current_genuine known current
      exact Navigator.shrink_finds coherent leads
  | next => exact sound.seekBeside_finds known coherent .forward cursor
  | prev => exact sound.seekBeside_finds known coherent .backward cursor
  | top =>
    refine ⟨_, rfl, ?_⟩
    intro path found
    obtain ⟨start, origin, rfl⟩ := Option.map_eq_some_iff.mp found
    obtain ⟨node, leads⟩ := sound.origin_genuine known origin
    exact Navigator.topLevel_genuine leads
  | cut => exact absurd rfl uncut

/-- A move succeeds and leaves a sound session. -/
theorem move {command : Command} (uncut : command ≠ .cut) (view : View) :
    (session.move tree command view).value.session.Sound allowed ∧
      ∃ outcome, (session.move tree command view).value.result = .ok outcome := by
  obtain ⟨target, sought, genuine⟩ := sound.seek_finds known coherent uncut (.point view.cursor)
  simp only [Session.move, Noted.value_bind, sought]
  cases target with
  | none => exact ⟨sound, _, rfl⟩
  | some path =>
    obtain ⟨node, leads⟩ := genuine path rfl
    simp only [Noted.value_pure, settle, leads.lookup coherent]
    refine ⟨⟨sound.language, sound.parsed, ?_⟩, _, rfl⟩
    rintro _ ⟨⟩
    exact ⟨⟨text, tree⟩, known, leads.genuine⟩

/-- A cut finds nothing to remove, or removes a node of the tree. -/
theorem cut_cases (view : View) :
    (session.cut tree view).value = ⟨.ok .noTarget, session, view⟩ ∨
      ∃ removal node outer, Navigator.Removes tree removal node outer ∧
        (session.cut tree view).value = (session.remove view removal).value := by
  have genuine : ∀ path, session.removalTarget view = .current path → path.Genuine tree := by
    intro path target
    unfold removalTarget at target
    cases current : session.current with
    | none => simp [current] at target
    | some start =>
      rw [current] at target
      cases target
      exact sound.current_genuine known current
  obtain ⟨planned, answered, removes⟩ :=
    Navigator.plan_removes ⟨tree, session.order⟩ coherent genuine
  simp only [Session.cut, Noted.value_bind, Navigator.value_notedPlan, answered]
  cases planned with
  | none => exact .inl rfl
  | some removal =>
    obtain ⟨node, outer, removes⟩ := removes removal rfl
    exact .inr ⟨removal, node, outer, removes, rfl⟩

omit coherent in
/-- Numbers and nodes of the kept tree fit together. -/
theorem tree_coherent (builds : ∀ language, allowed language → language.Builds) : tree.Coherent := by
  obtain ⟨language, id, isAllowed, parsed⟩ := sound.parsed _ known
  exact (builds language isAllowed id text tree parsed).coherent

/-- A command carried out in the kept tree breaks no promise and leaves a sound session. A cut is told apart
before the way of any other command is sought. -/
theorem perform (command : Command) (view : View) :
    (session.perform tree command view).value.session.Sound allowed ∧
      ∀ defect, (session.perform tree command view).value.result ≠ .error (.defect defect) := by
  unfold Session.perform
  split
  · rcases sound.cut_cases known coherent view with result | ⟨removal, node, outer, -, result⟩
    · rw [result]
      exact ⟨sound, nofun⟩
    · rw [result]
      rcases session.remove_cases view removal with ⟨-, result⟩ | ⟨text, -, result⟩
      · rw [result]
        exact ⟨sound, nofun⟩
      · rw [result]
        exact ⟨⟨sound.language, sound.parsed, nofun⟩, nofun⟩
  · rename_i uncut
    obtain ⟨soundAfter, outcome, result⟩ := sound.move known coherent uncut view
    refine ⟨soundAfter, ?_⟩
    rw [result]
    exact nofun

omit known coherent in
/-- A command leaves a sound session. Only the language can break a promise. -/
theorem execute (builds : ∀ language, allowed language → language.Builds) (command : Command)
    (view : View) :
    (session.execute command view).value.session.Sound allowed ∧
      ∀ defect, (session.execute command view).value.result = .error (.defect defect) →
        (session.language.parse session.parses view.text).value = .error (.defect defect) := by
  rcases session.execute_cases command view with
    ⟨failure, failed, result⟩ | ⟨after, tree, refreshed, known, result⟩
  · rw [result]
    refine ⟨sound, ?_⟩
    intro defect broken
    rw [failed]
    cases failure with
    | malformed error => cases broken
    | defect found =>
      cases broken
      rfl
  · have soundAfter := sound.refresh refreshed
    have coherent := soundAfter.tree_coherent known builds
    obtain ⟨soundLast, unbroken⟩ := soundAfter.perform known coherent command view
    rw [result]
    exact ⟨soundLast, fun defect broken => absurd broken (unbroken defect)⟩

end Sound

/-- Whatever a run does, it leaves a sound session. -/
theorem Reachable.sound (builds : ∀ language, allowed language → language.Builds)
    (reachable : session.Reachable allowed) : session.Sound allowed := by
  induction reachable with
  | start order isAllowed => exact ⟨isAllowed, nofun, nofun⟩
  | execute command view _ ih => exact (ih.execute builds command view).1
  | reposition view anchor head _ ih => exact ⟨ih.language, ih.parsed, nofun⟩
  | relearn _ isAllowed ih => exact ⟨isAllowed, ih.parsed, ih.current⟩

/-- Whenever a node is current, the session keeps a tree and the current path is a path of it. So behind a
parse there is a tree and the current path is not turned away, and a command never breaks a promise that the
language kept: no way is sought for a cut, and no node is looked up in a tree that is not its own. -/
theorem current_path_stays_genuine (reachable : session.Reachable Language.Builds) :
    (∀ path, session.current = some path →
      ∃ parsed, session.parsed = some parsed ∧ path.Genuine parsed.tree) ∧
    (∀ text after, (session.refresh text).value = .ok after →
      ∃ tree, after.parsed = some ⟨text, tree⟩ ∧
        ∀ path, after.current = some path → path.belongsTo tree = true) ∧
    ∀ command view defect, (session.execute command view).value.result = .error (.defect defect) →
      (session.language.parse session.parses view.text).value = .error (.defect defect) := by
  have sound : session.Sound Language.Builds := reachable.sound fun _ builds => builds
  refine ⟨sound.current, ?_, ?_⟩
  · intro text after refreshed
    obtain ⟨tree, known⟩ := refresh_parsed refreshed
    refine ⟨tree, known, ?_⟩
    intro path current
    obtain ⟨node, leads⟩ := (sound.refresh refreshed).current_genuine known current
    exact leads.belongsTo
  · exact fun command view => (sound.execute (fun _ builds => builds) command view).2

theorem selected_argument_stays_genuine :
    ∃ (session : Session) (path : Path) (parsed : ParsedText), session.Reachable Language.Builds ∧
      session.current = some path ∧ session.parsed = some parsed ∧ path.Genuine parsed.tree := by
  let view : View := ⟨"f(a, b)", ⟨1, 2⟩, ⟨1, 2⟩⟩
  let selected := ((start Script.language .bundled).execute .select view).value.session
  have builds : Script.language.Builds := fun id source tree parsed => (Script.toTree_spec parsed).2
  have reachable : Reachable Language.Builds (selected.execute .next view).value.session :=
    .execute .next view (.execute .select view (.start .bundled builds))
  have positioned : (selected.execute .next view).value.session.current.isSome = true := by
    decide +kernel
  obtain ⟨path, current⟩ := Option.isSome_iff_exists.mp positioned
  obtain ⟨parsed, known, genuine⟩ := (current_path_stays_genuine reachable).1 path current
  exact ⟨_, path, parsed, reachable, current, known, genuine⟩

end Session

end SyntaxNav

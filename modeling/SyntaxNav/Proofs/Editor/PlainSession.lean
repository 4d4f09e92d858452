import SyntaxNav.Proofs.Editor.AtomicSteps
import SyntaxNav.Proofs.Navigation.Identity

/-! # Sessions without a tree

A plain session keeps no tree and no path. It remembers the text parsed last, and the indices that lead
from the root to the current node; for every command it parses the text and goes down along them.

Nobody can tell a session from a plain one, if the language gives a text always the same tree. `Mirrors`
relates the two: the plain session remembers the kept text and the indices of the current path.
`Mirrors.respond` says that they answer alike and stay related, and `observations_eq` carries it over
runs of any length. The trees they use differ in their identity only, on which nothing depends.
-/

namespace SyntaxNav

/-- A language gives a text always the same tree or the same failure, up to the identity of the tree. -/
def Language.Uniform (language : Language) : Prop :=
  ∀ id other text, (language.parse other text).value =
    (language.parse id text).value.map fun tree => tree.withId other

/-- What happens to a session and its view. -/
inductive Event where
  | execute (command : Command)
  | reposition (anchor head : Pos)
  /-- The view is changed from outside. -/
  | edit (view : View)

/-- What an event leaves behind. Only commands have an answer. -/
structure Reply (State : Type) where
  answer : Option (Except SessionError Outcome)
  state : State
  view : View

/-- What can be seen of a run: the answer and the view after every event. -/
def observations {State : Type} (respond : State → View → Event → Reply State) (state : State)
    (view : View) : List Event → List (Option (Except SessionError Outcome) × View)
  | [] => []
  | event :: events =>
    let reply := respond state view event
    (reply.answer, reply.view) :: observations respond reply.state reply.view events

def Session.respond (session : Session) (view : View) : Event → Reply Session
  | .execute command =>
    let turn := (session.execute command view).value
    ⟨some turn.result, turn.session, turn.view⟩
  | .reposition anchor head =>
    let (session, view) := session.reposition view anchor head
    ⟨none, session, view⟩
  | .edit changed => ⟨none, session, changed⟩

/-- A language, a field order, the text parsed last, and the indices that lead to the current node. -/
structure PlainSession where
  language : Language
  order : FieldOrder
  text : Option String
  indices : Option (List Nat)

namespace PlainSession

def start (language : Language) (order : FieldOrder) : PlainSession :=
  ⟨language, order, none, none⟩

/-- Parses a text, also if it was parsed last. No node is current in a new text. -/
def refresh (plain : PlainSession) (text : String) : Except ParseFailure (PlainSession × Tree) :=
  (plain.language.parse 0 text).value.map fun tree =>
    if plain.text = some text then (plain, tree)
    else ({ plain with text := some text, indices := none }, tree)

/-- A session for a single command. It starts from the node that the indices lead to. -/
def resume (plain : PlainSession) (tree : Tree) : Session :=
  { Session.start plain.language plain.order with current := plain.indices.bind tree.pathAt? }

/-- Remembers where a session is. -/
def suspend (plain : PlainSession) (tree : Tree) (session : Session) : PlainSession :=
  { plain with indices := session.current.bind fun path => (path.indices tree).toOption }

def respond (plain : PlainSession) (view : View) : Event → Reply PlainSession
  | .execute command =>
    match plain.refresh view.text with
    | .error failure => ⟨some (.error (.ofParseFailure failure)), plain, view⟩
    | .ok (plain, tree) =>
      let turn := ((plain.resume tree).perform tree command view).value
      ⟨some turn.result, plain.suspend tree turn.session, turn.view⟩
  | .reposition anchor head => ⟨none, { plain with indices := none }, { view with anchor, head }⟩
  | .edit changed => ⟨none, plain, changed⟩

end PlainSession

namespace Session

variable {id : TreeId} {session other : Session} {tree : Tree}

private theorem origin_belongsTo {cursor : Span} {path : Path}
    (belongs : ∀ path, session.current = some path → path.belongsTo tree = true)
    (found : (session.origin ⟨tree, session.order⟩ cursor).value = some path) :
    path.belongsTo tree = true := by
  unfold origin at found
  cases current : session.current with
  | some start =>
    rw [current] at found
    cases found
    exact belongs path current
  | none =>
    rw [current] at found
    obtain ⟨node, leads⟩ := Tree.locate?_genuine found
    exact leads.belongsTo

/-- Two sessions are at the same place, in trees that differ in their identity. -/
structure Alike (id : TreeId) (session other : Session) : Prop where
  order : other.order = session.order
  current : other.current = session.current.map (Path.withId id)

/-- Two turns look the same and end at the same place, in trees that differ in their identity. -/
structure TurnsAlike (id : TreeId) (turn other : Turn) : Prop where
  result : other.result = turn.result
  view : other.view = turn.view
  sessions : Alike id turn.session other.session

namespace Alike

variable (alike : Alike id session other)

include alike

private theorem navigator : (⟨tree.withId id, other.order⟩ : Navigator) =
    Navigator.withId id ⟨tree, session.order⟩ := by
  rw [alike.order]
  rfl

private theorem origin (cursor : Span) :
    (other.origin ⟨tree.withId id, other.order⟩ cursor).value =
      (session.origin ⟨tree, session.order⟩ cursor).value.map (Path.withId id) := by
  rw [alike.navigator]
  unfold Session.origin
  rw [alike.current]
  cases session.current with
  | some path => rfl
  | none => exact Navigator.locate_withId id _ cursor

private theorem settle (command : Command) (view : View) (path : Path) :
    TurnsAlike id (session.settle tree command view path)
      (other.settle (tree.withId id) command view (path.withId id)) := by
  have same : (tree.withId id).lookup path.node = tree.lookup path.node := rfl
  unfold Session.settle
  rw [Path.withId_node, same]
  cases tree.lookup path.node with
  | error defect => exact ⟨rfl, rfl, alike⟩
  | ok node => exact ⟨rfl, rfl, alike.order, rfl⟩

private theorem remove (view : View) (removal : Removal) :
    TurnsAlike id (session.remove view removal).value
      (other.remove view (removal.withId id)).value := by
  have same : (removal.withId id).apply view.text = removal.apply view.text := rfl
  unfold Session.remove
  rw [same]
  cases removal.apply view.text with
  | none => exact ⟨rfl, rfl, alike⟩
  | some text => exact ⟨rfl, rfl, alike.order, rfl⟩

variable (belongs : ∀ path, session.current = some path → path.belongsTo tree = true)

include belongs

private theorem seekBeside (direction : Direction) (cursor : Span) :
    (other.seekBeside ⟨tree.withId id, other.order⟩ direction cursor).value =
      (session.seekBeside ⟨tree, session.order⟩ direction cursor).value.map
        (Option.map (Path.withId id)) := by
  simp only [Session.seekBeside, Noted.value_bind, alike.origin cursor]
  cases found : (session.origin ⟨tree, session.order⟩ cursor).value with
  | none => rfl
  | some path =>
    have inside := origin_belongsTo belongs found
    rw [alike.navigator]
    exact Navigator.step_withId id ⟨tree, session.order⟩ inside direction

/-- Commands lead to the same place. -/
theorem seek (command : Command) (cursor : Span) :
    (other.seek ⟨tree.withId id, other.order⟩ command cursor).value =
      (session.seek ⟨tree, session.order⟩ command cursor).value.map (Option.map (Path.withId id)) := by
  cases command with
  | select =>
    rw [alike.navigator]
    exact congrArg Except.ok (Navigator.locate_withId id _ cursor)
  | expand =>
    have expanded := Navigator.expand_withId id ⟨tree, session.order⟩ cursor belongs
    rw [← alike.current] at expanded
    rw [alike.navigator]
    simp only [Session.seek, Noted.value_bind, Navigator.value_notedExpand, expanded]
    rfl
  | shrink =>
    rw [alike.navigator]
    unfold Session.seek
    rw [alike.current]
    cases current : session.current with
    | none => rfl
    | some path => exact Navigator.shrink_withId id ⟨tree, session.order⟩ (belongs path current)
  | next => exact alike.seekBeside belongs .forward cursor
  | prev => exact alike.seekBeside belongs .backward cursor
  | top =>
    have raised (path : Path) :
        Navigator.topLevel (path.withId id) = (Navigator.topLevel path).withId id := by
      rw [Navigator.topLevel_eq_drop, Navigator.topLevel_eq_drop]
      rfl
    simp only [Session.seek, Noted.value_bind, alike.origin cursor]
    cases (session.origin ⟨tree, session.order⟩ cursor).value with
    | none => rfl
    | some path => exact congrArg (fun top => Except.ok (some top)) (raised path)
  | cut => rfl

private theorem move (command : Command) (view : View) :
    TurnsAlike id (session.move tree command view).value
      (other.move (tree.withId id) command view).value := by
  simp only [Session.move, Noted.value_bind, alike.seek belongs]
  cases (session.seek ⟨tree, session.order⟩ command (.point view.cursor)).value with
  | error defect => exact ⟨rfl, rfl, alike⟩
  | ok target =>
    cases target with
    | none => exact ⟨rfl, rfl, alike⟩
    | some path => exact alike.settle command view path

private theorem removalTarget (view : View) :
    other.removalTarget view = (session.removalTarget view).withId id ∧
      (session.removalTarget view).BelongsTo tree := by
  unfold Session.removalTarget
  rw [alike.current]
  cases current : session.current with
  | none => exact ⟨rfl, trivial⟩
  | some path => exact ⟨rfl, belongs path current⟩

private theorem cut (view : View) :
    TurnsAlike id (session.cut tree view).value (other.cut (tree.withId id) view).value := by
  obtain ⟨target, inside⟩ := alike.removalTarget belongs view
  have planned := Navigator.plan_withId id ⟨tree, session.order⟩ inside
  simp only [Session.cut, Noted.value_bind, Navigator.value_notedPlan, target, alike.navigator, planned]
  cases Navigator.plan ⟨tree, session.order⟩ (session.removalTarget view) with
  | error defect => exact ⟨rfl, rfl, alike⟩
  | ok removal =>
    cases removal with
    | none => exact ⟨rfl, rfl, alike⟩
    | some removal => exact alike.remove view removal

/-- Every command does the same in the same place. -/
theorem perform (command : Command) (view : View) :
    TurnsAlike id (session.perform tree command view).value
      (other.perform (tree.withId id) command view).value := by
  unfold Session.perform
  split
  · exact alike.cut belongs view
  · exact alike.move belongs command view

end Alike

def indices? (session : Session) : Option (List Nat) :=
  session.parsed.bind fun parsed => session.current.bind fun path => (path.indices parsed.tree).toOption

/-- Commands keep the text parsed last, once it is that of the view. -/
theorem Ending.parsed_kept {view : View} {turn : Turn} (ending : Ending session view turn) :
    turn.session.parsed = session.parsed ∧ turn.session.order = session.order := by
  cases ending <;> exact ⟨rfl, rfl⟩

/-- A plain session of a language remembers the text that a session of it keeps, and the indices of the
current node. -/
structure Mirrors (language : Language) (session : Session) (plain : PlainSession) : Prop where
  sound : session.Sound (· = language)
  language : plain.language = language
  order : plain.order = session.order
  text : plain.text = session.parsed.map (·.text)
  indices : plain.indices = session.indices?

namespace Mirrors

variable {language : Language} {plain : PlainSession} {text : String}

/-- Both sessions start with nothing parsed and no current node. -/
theorem start (language : Language) (order : FieldOrder) :
    Mirrors language (.start language order) (.start language order) where
  sound := ⟨rfl, nofun, nofun⟩
  language := rfl
  order := rfl
  text := rfl
  indices := rfl

variable (mirrors : Mirrors language session plain)

include mirrors

private theorem unset : Mirrors language { session with current := none } { plain with indices := none } where
  sound := ⟨mirrors.sound.language, mirrors.sound.parsed, nofun⟩
  language := mirrors.language
  order := mirrors.order
  text := mirrors.text
  indices := by
    unfold indices?
    cases session.parsed <;> rfl

/-- Going down along the indices leads to the current node. -/
theorem resume (known : session.parsed = some ⟨text, tree⟩) (built : tree.Built) (id : TreeId) :
    Alike id session (plain.resume (tree.withId id)) := by
  refine ⟨mirrors.order, ?_⟩
  simp only [PlainSession.resume, mirrors.indices, indices?, known, Option.bind_some]
  cases current : session.current with
  | none => rfl
  | some path =>
    have genuine := mirrors.sound.current_genuine known current
    obtain ⟨indices, found, back⟩ := genuine.pathAt?_indices built
    simp only [Option.bind_some, found, Except.toOption, Tree.pathAt?_withId, back, Option.map_some]

/-- A command carried out in the tree of the text does the same, and leaves the sessions related. -/
theorem perform {command : Command} {view : View} (known : session.parsed = some ⟨text, tree⟩)
    (built : tree.Built) (id : TreeId) :
    let turn := (session.perform tree command view).value
    let other := ((plain.resume (tree.withId id)).perform (tree.withId id) command view).value
    TurnsAlike id turn other ∧
      Mirrors language turn.session (plain.suspend (tree.withId id) other.session) := by
  intro turn other
  have belongs (path : Path) (current : session.current = some path) : path.belongsTo tree = true := by
    obtain ⟨node, leads⟩ := mirrors.sound.current_genuine known current
    exact leads.belongsTo
  have alike : TurnsAlike id turn other :=
    (mirrors.resume known built id).perform belongs command view
  obtain ⟨parsedKept, orderKept⟩ := (perform_ending session tree command view).parsed_kept
  have knownAfter : turn.session.parsed = some ⟨text, tree⟩ := parsedKept.trans known
  refine ⟨alike, ?_⟩
  constructor
  · exact (mirrors.sound.perform known built.coherent command view).1
  · exact mirrors.language
  · exact mirrors.order.trans orderKept.symm
  · exact mirrors.text.trans (congrArg _ parsedKept.symm)
  · simp only [PlainSession.suspend, indices?, knownAfter, alike.sessions.current, Option.bind_some,
      Option.bind_map, Function.comp_def, Path.withId_indices]

variable (builds : language.Builds) (uniform : language.Uniform)

include uniform

/-- A plain session arrives at the same tree as a session, up to its identity. -/
theorem refresh {after : Session} {view : View}
    (refreshed : (session.refresh view.text).value = .ok after)
    (known : after.parsed = some ⟨view.text, tree⟩) :
    ∃ plainAfter, plain.refresh view.text = .ok (plainAfter, tree.withId 0) ∧
      Mirrors language after plainAfter := by
  have soundAfter := mirrors.sound.refresh refreshed
  obtain ⟨_, id, rfl, parsed⟩ := soundAfter.parsed _ known
  have again : (plain.language.parse 0 view.text).value = .ok (tree.withId 0) := by
    rw [mirrors.language, uniform id 0 view.text, parsed]
    rfl
  by_cases old : session.parsed.map (·.text) = some view.text
  · have same : after = session := refresh_kept old refreshed
    refine ⟨plain, ?_, same ▸ mirrors⟩
    rw [PlainSession.refresh, again, mirrors.text, old]
    simp only [Except.map, if_pos]
  · obtain ⟨_, -, rfl⟩ := refresh_new old refreshed
    refine ⟨{ plain with text := some view.text, indices := none }, ?_, ?_⟩
    · rw [PlainSession.refresh, again, mirrors.text]
      simp only [Except.map, if_neg old]
    · exact ⟨soundAfter, mirrors.language, mirrors.order, rfl, rfl⟩

include builds

private theorem execute (command : Command) (view : View) :
    let reply := session.respond view (.execute command)
    let other := plain.respond view (.execute command)
    other.answer = reply.answer ∧ other.view = reply.view ∧
      Mirrors language reply.state other.state := by
  rcases session.execute_cases command view with
    ⟨failure, failed, result⟩ | ⟨after, tree, refreshed, known, result⟩
  · have failedAgain : plain.refresh view.text = .error failure := by
      rw [mirrors.sound.language] at failed
      rw [PlainSession.refresh, mirrors.language, uniform session.parses 0 view.text, failed]
      rfl
    simp only [Session.respond, PlainSession.respond, result, failedAgain]
    exact ⟨trivial, trivial, mirrors⟩
  · obtain ⟨plainAfter, refreshedAgain, mirrorsAfter⟩ := mirrors.refresh uniform refreshed known
    obtain ⟨_, id, rfl, parsed⟩ := mirrorsAfter.sound.parsed _ known
    obtain ⟨alike, mirrorsLast⟩ := mirrorsAfter.perform known (builds id _ tree parsed) 0
    simp only [Session.respond, PlainSession.respond, result, refreshedAgain]
    exact ⟨congrArg some alike.result, alike.view, mirrorsLast⟩

/-- Related sessions answer every event alike and stay related. -/
theorem respond (view : View) (event : Event) :
    let reply := session.respond view event
    let other := plain.respond view event
    other.answer = reply.answer ∧ other.view = reply.view ∧
      Mirrors language reply.state other.state := by
  cases event with
  | execute command => exact mirrors.execute builds uniform command view
  | reposition anchor head => exact ⟨rfl, rfl, mirrors.unset⟩
  | edit changed => exact ⟨rfl, rfl, mirrors⟩

private theorem observations_eq (view : View) (events : List Event) :
    observations PlainSession.respond plain view events =
      observations Session.respond session view events := by
  induction events generalizing session plain view with
  | nil => rfl
  | cons event events ih =>
    obtain ⟨answer, sameView, mirrorsAfter⟩ := mirrors.respond builds uniform view event
    rw [observations, observations, answer, sameView, ih mirrorsAfter]

end Mirrors

/-- Whatever commands, repositionings and changes from outside follow each other, a session answers and
shows the same after each of them as a plain session, which keeps neither tree nor path. -/
theorem tree_and_path_are_unobservable (language : Language) (order : FieldOrder)
    (builds : language.Builds) (uniform : language.Uniform) (view : View) (events : List Event) :
    observations Session.respond (.start language order) view events =
      observations PlainSession.respond (.start language order) view events := by
  have mirrors := Mirrors.start language order
  exact (mirrors.observations_eq builds uniform view events).symm

end Session

private theorem Builder.finish_withId (builder : Builder) (root : NodeId) (id other : TreeId) :
    builder.finish other root = (builder.finish id root).map fun tree => tree.withId other := by
  unfold finish
  split <;> rfl

/-- The trees of scripts are made by a builder. -/
theorem Script.language_builds : Script.language.Builds :=
  fun _ _ _ parsed => (toTree_spec parsed).2

/-- Scripts are parsed alike every time. -/
theorem Script.language_uniform : Script.language.Uniform := by
  intro id other source
  have same (tree : TreeId) : (language.parse tree source).value = toTree tree source := rfl
  rw [same, same, toTree_eq, toTree_eq]
  cases parse source with
  | error error => rfl
  | ok draft =>
    simp only [Draft.toTree, bind, Except.bind]
    cases Draft.plant makingOrder draft .empty with
    | error defect => rfl
    | ok planted =>
      simp only [planted.2.finish_withId planted.1 id other]
      cases planted.2.finish id planted.1 <;> rfl

/-- A cut behind an outside change of the text, from a node found by its indices. -/
theorem Session.argument_run_is_unobservable :
    let view : View := ⟨"f(a, b)", ⟨1, 2⟩, ⟨1, 2⟩⟩
    let events : List Event := [.execute .select, .execute .next, .execute .cut, .execute .select,
      .edit ⟨"g(", ⟨1, 0⟩, ⟨1, 0⟩⟩, .execute .expand, .reposition ⟨1, 1⟩ ⟨1, 2⟩]
    Script.language.Builds ∧ Script.language.Uniform ∧
    observations Session.respond (.start Script.language .bundled) view events =
      observations PlainSession.respond (.start Script.language .bundled) view events := by
  intro view events
  have builds := Script.language_builds
  have uniform := Script.language_uniform
  exact ⟨builds, uniform, tree_and_path_are_unobservable _ _ builds uniform view events⟩

end SyntaxNav

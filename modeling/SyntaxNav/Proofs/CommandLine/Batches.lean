import SyntaxNav.CommandLine.Run

/-! # Batches of commands

A stage is a session with the view it is shown. Commands take it from one stage to the next, each with
a turn, whether or not the command succeeds; so what commands do is a fold over all of them, and does
not know of a batch that ends early.

A batch is such a fold up to the first command that fails: `batch_of_succeeds` says what it leaves
behind if there is none, `batch_of_fails` what if there is one, and `succeeds_or_fails` that there is
no third case.
-/

namespace SyntaxNav.CommandLine

/-- A session and the view it is shown. -/
structure Stage where
  session : Session
  view : View

namespace Stage

def turn (stage : Stage) (command : Command) : Turn :=
  (stage.session.execute command stage.view).value

/-- The stage after a command, whether or not the command succeeds. -/
def next (stage : Stage) (command : Command) : Stage :=
  ⟨(stage.turn command).session, (stage.turn command).view⟩

def last (stage : Stage) (commands : List Command) : Stage :=
  commands.foldl next stage

def turns (stage : Stage) : List Command → List Turn
  | [] => []
  | command :: rest => stage.turn command :: (stage.next command).turns rest

/-- Every command succeeds. -/
def Succeeds (stage : Stage) (commands : List Command) : Prop :=
  ∀ turn ∈ stage.turns commands, ∃ outcome, turn.result = .ok outcome

/-- Some command deletes text. -/
def Cuts (stage : Stage) (commands : List Command) : Prop :=
  ∃ turn ∈ stage.turns commands, ∃ deleted cursor, turn.result = .ok (.cut deleted cursor)

/-- The commands before one succeed, and that one fails. -/
structure FailsAt (stage : Stage) (before : List Command) (command : Command) (error : SessionError) :
    Prop where
  succeeds : stage.Succeeds before
  fails : ((stage.last before).turn command).result = .error error

/-- The line about the turn of a command. There is none if the command fails. -/
def line (json : Bool) (command : Command) (turn : Turn) : String :=
  match turn.result with
  | .ok outcome => Done.line ⟨command, outcome, turn.view⟩ json
  | .error _ => ""

def lines (stage : Stage) (json : Bool) (commands : List Command) : String :=
  String.join (List.zipWith (line json) commands (stage.turns commands))

def batch (stage : Stage) (commands : List Command) : Batch :=
  (runBatch stage.session stage.view commands).value

variable {stage : Stage} {command : Command} {before rest commands : List Command} {outcome : Outcome}
  {error : SessionError}

private theorem lines_cons (json : Bool) :
    stage.lines json (command :: rest) =
      line json command (stage.turn command) ++ (stage.next command).lines json rest :=
  String.join_cons

private theorem succeeds_cons :
    stage.Succeeds (command :: rest) ↔
      (∃ outcome, (stage.turn command).result = .ok outcome) ∧ (stage.next command).Succeeds rest :=
  List.forall_mem_cons

private theorem cuts_cons :
    stage.Cuts (command :: rest) ↔
      (∃ deleted cursor, (stage.turn command).result = .ok (.cut deleted cursor)) ∨
        (stage.next command).Cuts rest := by
  simp only [Cuts, turns, List.mem_cons, exists_eq_or_imp]

/-- A command that succeeds comes in front of what the rest of a batch does. -/
theorem batch_cons_of_ok (ok : (stage.turn command).result = .ok outcome) :
    stage.batch (command :: rest) =
      { (stage.next command).batch rest with
        done := ⟨command, outcome, (stage.turn command).view⟩ ::
          ((stage.next command).batch rest).done } := by
  rw [turn] at ok
  rw [batch, runBatch, Noted.value_bind, ok]
  rfl

/-- A command that fails ends a batch. -/
theorem batch_cons_of_error (failed : (stage.turn command).result = .error error) :
    stage.batch (command :: rest) = ⟨[], some error, (stage.turn command).view⟩ := by
  rw [turn] at failed
  rw [batch, runBatch, Noted.value_bind, failed]
  rfl

private theorem line_of_ok (json : Bool) (ok : (stage.turn command).result = .ok outcome) :
    line json command (stage.turn command) =
      Done.line ⟨command, outcome, (stage.turn command).view⟩ json := by
  rw [line, ok]

private theorem output_cons_of_ok (json : Bool) (ok : (stage.turn command).result = .ok outcome) :
    (stage.batch (command :: rest)).output json =
      line json command (stage.turn command) ++ ((stage.next command).batch rest).output json := by
  rw [batch_cons_of_ok ok, line_of_ok json ok]
  exact String.join_cons

private theorem isEdited_cons_of_ok (ok : (stage.turn command).result = .ok outcome) :
    (stage.batch (command :: rest)).isEdited =
      (outcome.isCut || ((stage.next command).batch rest).isEdited) := by
  rw [batch_cons_of_ok ok]
  exact List.any_cons

private theorem isCut_iff : outcome.isCut = true ↔ ∃ deleted cursor, outcome = .cut deleted cursor := by
  cases outcome <;> simp [Outcome.isCut]

/-- Without a failure a batch ends where the fold over its commands does. -/
theorem batch_of_succeeds (json : Bool) (succeeds : stage.Succeeds commands) :
    (stage.batch commands).error = none ∧ (stage.batch commands).view = (stage.last commands).view ∧
      (stage.batch commands).output json = stage.lines json commands ∧
      ((stage.batch commands).isEdited = true ↔ stage.Cuts commands) := by
  induction commands generalizing stage with
  | nil => exact ⟨rfl, rfl, rfl, by simp [batch, runBatch, Batch.isEdited, Cuts, turns]⟩
  | cons command rest ih =>
    obtain ⟨⟨outcome, ok⟩, later⟩ := succeeds_cons.mp succeeds
    obtain ⟨ended, view, output, edited⟩ := ih later
    have cut : outcome.isCut = true ↔
        ∃ deleted cursor, (stage.turn command).result = .ok (.cut deleted cursor) := by
      rw [isCut_iff, ok]
      simp only [Except.ok.injEq]
    refine ⟨?_, ?_, ?_, ?_⟩
    · rw [batch_cons_of_ok ok, ended]
    · rw [batch_cons_of_ok ok, view]
      rfl
    · rw [output_cons_of_ok json ok, output, lines_cons]
    · rw [isEdited_cons_of_ok ok, Bool.or_eq_true, cut, edited, cuts_cons]

/-- A batch ends at the first failure, and has printed what was done before. -/
theorem batch_of_fails (json : Bool) (rest : List Command) (fails : stage.FailsAt before command error) :
    (stage.batch (before ++ command :: rest)).error = some error ∧
      (stage.batch (before ++ command :: rest)).output json = stage.lines json before := by
  induction before generalizing stage with
  | nil =>
    have failed : (stage.turn command).result = .error error := fails.fails
    rw [List.nil_append, batch_cons_of_error failed]
    exact ⟨rfl, rfl⟩
  | cons first others ih =>
    obtain ⟨⟨outcome, ok⟩, later⟩ := succeeds_cons.mp fails.succeeds
    obtain ⟨ended, output⟩ := ih ⟨later, fails.fails⟩
    rw [List.cons_append]
    refine ⟨?_, ?_⟩
    · rw [batch_cons_of_ok ok, ended]
    · rw [output_cons_of_ok json ok, output, lines_cons]

/-- If not every command succeeds, there is a first one that fails. -/
theorem succeeds_or_fails (stage : Stage) (commands : List Command) :
    stage.Succeeds commands ∨ ∃ before command rest error,
      commands = before ++ command :: rest ∧ stage.FailsAt before command error := by
  induction commands generalizing stage with
  | nil => exact .inl fun turn member => absurd member List.not_mem_nil
  | cons command rest ih =>
    cases result : (stage.turn command).result with
    | error error =>
      refine .inr ⟨[], command, rest, error, rfl, ?_, result⟩
      exact fun turn member => absurd member List.not_mem_nil
    | ok outcome =>
      rcases ih (stage.next command) with succeeds | ⟨before, failing, after, error, split, fails⟩
      · exact .inl (succeeds_cons.mpr ⟨⟨outcome, result⟩, succeeds⟩)
      · refine .inr ⟨command :: before, failing, after, error, congrArg (command :: ·) split, ?_, fails.fails⟩
        exact succeeds_cons.mpr ⟨⟨outcome, result⟩, fails.succeeds⟩

end Stage

end SyntaxNav.CommandLine

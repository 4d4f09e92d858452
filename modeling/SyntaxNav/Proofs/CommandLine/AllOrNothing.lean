import SyntaxNav.Proofs.CommandLine.Batches
import SyntaxNav.Proofs.CommandLine.Flags
import SyntaxNav.Proofs.CommandLine.Preparation

/-! # All or nothing

A job that is to write its file writes it with one call, after all commands, or leaves it alone. What is
printed and written is told by the stage that the commands start from and by nothing else: `Job.AllOrNothing`
lists what follows from it. The journal is the one other file that a job changes, so it must not be the file
of the job; `Job.JournalApart` says so of the disk that the job finds.

Nothing depends on how arguments are read, except that flags are set by their options, or on files that do
not fail: the one call that writes the file may be refused or break off, and then the job fails.
-/

namespace SyntaxNav.CommandLine

open Disk (ChangedAt)

/-! ### Conclusions -/

section Concluding

variable {files : Files (StateM Disk)} {job : Job} {file : String} {batch : Batch} {disk : Disk}

private theorem conclude_of_error {error : SessionError} (ended : batch.error = some error) :
    (conclude files job file batch).run disk =
      (.failure (batch.output job.json) (.session error), disk) := by
  simp only [conclude, ended]
  rfl

private theorem conclude_of_unedited (ended : batch.error = none) (unedited : ¬ batch.isEdited = true) :
    (conclude files job file batch).run disk = (.success (batch.output job.json), disk) := by
  simp only [conclude, ended, unedited]
  rfl

private theorem conclude_of_printed (ended : batch.error = none) (edited : batch.isEdited = true)
    (unwritten : ¬ job.write = true) :
    (conclude files job file batch).run disk =
      (.success (batch.output job.json ++ editedOutput batch.view.text job.json), disk) := by
  simp only [conclude, ended, edited, unwritten]
  rfl

/-- The file is written with one call, which settles whether the job succeeds. -/
theorem conclude_of_written (ended : batch.error = none) (edited : batch.isEdited = true)
    (written : job.write = true) :
    (conclude files job file batch).run disk =
      (match ((files.write file batch.view.text).run disk).1 with
        | .ok () => .success (batch.output job.json)
        | .error error => .failure (batch.output job.json) (.file file error),
      ((files.write file batch.view.text).run disk).2) := by
  simp only [conclude, ended, edited, written, Bool.not_true, Bool.false_eq_true, if_false, if_true,
    StateT.run_bind]
  cases (files.write file batch.view.text).run disk with
  | mk result after =>
    cases result with
    | ok _ => rfl
    | error error => rfl

end Concluding

namespace Job

def stage (job : Job) (order : FieldOrder) (source : String) : Stage :=
  ⟨.start Script.language order, ⟨source, job.anchor.getD job.cursor, job.cursor⟩⟩

section AllOrNothing

variable (job : Job) (files : Files (StateM Disk)) (disk : Disk)

/-- Nothing is written but the journal. -/
def Unwritten (after : Disk) : Prop :=
  ∀ path, (∀ place, Journal.FileAt disk (job.journalFile files disk) place → disk.resolve path ≠ .ok place) →
    after.content? path = disk.content? path

/-- What a job leaves behind that works on a file and whose commands start from a stage. -/
structure AllOrNothing (file : String) (stage : Stage) (report : Report) (after : Disk) : Prop where
  /-- The file changes only if it is to be written, every command succeeds and some text is cut. -/
  changes : after.content? file ≠ disk.content? file →
    job.write = true ∧ stage.Succeeds job.commands ∧ stage.Cuts job.commands
  /-- Then the text that all commands together leave is written with one call, when nothing but the journal
  has been written yet. The call succeeds on files that fail only where they must. If it does, so does the
  job, and the file holds the text. If the call is refused or breaks off, the job fails, and nothing is
  written or some first bytes of the text are. -/
  writes : job.write = true → stage.Succeeds job.commands → stage.Cuts job.commands →
    ∃ journaled result, job.Unwritten files disk journaled ∧
      (files.write file (stage.last job.commands).view.text).run journaled = (result, after) ∧
      (files = Disk.files → result = .ok ()) ∧
      (result = .ok () → report = ⟨0, stage.lines job.json job.commands, ""⟩ ∧
        after.content? file = some (.text (stage.last job.commands).view.text)) ∧
      ∀ error, result = .error error →
        report = ⟨1, stage.lines job.json job.commands,
          "structnav: " ++ ("Failed to access " ++ file ++ ": " ++ error.message) ++ "\n"⟩ ∧
        (job.Unwritten files disk after ∨ ∃ count, after.content? file =
          some (.ofBytes ((stage.last job.commands).view.text.toUTF8.extract 0 count)))
  /-- A command that fails ends the job after what the commands before it have printed. -/
  fails : ∀ before command rest error, job.commands = before ++ command :: rest →
    stage.FailsAt before command error →
      report = ⟨1, stage.lines job.json before, "structnav: " ++ error.message ++ "\n"⟩ ∧
        job.Unwritten files disk after
  /-- A text that is cut and not to be written is printed behind the lines of the commands. -/
  prints : job.write = false → stage.Succeeds job.commands → stage.Cuts job.commands →
    report = ⟨0, stage.lines job.json job.commands ++
      editedOutput (stage.last job.commands).view.text job.json, ""⟩
  /-- Where no text is cut, only the lines of the commands are printed. -/
  keeps : stage.Succeeds job.commands → ¬ stage.Cuts job.commands →
    report = ⟨0, stage.lines job.json job.commands, ""⟩

end AllOrNothing

variable {job : Job} {files : Files (StateM Disk)} {file : String} {stage : Stage} {disk later : Disk}

private theorem unwritten_of_changed
    (changed : ChangedAt (Journal.FileAt disk (job.journalFile files disk)) disk later) :
    job.Unwritten files disk later :=
  fun _ apart => changed.content?_eq apart

/-- Only text that is to be written, and that no failure stands against, is written. -/
theorem conclude_unwritten
    (spared : ¬ (job.write = true ∧ stage.Succeeds job.commands ∧ stage.Cuts job.commands)) :
    ((conclude files job file (stage.batch job.commands)).run later).2 = later := by
  rcases stage.succeeds_or_fails job.commands with succeeds | ⟨before, command, rest, error, split, fails⟩
  · obtain ⟨ended, -, -, edited⟩ := Stage.batch_of_succeeds job.json succeeds
    by_cases cuts : stage.Cuts job.commands
    · have unwritten : ¬ job.write = true := fun write => spared ⟨write, succeeds, cuts⟩
      rw [conclude_of_printed ended (edited.mpr cuts) unwritten]
    · rw [conclude_of_unedited ended fun cut => cuts (edited.mp cut)]
  · obtain ⟨ended, -⟩ := Stage.batch_of_fails job.json rest fails
    rw [← split] at ended
    rw [conclude_of_error ended]

/-- The conclusion of a job whose journal has been written. -/
theorem allOrNothing_of_changed (onDisk : files.OnDisk) (apart : job.JournalApart files disk)
    (named : job.file = some file) {source : String} (read : disk.readText file = .ok source)
    (changed : ChangedAt (Journal.FileAt disk (job.journalFile files disk)) disk later) :
    job.AllOrNothing files disk file stage
      ((conclude files job file (stage.batch job.commands)).run later).1
      ((conclude files job file (stage.batch job.commands)).run later).2 where
  changes differs := by
    refine Classical.byContradiction fun spared => ?_
    rw [conclude_unwritten spared] at differs
    exact differs (changed.content?_eq (apart file named))
  writes write succeeds cuts := by
    obtain ⟨ended, view, output, edited⟩ := Stage.batch_of_succeeds job.json succeeds
    rw [conclude_of_written ended (edited.mpr cuts) write, output, view]
    have written := onDisk.write file (stage.last job.commands).view.text later
    cases wrote : (files.write file (stage.last job.commands).view.text).run later with
    | mk result after =>
      rw [wrote] at written
      refine ⟨later, result, unwritten_of_changed changed, wrote, ?_, ?_, ?_⟩
      · rintro rfl
        obtain ⟨place, opens, -⟩ := Disk.opens_of_readText read
        have through := Disk.run_attempt_of_opens (changed.opens opens)
          fun _ => .text (stage.last job.commands).view.text
        exact (Prod.mk.inj (wrote.symm.trans through)).1
      · rintro rfl
        exact ⟨rfl, written.content?_of_ok⟩
      · rintro error rfl
        refine ⟨rfl, written.content?_of_error.imp_left ?_⟩
        rintro rfl
        exact unwritten_of_changed changed
  fails before command rest error split fails := by
    obtain ⟨ended, output⟩ := Stage.batch_of_fails job.json rest fails
    rw [← split] at ended output
    rw [conclude_of_error ended, output]
    exact ⟨rfl, unwritten_of_changed changed⟩
  prints write succeeds cuts := by
    obtain ⟨ended, view, output, edited⟩ := Stage.batch_of_succeeds job.json succeeds
    rw [conclude_of_printed ended (edited.mpr cuts) (Bool.eq_false_iff.mp write), output, view]
    rfl
  keeps succeeds uncut := by
    obtain ⟨ended, view, output, edited⟩ := Stage.batch_of_succeeds job.json succeeds
    rw [conclude_of_unedited ended (fun cut => uncut (edited.mp cut)), output]
    rfl

end Job

/-! ### Runs -/

section Runs

variable {files : Files (StateM Disk)} {job : Job} {disk middle : Disk}

private theorem navigate_of_error {failure : Failure}
    (failed : (prepare files job).run.run disk = (.error failure, middle)) :
    (job.navigate files).run disk = (.failure "" failure, middle) := by
  simp only [Job.navigate, StateT.run_bind, failed]
  rfl

private theorem navigate_of_ok {prepared : Prepared}
    (ready : (prepare files job).run.run disk = (.ok prepared, middle)) :
    ∃ notes, (job.navigate files).run disk =
      (conclude files job prepared.file
        ((job.stage prepared.order prepared.source).batch job.commands)).run
        ((prepared.journal.pushAll files notes).run middle).2 := by
  simp only [Job.navigate, StateT.run_bind, ready]
  exact ⟨_, rfl⟩

/-- What a job leaves behind: that of its preparation, if it fails, and else that of its commands. -/
theorem navigate_cases (onDisk : files.OnDisk) (apart : job.JournalApart files disk) :
    (∃ failure, ((prepare files job).run.run disk).1 = .error failure ∧
      ((job.navigate files).run disk).1 = .failure "" failure ∧
      job.Unwritten files disk ((job.navigate files).run disk).2) ∨
    ∃ prepared, ((prepare files job).run.run disk).1 = .ok prepared ∧ job.file = some prepared.file ∧
      disk.readText prepared.file = .ok prepared.source ∧
      job.AllOrNothing files disk prepared.file (job.stage prepared.order prepared.source)
        ((job.navigate files).run disk).1 ((job.navigate files).run disk).2 := by
  obtain ⟨changed, fits⟩ := prepare_leaves onDisk job disk
  cases ran : (prepare files job).run.run disk with
  | mk result middle =>
    rw [ran] at changed fits
    cases result with
    | error failure =>
      rw [navigate_of_error ran]
      exact .inl ⟨failure, rfl, rfl, Job.unwritten_of_changed changed⟩
    | ok prepared =>
      obtain ⟨kept, named, read⟩ := fits prepared rfl
      obtain ⟨notes, ran⟩ := navigate_of_ok ran
      have noted := (prepared.journal.pushAll_changedAt onDisk notes middle).1
      rw [kept] at noted
      rw [ran]
      exact .inr ⟨prepared, rfl, named, read apart,
        Job.allOrNothing_of_changed onDisk apart named (read apart)
          (Journal.changedAt_trans changed noted)⟩

end Runs

/-- However arguments are read, as long as flags are set by their options, and whatever fails on the disk:
arguments are refused, and nothing happens but what the reader of the arguments says; or they ask for the list
of the commands, by an option that stands among them, and nothing changes; or they give a job. A job whose
journal does not go to its file fails before the first command, and then nothing is written; or its commands
are run on the text of the file, and all that they do is printed and written, the latter only if an option
says so, or what comes before the first failure is printed and nothing is written. -/
theorem writes_all_or_nothing (reader : List String → Except Report Job) (set : SetByOptions reader)
    (files : Files (StateM Disk)) (onDisk : files.OnDisk) (words : List String) (disk : Disk) :
    (∃ report, reader words = .error report ∧
      (runWith files reader words).run disk = (report, disk)) ∨
    ∃ job, reader words = .ok job ∧
      ((job.listCommands = true ∧ "--list-commands" ∈ words ∧ (runWith files reader words).run disk =
        (⟨0, String.join (Command.all.map listLine), ""⟩, disk)) ∨
      job.listCommands = false ∧ (job.write = true → "--write" ∈ words) ∧
      (job.JournalApart files disk →
        ∃ report after, (runWith files reader words).run disk = (report, after) ∧
          ((∃ failure, ((prepare files job).run.run disk).1 = .error failure ∧
            report = ⟨1, "", "structnav: " ++ failure.message ++ "\n"⟩ ∧ job.Unwritten files disk after) ∨
          ∃ prepared, ((prepare files job).run.run disk).1 = .ok prepared ∧
            job.file = some prepared.file ∧ disk.readText prepared.file = .ok prepared.source ∧
            job.AllOrNothing files disk prepared.file (job.stage prepared.order prepared.source)
              report after))) := by
  unfold runWith
  cases read : reader words with
  | error report => exact .inl ⟨report, rfl, rfl⟩
  | ok job =>
    refine .inr ⟨job, rfl, ?_⟩
    cases lists : job.listCommands with
    | true =>
      refine .inl ⟨rfl, set.listCommands words job read lists, ?_⟩
      simp only [Job.run, lists, if_true]
      rfl
    | false =>
      refine .inr ⟨rfl, set.write words job read, fun apart => ?_⟩
      simp only [Job.run, lists, Bool.false_eq_true, if_false]
      exact ⟨_, _, rfl, navigate_cases onDisk apart⟩

/-- The same files, except that nothing can be written. -/
def sealedFiles : Files (StateM Disk) :=
  { Disk.files with write := fun _ _ => return .error (.other "Permission denied (os error 13)") }

private theorem sealedFiles_onDisk : sealedFiles.OnDisk :=
  { Disk.files_onDisk with write := fun _ _ _ => .refused _ }

/-- A command that fails after text has been cut leaves the file as it was, and so does a write that is
refused. -/
theorem failure_after_cut_spares_file :
    let disk : Disk := ⟨[(["a.js"], .file (.text "f(a, b);\n"))]⟩
    let reader := fun words => (readArguments words).mapError .refusal
    let job : Job := ⟨some "a.js", [.select, .next, .cut, .next], .origin, none, none, none, false, true, false⟩
    let shorter : Job := { job with commands := [.select, .next, .cut] }
    let lines :=
      "select: Identifier 1:0-1:1\nnext: Identifier 1:2-1:3\ncut: deleted 1:2-1:3, cursor at 1:2\n"
    let report : Report :=
      ⟨1, lines, "structnav: Cannot parse text at 1:2: Expected an expression, found ','.\n"⟩
    let refused : Report :=
      ⟨1, lines, "structnav: Failed to access a.js: Permission denied (os error 13)\n"⟩
    let words := ["--write", "a.js", "select", "next", "cut"]
    SetByOptions reader ∧ Disk.files.OnDisk ∧ sealedFiles.OnDisk ∧
      (∃ order, (runWith Disk.files reader (words ++ ["next"])).run disk = (report, disk) ∧
        job.AllOrNothing Disk.files disk "a.js" (job.stage order "f(a, b);\n") report disk) ∧
      ∃ order, (runWith sealedFiles reader words).run disk = (refused, disk) ∧
        shorter.AllOrNothing sealedFiles disk "a.js" (job.stage order "f(a, b);\n") refused disk := by
  intro disk reader job shorter lines report refused words
  have set : SetByOptions reader := readArguments_setByOptions
  have source : (disk.readText "a.js").toOption = some "f(a, b);\n" := by decide +kernel
  have applied {files : Files (StateM Disk)} (onDisk : files.OnDisk) (words : List String) (job : Job)
      (report : Report) (asks : (reader words).toOption = some job)
      (navigates : job.listCommands = false) (named : job.file = some "a.js")
      (unjournaled : job.journalFile files disk = none)
      (ran : (runWith files reader words).run disk = (report, disk)) (told : report.output ≠ "") :
      ∃ order, (runWith files reader words).run disk = (report, disk) ∧
        job.AllOrNothing files disk "a.js" (job.stage order "f(a, b);\n") report disk := by
    have apart : job.JournalApart files disk := by
      rintro file - place ⟨path, member, -⟩
      rw [unjournaled] at member
      cases member
    rcases writes_all_or_nothing reader set files onDisk words disk with
      ⟨other, read, -⟩ | ⟨other, read, ⟨lists, -⟩ | ⟨-, -, leaves⟩⟩ <;> rw [read] at asks <;> cases asks
    · rw [navigates] at lists
      cases lists
    · obtain ⟨_, _, left, leaves⟩ := leaves apart
      obtain ⟨rfl, rfl⟩ := Prod.mk.inj (ran.symm.trans left)
      rcases leaves with ⟨failure, -, silent, -⟩ | ⟨prepared, -, same, read, leaves⟩
      · exact absurd (congrArg Report.output silent) told
      · rw [← Option.some.inj (named.symm.trans same)] at read leaves
        rw [read] at source
        rw [show prepared.source = "f(a, b);\n" from Option.some.inj source] at leaves
        exact ⟨prepared.order, ran, leaves⟩
  refine ⟨set, Disk.files_onDisk, sealedFiles_onDisk, ?_, ?_⟩
  · refine applied Disk.files_onDisk _ job report ?_ rfl rfl ?_ (Prod.ext ?_ (congrArg Disk.mk ?_)) ?_
    all_goals decide +kernel
  · refine applied sealedFiles_onDisk _ shorter refused ?_ rfl rfl ?_ (Prod.ext ?_ (congrArg Disk.mk ?_)) ?_
    all_goals decide +kernel

end SyntaxNav.CommandLine

import SyntaxNav.CommandLine.Run
import SyntaxNav.Proofs.Journal.Footprint

/-! # Preparing a job

Before its first command a job reads settings, a field order and a source, and sets up the journal, any of
which can fail. `prepare_leaves` says that nothing but the file of the journal changes in any case, so the
source that is handed out is the one that was there, unless the journal went to the same file. The files can
be any operations on a disk (`Files.OnDisk`), as refusals to read or open are failures like others.
-/

namespace SyntaxNav.CommandLine

open Disk (ChangedAt)

/-- An action on a disk changes nothing but some places, as seen from another disk, and what it hands out
has a property. -/
def Leaves {α : Type} (disk : Disk) (places : List String → Prop)
    (action : ExceptT Failure (StateM Disk) α) (before : Disk) (holds : α → Prop) : Prop :=
  ChangedAt places disk (action.run.run before).2 ∧
    ∀ value, (action.run.run before).1 = .ok value → holds value

namespace Leaves

variable {α β ε : Type} {disk before : Disk} {places : List String → Prop}

/-- What follows an action starts where it ended; it is left out if the action fails. -/
theorem bind {action : ExceptT Failure (StateM Disk) α} {next : α → ExceptT Failure (StateM Disk) β}
    {holds : α → Prop} {ensures : β → Prop} (first : Leaves disk places action before holds)
    (later : ∀ value between, ChangedAt places disk between → holds value →
      Leaves disk places (next value) between ensures) :
    Leaves disk places (action >>= next) before ensures := by
  unfold Leaves at first ⊢
  simp only [ExceptT.run_bind, StateT.run_bind]
  cases ran : action.run.run before with
  | mk result middle =>
    rw [ran] at first
    cases result with
    | ok value => exact later value middle first.1 (first.2 value rfl)
    | error failure => exact ⟨first.1, fun value made => by cases made⟩

private theorem pure {value : α} {holds : α → Prop} (changed : ChangedAt places disk before)
    (held : holds value) :
    Leaves disk places (pure value) before holds := by
  refine ⟨changed, fun other made => ?_⟩
  cases made
  exact held

private theorem lift {action : StateM Disk α} {holds : α → Prop}
    (changed : ChangedAt places disk (action.run before).2) (value : holds (action.run before).1) :
    Leaves disk places (ExceptT.lift action) before holds := by
  refine ⟨changed, fun other made => ?_⟩
  cases made
  exact value

private theorem orFail {failure : ε → Failure} {action : StateM Disk (Except ε α)} {holds : α → Prop}
    (changed : ChangedAt places disk (action.run before).2)
    (value : ∀ value, (action.run before).1 = .ok value → holds value) :
    Leaves disk places (orFail failure action) before holds := by
  unfold Leaves CommandLine.orFail
  simp only [ExceptT.run_mk, StateT.run_bind]
  cases ran : action.run before with
  | mk result middle =>
    rw [ran] at changed value
    cases result with
    | ok made =>
      refine ⟨changed, fun other same => ?_⟩
      cases same
      exact value made rfl
    | error error => exact ⟨changed, fun other same => by cases same⟩

end Leaves

def Still {α : Type} (action : StateM Disk α) : Prop :=
  ∀ disk, (action.run disk).2 = disk

namespace Still

variable {α β : Type} {files : Files (StateM Disk)}

private theorem pure (value : α) : Still (pure value) :=
  fun _ => rfl

private theorem bind {action : StateM Disk α} {next : α → StateM Disk β} (first : Still action)
    (later : ∀ value, Still (next value)) : Still (action >>= next) :=
  fun disk => (later (action.run disk).1 (action.run disk).2).trans (first disk)

variable (onDisk : files.OnDisk)

include onDisk

/-- Reading a file for settings or a field order changes nothing. -/
theorem read (path : String) : Still (Settings.read files path) := by
  refine bind (onDisk.readText_still path) fun result => ?_
  cases result <;> exact pure _

private theorem load (path : String) : Still (Settings.load files path) := by
  refine bind (read onDisk path) fun result => ?_
  cases result <;> exact pure _

/-- Looking for settings changes nothing. -/
theorem discover (file : Option String) : Still (Settings.discover files file) := by
  cases file with
  | some path => exact load onDisk path
  | none =>
    refine bind (onDisk.isFile_still Settings.defaultFile) fun found => ?_
    cases found
    · exact pure _
    · exact load onDisk Settings.defaultFile

/-- Reading a field order changes nothing. -/
theorem fieldOrder (settings : Settings) : Still (settings.fieldOrder files) := by
  unfold Settings.fieldOrder
  split
  · exact pure _
  · refine bind (read onDisk _) fun result => ?_
    cases result <;> exact pure _

end Still

namespace Job

/-- The file of the journal, if settings that are found name one. -/
def journalFile (job : Job) (files : Files (StateM Disk)) (disk : Disk) : Option String :=
  match ((Settings.discover files job.settingsFile).run disk).1 with
  | .ok settings => settings.journalFile
  | .error _ => none

/-- The journal does not go to the file that is worked on. -/
def JournalApart (job : Job) (files : Files (StateM Disk)) (disk : Disk) : Prop :=
  ∀ file ∈ job.file, ∀ place, Journal.FileAt disk (job.journalFile files disk) place →
    disk.resolve file ≠ .ok place

end Job

section Preparing

variable {files : Files (StateM Disk)} (onDisk : files.OnDisk) {disk before : Disk} {file : Option String}

include onDisk

/-- Settings set up a journal with their file, and change nothing else. -/
theorem configure_leaves {settings : Settings}
    (changed : ChangedAt (Journal.FileAt disk settings.journalFile) disk before) :
    Leaves disk (Journal.FileAt disk settings.journalFile)
      (orFail .settings (settings.configure files .new)) before
      fun journal => journal.file = settings.journalFile := by
  have configured := Journal.configure_changedAt onDisk .new settings.journalLevel settings.journalFile before
  cases ran : (Journal.new.configure files settings.journalLevel settings.journalFile).run before with
  | mk result after =>
    rw [ran] at configured
    have changed := Journal.changedAt_trans changed configured.1
    cases result with
    | ok journal =>
      have ran : (settings.configure files .new).run before = (.ok journal, after) := by
        simp only [Settings.configure, StateT.run_bind, ran]
        rfl
      refine .orFail ?_ fun value made => ?_
      · rw [ran]
        exact changed
      · rw [ran] at made
        cases made
        exact configured.2 journal rfl
    | error error =>
      have ran : (settings.configure files .new).run before =
          (.error (.file (settings.journalFile.getD "") error), after) := by
        simp only [Settings.configure, StateT.run_bind, ran]
        rfl
      refine .orFail ?_ fun value made => ?_
      · rw [ran]
        exact changed
      · rw [ran] at made
        cases made

variable (changed : ChangedAt (Journal.FileAt disk file) disk before)

include changed

private theorem fieldOrder_leaves (settings : Settings) :
    Leaves disk (Journal.FileAt disk file) (ExceptT.lift (settings.fieldOrder files)) before
      fun _ => True := by
  refine .lift ?_ trivial
  rw [Still.fieldOrder onDisk]
  exact changed

private theorem pushAll_leaves {journal : Journal} (kept : journal.file = file) (entries : List Entry) :
    Leaves disk (Journal.FileAt disk file) (ExceptT.lift (journal.pushAll files entries)) before
      fun noted => noted.file = file := by
  have pushed := journal.pushAll_changedAt onDisk entries before
  rw [kept] at pushed
  exact .lift (Journal.changedAt_trans changed pushed.1) pushed.2

private theorem push_leaves {journal : Journal} (kept : journal.file = file) (entry : Entry) :
    Leaves disk (Journal.FileAt disk file) (ExceptT.lift (journal.push files entry)) before
      fun noted => noted.file = file := by
  have pushed := journal.push_changedAt onDisk entry before
  rw [kept] at pushed
  exact .lift (Journal.changedAt_trans changed pushed) ((journal.push_file files entry before).trans kept)

/-- A text that is read apart from the journal is the text that was there. -/
theorem readText_leaves (path : String) :
    Leaves disk (Journal.FileAt disk file) (orFail (.file path) (files.readText path)) before
      fun text => (∀ place, Journal.FileAt disk file place → disk.resolve path ≠ .ok place) →
        disk.readText path = .ok text := by
  refine .orFail ?_ fun text read apart => ?_
  · rw [onDisk.readText_still]
    exact changed
  · exact changed.readText_eq_ok apart (onDisk.readText path before text read)

end Preparing

/-- Preparing a job changes nothing but the file of the journal, and hands out the source that is there. -/
theorem prepare_leaves {files : Files (StateM Disk)} (onDisk : files.OnDisk) (job : Job) (disk : Disk) :
    Leaves disk (Journal.FileAt disk (job.journalFile files disk)) (prepare files job) disk fun prepared =>
      prepared.journal.file = job.journalFile files disk ∧ job.file = some prepared.file ∧
        (job.JournalApart files disk → disk.readText prepared.file = .ok prepared.source) := by
  have discovers : Leaves disk (Journal.FileAt disk (job.journalFile files disk))
      (orFail .settings (Settings.discover files job.settingsFile)) disk
      fun found => job.journalFile files disk = found.journalFile := by
    refine .orFail ?_ fun found discovered => ?_
    · rw [Still.discover onDisk]
      exact .refl disk
    · rw [Job.journalFile, discovered]
  refine discovers.bind fun found before changed file => ?_
  unfold Job.JournalApart
  rw [file] at changed ⊢
  refine (configure_leaves onDisk changed).bind fun journal before changed kept => ?_
  refine (fieldOrder_leaves onDisk changed _).bind fun order before changed _ => ?_
  refine (pushAll_leaves onDisk changed kept order.notes).bind fun journal before changed kept => ?_
  have accepts : Leaves disk (Journal.FileAt disk found.journalFile)
      (orFail .settings (pure order.value)) before fun _ => True :=
    .orFail changed fun _ _ => trivial
  refine accepts.bind fun order before changed _ => ?_
  have names : Leaves disk (Journal.FileAt disk found.journalFile)
      (orFail id (pure (job.file.elim (.error .noFile) .ok))) before fun file => job.file = some file := by
    refine .orFail changed fun file given => ?_
    cases named : job.file with
    | none =>
      rw [named] at given
      cases given
    | some other =>
      rw [named] at given
      cases given
      rfl
  refine names.bind fun path before changed named => ?_
  refine (readText_leaves onDisk changed path).bind fun source before changed read => ?_
  refine (push_leaves onDisk changed kept _).bind fun journal before changed kept => ?_
  exact .pure changed ⟨kept, named, fun apart => read (apart path named)⟩

end SyntaxNav.CommandLine

import SyntaxNav.Journal.Journal
import SyntaxNav.Proofs.Workspace.Contents

/-! # What a journal touches

Whatever a journal is told to do, nothing on the disk changes but the file that is set for it, and this file
is where it was before: `changedAt_trans` puts one such change behind another. That holds of all operations
on a disk, also of those that fail where they need not.
-/

namespace SyntaxNav.Journal

/-- A file that may be set is at a place. -/
def FileAt (disk : Disk) (file : Option String) (place : List String) : Prop :=
  ∃ path ∈ file, disk.resolve path = .ok place

/-- Where only a file has changed, it is the same file that may change further. -/
theorem changedAt_trans {disk before after : Disk} {file : Option String}
    (changed : Disk.ChangedAt (FileAt disk file) disk before)
    (more : Disk.ChangedAt (FileAt before file) before after) :
    Disk.ChangedAt (FileAt disk file) disk after := by
  refine changed.trans (more.mono fun place found => ?_)
  obtain ⟨path, member, leads⟩ := found
  exact ⟨path, member, changed.resolve_eq_ok_iff.mp leads⟩

/-- Taking an entry leaves the file of the journal set as it was. -/
theorem push_file (files : Files (StateM Disk)) (journal : Journal) (entry : Entry) (disk : Disk) :
    ((journal.push files entry).run disk).1.file = journal.file := by
  unfold push
  split
  · have same : (journal.remember entry).file = journal.file := by simp only [remember]
    exact same
  · rfl

variable {files : Files (StateM Disk)} (onDisk : files.OnDisk)

include onDisk

/-- Nothing but the file of a journal changes when it takes an entry. -/
theorem push_changedAt (journal : Journal) (entry : Entry) (disk : Disk) :
    Disk.ChangedAt (FileAt disk journal.file) disk ((journal.push files entry).run disk).2 := by
  unfold push writeOut
  split
  · split
    · rename_i path file
      refine (onDisk.append path entry.line disk).mono fun place leads => ?_
      exact ⟨path, file, leads⟩
    · exact .refl disk
  · exact .refl disk

/-- Nothing but the file of a journal changes when it takes entries one after another. -/
theorem pushAll_changedAt (journal : Journal) (entries : List Entry) (disk : Disk) :
    Disk.ChangedAt (FileAt disk journal.file) disk ((journal.pushAll files entries).run disk).2 ∧
      ((journal.pushAll files entries).run disk).1.file = journal.file := by
  induction entries generalizing journal disk with
  | nil => exact ⟨.refl disk, rfl⟩
  | cons entry entries ih =>
    have first := push_changedAt onDisk journal entry disk
    have same := push_file files journal entry disk
    obtain ⟨others, file⟩ := ih ((journal.push files entry).run disk).1
      ((journal.push files entry).run disk).2
    rw [same] at others file
    exact ⟨changedAt_trans first others, file⟩

/-- Nothing but the file that is set changes. -/
theorem configure_changedAt (journal : Journal) (least : Level) (file : Option String) (disk : Disk) :
    Disk.ChangedAt (FileAt disk file) disk ((journal.configure files least file).run disk).2 ∧
      ∀ configured, ((journal.configure files least file).run disk).1 = .ok configured →
        configured.file = file := by
  cases file with
  | none =>
    refine ⟨.refl disk, fun configured ran => ?_⟩
    cases ran
    rfl
  | some path =>
    have changed := (onDisk.openToAppend path disk).mono
      fun place leads => (⟨path, rfl, leads⟩ : FileAt disk (some path) place)
    cases opened : (files.openToAppend path).run disk with
    | mk result after =>
      rw [opened] at changed
      simp only [configure, StateT.run_bind, opened]
      cases result with
      | ok _ =>
        refine ⟨changed, fun configured ran => ?_⟩
        cases ran
        rfl
      | error error => exact ⟨changed, fun configured ran => by cases ran⟩

end SyntaxNav.Journal

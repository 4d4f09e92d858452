import SyntaxNav.Journal.Journal
import SyntaxNav.Proofs.Workspace.Contents

/-! # What a journal keeps

Two things happen to a journal: entries are pushed, and its least level and its file are set. `accepted`
says which entries are to be kept and which file each of them goes to, from what happened and the disk at the
start alone. `Sound.take` compares it with what one act does, and `Sound.takeAll` with what a run of acts
does: the journal remembers the latest of the accepted entries, and every file has got the lines of those
that went to it, however many they are.
-/

namespace SyntaxNav

/-- The same files, except that opening one to append to it may fail for a reason from outside. -/
def Files.denying {m : Type → Type} [Monad m] (files : Files m) (denial : Option FileError) : Files m :=
  { files with
    openToAppend := fun path =>
      match denial with
      | some error => return .error error
      | none => files.openToAppend path }

/-- Whether a file can be opened through a path, which leads somewhere and not to a directory. -/
def Disk.canOpen (disk : Disk) (path : String) : Bool :=
  match disk.resolveForWriting path with
  | .ok place => disk.item? place ≠ some .directory
  | .error _ => false

private theorem Disk.canOpen_iff {disk : Disk} {path : String} :
    disk.canOpen path = true ↔ ∃ place, disk.Opens path place := by
  unfold canOpen
  constructor
  · intro opens
    split at opens
    · rename_i place leads
      exact ⟨place, leads, by simpa using opens⟩
    · cases opens
  · rintro ⟨place, leads, free⟩
    simp [leads, free]

namespace Journal

/-- What happens to a journal. -/
inductive Act where
  | push (entry : Entry)
  /-- The least level and the file are set. Opening the file may fail for a reason from outside. -/
  | configure (least : Level) (file : Option String) (denial : Option FileError)

/-- What an act makes of a journal. If the file cannot be opened, the journal stays as it was. -/
def take (journal : Journal) : Act → StateM Disk Journal
  | .push entry => journal.push Disk.files entry
  | .configure least file denial => do
    match ← journal.configure (Disk.files.denying denial) least file with
    | .ok configured => return configured
    | .error _ => return journal

def takeAll (journal : Journal) (acts : List Act) : StateM Disk Journal :=
  acts.foldlM take journal

/-! ### What is to be kept -/

/-- A least level and a file, as they are in force for a while. -/
structure Setup where
  least : Level
  file : Option String

def setup (journal : Journal) : Setup := ⟨journal.least, journal.file⟩

namespace Setup

/-- Whether a setup comes into force on a disk: the file is none, or it can be opened. -/
def comes (disk : Disk) (file : Option String) (denial : Option FileError) : Bool :=
  file.all fun path => denial.isNone && disk.canOpen path

def after (disk : Disk) (setup : Setup) : Act → Setup
  | .push _ => setup
  | .configure least file denial => if comes disk file denial then ⟨least, file⟩ else setup

/-- The entry of an act that is accepted under a setup, with the file it goes to. -/
def accept (setup : Setup) : Act → List (Option String × Entry)
  | .push entry => if setup.least.rank ≤ entry.level.rank then [(setup.file, entry)] else []
  | .configure _ _ _ => []

end Setup

/-- The entries of acts that are accepted, each under the setup in force when it is pushed, with the files
they go to. -/
def accepted (disk : Disk) (setup : Setup) : List Act → List (Option String × Entry)
  | [] => []
  | act :: rest => setup.accept act ++ accepted disk (setup.after disk act) rest

/-- The latest entries, at most as many as a journal remembers. -/
def latest (entries : List Entry) : List Entry :=
  entries.drop (entries.length - capacity)

/-- The lines of the entries that go to a place on a disk. -/
def linesAt (disk : Disk) (place : List String) (taken : List (Option String × Entry)) : String :=
  String.join ((taken.filter fun pair => pair.1.any fun path => (disk.resolve path).toOption = some place).map
    fun pair => pair.2.line)

section Latest

variable {entries others : List Entry}

private theorem length_latest (entries : List Entry) :
    (latest entries).length = min entries.length capacity := by
  rw [latest, List.length_drop]
  omega

private theorem latest_eq_self (few : entries.length ≤ capacity) : latest entries = entries := by
  rw [latest, Nat.sub_eq_zero_of_le few, List.drop_zero]

/-- What was forgotten before is forgotten also in the end. -/
theorem latest_append (entries others : List Entry) :
    latest (latest entries ++ others) = latest (entries ++ others) := by
  have length := length_latest entries
  unfold latest at length ⊢
  generalize capacity = bound at length ⊢
  have front : entries.length - bound + (min entries.length bound + others.length - bound) =
      entries.length + others.length - bound := by omega
  have back : min entries.length bound + others.length - bound - min entries.length bound =
      entries.length + others.length - bound - entries.length := by omega
  rw [List.length_append, length, List.length_append, List.drop_append, List.drop_append, List.drop_drop,
    length, front, back]

/-- A journal that is not over its capacity remembers the latest entries. -/
theorem entries_remember {journal : Journal} (bounded : journal.entries.length ≤ capacity)
    (entry : Entry) : (journal.remember entry).entries = latest (journal.entries ++ [entry]) := by
  have some : 1 ≤ capacity := by decide
  simp only [remember, latest, List.length_append, List.length_singleton]
  split
  · rename_i full
    rw [full, Nat.add_sub_cancel_left, List.drop_append_of_le_length (full ▸ some)]
  · rename_i room
    rw [Nat.sub_eq_zero_of_le (by omega), List.drop_zero]

private theorem file_remember (journal : Journal) (entry : Entry) :
    (journal.remember entry).file = journal.file := by
  simp only [remember]

private theorem setup_remember (journal : Journal) (entry : Entry) :
    (journal.remember entry).setup = journal.setup := by
  simp only [setup, remember]

end Latest

section Lines

variable {disk : Disk} {place : List String}

private theorem linesAt_append (taken more : List (Option String × Entry)) :
    linesAt disk place (taken ++ more) = linesAt disk place taken ++ linesAt disk place more := by
  rw [linesAt, List.filter_append, List.map_append, String.join_append]
  rfl

private theorem linesAt_singleton (file : Option String) (entry : Entry) :
    linesAt disk place [(file, entry)] =
      if file.any fun path => (disk.resolve path).toOption = some place then entry.line else "" := by
  rw [linesAt, List.filter_cons, List.filter_nil]
  split
  · rw [List.map_cons, List.map_nil, String.join_cons, String.join_nil, String.append_empty]
  · rfl

end Lines

/-! ### Acts -/

/-- The second disk is the first one with the lines of entries behind what its files held. -/
structure Receives (disk : Disk) (taken : List (Option String × Entry)) (before after : Disk) : Prop where
  changed : Disk.ChangedAt (fun _ => True) before after
  held : ∀ place, after.heldAt place = (before.heldAt place).append (linesAt disk place taken)
  kept : ∀ place, (before.contentAt? place).isSome → (after.contentAt? place).isSome

namespace Receives

variable {disk before middle after : Disk} {taken more : List (Option String × Entry)}

private theorem refl (disk before : Disk) : Receives disk [] before before where
  changed := .refl before
  held _ := (Content.append_empty _).symm
  kept _ := id

private theorem trans (first : Receives disk taken before middle) (second : Receives disk more middle after) :
    Receives disk (taken ++ more) before after where
  changed := first.changed.trans second.changed
  held place := by rw [second.held, first.held, Content.append_append, linesAt_append]
  kept place := second.kept place ∘ first.kept place

end Receives

section Files

variable {disk before : Disk} {path : String} {place : List String}

/-- Writing behind what is held at a place changes nothing elsewhere. -/
theorem heldAt_written (opens : before.Opens path place) (added : String) (other : List String) :
    (before.put place (.file ((before.heldAt place).append added))).heldAt other =
      (before.heldAt other).append (if place = other then added else "") := by
  by_cases same : place = other
  · rw [← same, Disk.heldAt_put_of_opens opens, if_pos rfl]
  · rw [Disk.heldAt_put_of_ne opens (Ne.symm same), if_neg same, Content.append_empty]

private theorem contentAt?_written (opens : before.Opens path place) (added : String) :
    (before.put place (.file ((before.heldAt place).append added))).contentAt? place =
      some ((before.heldAt place).append added) :=
  Disk.contentAt?_eq_some_iff.mpr (Disk.item?_put_of_opens opens)

/-- A place receives what is written behind the content it holds, if that are the lines that go to it. -/
theorem written_receives {taken : List (Option String × Entry)} (opens : before.Opens path place)
    {added : String} (lines : ∀ other, linesAt disk other taken = if place = other then added else "") :
    Receives disk taken before (before.put place (.file ((before.heldAt place).append added))) where
  changed := (Disk.ChangedAt.put opens.free).mono fun _ _ => trivial
  held other := by rw [heldAt_written opens, lines]
  kept other held := by
    by_cases same : other = place
    · rw [same, contentAt?_written opens]
      rfl
    · rw [(Disk.ChangedAt.put opens.free).contentAt?_eq same]
      exact held

/-- Opening a file makes it if there is none, and writes nothing. -/
theorem opened_receives (opens : before.Opens path place) :
    Receives disk [] before (before.put place (.file (before.heldAt place))) := by
  have lines (other : List String) : linesAt disk other [] = if place = other then "" else "" :=
    (ite_self _).symm
  simpa only [Content.append_empty] using written_receives opens lines

variable (changed : Disk.ChangedAt (fun _ => True) disk before)

include changed

private theorem entry_receives (opens : before.Opens path place) (entry : Entry) :
    Receives disk [(some path, entry)] before
      (before.put place (.file ((before.heldAt place).append entry.line))) := by
  refine written_receives opens fun other => ?_
  have leads := changed.resolve_eq_ok_iff.mp opens.resolve
  simp only [linesAt_singleton, Option.any_some, leads, Except.toOption, Option.some.injEq, decide_eq_true_eq]

/-- An entry is written to the file of the journal, if it has one. -/
theorem writeOut_receives {journal : Journal} (opened : ∀ path ∈ journal.file, ∃ place, disk.Opens path place)
    (entry : Entry) :
    Receives disk [(journal.file, entry)] before ((journal.writeOut Disk.files entry).run before).2 := by
  cases file : journal.file with
  | none =>
    simp only [writeOut, file]
    refine ⟨.refl before, fun place => ?_, fun _ => id⟩
    rw [linesAt_singleton]
    exact (Content.append_empty _).symm
  | some path =>
    obtain ⟨place, opens⟩ := opened path file
    have opens := changed.opens opens
    simp only [writeOut, file]
    rcases before.run_attempt_changeFile path (·.append entry.line) with
      ⟨other, opensOther, wrote⟩ | ⟨shut, -⟩
    · have written : ((Disk.files.append path entry.line).run before).2 =
          before.put other (.file ((before.heldAt other).append entry.line)) := congrArg Prod.snd wrote
      rw [written]
      exact entry_receives changed opensOther entry
    · exact absurd ⟨place, opens⟩ shut

/-- A setup comes into force, with its file made, or it fails and nothing changes. -/
theorem run_configure (journal : Journal) (least : Level) (file : Option String) (denial : Option FileError) :
    (Setup.comes disk file denial = true ∧ ∃ after,
      (journal.configure (Disk.files.denying denial) least file).run before =
        (.ok { journal with least, file }, after) ∧ Receives disk [] before after ∧
      ∀ path ∈ file, ∃ place, disk.Opens path place ∧ (after.contentAt? place).isSome) ∨
    (Setup.comes disk file denial = false ∧ ∃ error,
      (journal.configure (Disk.files.denying denial) least file).run before = (.error error, before)) := by
  cases file with
  | none =>
    refine .inl ⟨rfl, before, rfl, .refl disk before, fun path member => ?_⟩
    exact absurd member (Option.not_mem_none path)
  | some path =>
    cases denial with
    | some error => exact .inr ⟨rfl, error, rfl⟩
    | none =>
      have comes : Setup.comes disk (some path) none = disk.canOpen path := rfl
      rw [comes]
      rcases before.run_attempt_changeFile path id with ⟨place, opens, opened⟩ | ⟨shut, error, failed⟩
      · have opensFirst := changed.symm.opens opens
        refine .inl ⟨Disk.canOpen_iff.mpr ⟨place, opensFirst⟩, _, ?_, opened_receives opens, ?_⟩
        · have opening : ((Disk.files.denying none).openToAppend path).run before = _ := opened
          simp only [configure, StateT.run_bind, opening]
          rfl
        · rintro other ⟨⟩
          refine ⟨place, opensFirst, ?_⟩
          rw [Disk.contentAt?_eq_some_iff.mpr (Disk.item?_put_of_opens opens)]
          rfl
      · refine .inr ⟨?_, error, ?_⟩
        · refine Bool.eq_false_iff.mpr fun open_ => shut ?_
          obtain ⟨place, opens⟩ := Disk.canOpen_iff.mp open_
          exact ⟨place, changed.opens opens⟩
        · have opening : ((Disk.files.denying none).openToAppend path).run before = _ := failed
          simp only [configure, StateT.run_bind, opening]
          rfl

end Files

section Configure

variable {journal configured : Journal} {before after : Disk} {least : Level} {file : Option String}
  {denial : Option FileError}

private theorem run_take_of_ok (ran : (journal.configure (Disk.files.denying denial) least file).run before =
    (.ok configured, after)) :
    (journal.take (.configure least file denial)).run before = (configured, after) := by
  simp only [take, StateT.run_bind, ran]
  rfl

private theorem run_take_of_error {error : FileError}
    (ran : (journal.configure (Disk.files.denying denial) least file).run before = (.error error, after)) :
    (journal.take (.configure least file denial)).run before = (journal, after) := by
  simp only [take, StateT.run_bind, ran]
  rfl

end Configure

/-- What holds of a journal and its disk between acts, given the disk at the start. -/
structure Sound (disk before : Disk) (journal : Journal) : Prop where
  changed : Disk.ChangedAt (fun _ => True) disk before
  opened : ∀ path ∈ journal.file, ∃ place, disk.Opens path place
  bounded : journal.entries.length ≤ capacity

/-- What acts have made of a journal and its disk: what is to be kept is kept. -/
structure Keeps (disk : Disk) (journal : Journal) (before : Disk) (acts : List Act) (left : Journal)
    (after : Disk) : Prop where
  sound : Sound disk after left
  setup : left.setup = acts.foldl (Setup.after disk) journal.setup
  entries : left.entries = latest (journal.entries ++ (accepted disk journal.setup acts).map Prod.snd)
  receives : Receives disk (accepted disk journal.setup acts) before after
  made : ∀ least path denial, .configure least (some path) denial ∈ acts →
    Setup.comes disk (some path) denial = true →
      ∃ place, disk.Opens path place ∧ (after.contentAt? place).isSome

private theorem accepted_singleton (disk : Disk) (setup : Setup) (act : Act) :
    accepted disk setup [act] = setup.accept act :=
  List.append_nil _

private theorem accept_push {journal : Journal} {entry : Entry} (accepts : journal.accepts entry = true) :
    journal.setup.accept (.push entry) = [(journal.file, entry)] :=
  if_pos (of_decide_eq_true accepts)

private theorem accept_push_of_not {journal : Journal} {entry : Entry}
    (refuses : ¬ journal.accepts entry = true) :
    journal.setup.accept (.push entry) = [] :=
  if_neg fun level => refuses (decide_eq_true level)

namespace Sound

variable {disk before : Disk} {journal : Journal}

/-- A journal that nothing happens to. -/
theorem idle (sound : Sound disk before journal) : Keeps disk journal before [] journal before where
  sound := sound
  setup := rfl
  entries := by rw [accepted, List.map_nil, List.append_nil, latest_eq_self sound.bounded]
  receives := .refl disk before
  made _ _ _ member := absurd member List.not_mem_nil

variable (sound : Sound disk before journal)

include sound

private theorem take_push (entry : Entry) :
    Keeps disk journal before [.push entry] ((journal.take (.push entry)).run before).1
      ((journal.take (.push entry)).run before).2 := by
  by_cases accepts : journal.accepts entry = true
  · have ran : (journal.take (.push entry)).run before =
        (journal.remember entry, ((journal.writeOut Disk.files entry).run before).2) := by
      rw [take, push, if_pos accepts]
      rfl
    have taken : accepted disk journal.setup [.push entry] = [(journal.file, entry)] := by
      rw [accepted_singleton, accept_push accepts]
    have receives := writeOut_receives sound.changed sound.opened entry
    rw [ran]
    refine ⟨⟨sound.changed.trans receives.changed, ?_, ?_⟩, setup_remember journal entry, ?_, ?_, ?_⟩
    · rw [file_remember]
      exact sound.opened
    · rw [entries_remember sound.bounded, length_latest]
      exact Nat.min_le_right _ _
    · rw [taken, entries_remember sound.bounded, List.map_cons, List.map_nil]
    · rw [taken]
      exact receives
    · intro least path denial member
      cases List.mem_singleton.mp member
  · have ran : (journal.take (.push entry)).run before = (journal, before) := by
      rw [take, push, if_neg accepts]
      rfl
    have taken : accepted disk journal.setup [.push entry] = [] := by
      rw [accepted_singleton, accept_push_of_not accepts]
    rw [ran]
    refine ⟨sound, rfl, ?_, ?_, ?_⟩
    · rw [taken, List.map_nil, List.append_nil, latest_eq_self sound.bounded]
    · rw [taken]
      exact .refl disk before
    · intro least path denial member
      cases List.mem_singleton.mp member

private theorem take_configure (least : Level) (file : Option String) (denial : Option FileError) :
    Keeps disk journal before [.configure least file denial]
      ((journal.take (.configure least file denial)).run before).1
      ((journal.take (.configure least file denial)).run before).2 := by
  rcases run_configure sound.changed journal least file denial with
    ⟨comes, after, ran, receives, made⟩ | ⟨fails, error, ran⟩
  · rw [run_take_of_ok ran]
    refine ⟨⟨sound.changed.trans receives.changed, ?_, sound.bounded⟩, ?_, ?_, receives, ?_⟩
    · intro path member
      obtain ⟨place, opens, -⟩ := made path member
      exact ⟨place, opens⟩
    · exact (if_pos comes).symm
    · exact (latest_eq_self sound.bounded).symm.trans (congrArg latest (List.append_nil _).symm)
    · intro level path other member _
      cases List.mem_singleton.mp member
      exact made path rfl
  · rw [run_take_of_error ran]
    refine ⟨sound, ?_, ?_, .refl disk before, ?_⟩
    · exact (if_neg (Bool.eq_false_iff.mp fails)).symm
    · exact (latest_eq_self sound.bounded).symm.trans (congrArg latest (List.append_nil _).symm)
    · intro level path other member comes
      cases List.mem_singleton.mp member
      rw [fails] at comes
      cases comes

/-- One act. -/
theorem take (act : Act) :
    Keeps disk journal before [act] ((journal.take act).run before).1 ((journal.take act).run before).2 := by
  cases act with
  | push entry => exact sound.take_push entry
  | configure least file denial => exact sound.take_configure least file denial

end Sound

namespace Keeps

variable {disk before middle after : Disk} {journal passed left : Journal} {act : Act} {rest : List Act}

/-- An act and then others. -/
theorem cons (first : Keeps disk journal before [act] passed middle)
    (others : Keeps disk passed middle rest left after) :
    Keeps disk journal before (act :: rest) left after := by
  have setup : passed.setup = journal.setup.after disk act := first.setup
  have taken : accepted disk journal.setup (act :: rest) =
      accepted disk journal.setup [act] ++ accepted disk passed.setup rest := by
    rw [accepted_singleton, setup]
    rfl
  refine ⟨others.sound, ?_, ?_, ?_, ?_⟩
  · rw [others.setup, setup]
    rfl
  · rw [others.entries, first.entries, latest_append, taken, List.map_append, List.append_assoc]
  · rw [taken]
    exact first.receives.trans others.receives
  · intro least path denial member comes
    rcases List.mem_cons.mp member with rfl | later
    · obtain ⟨place, opens, made⟩ := first.made least path denial List.mem_cons_self comes
      exact ⟨place, opens, others.receives.kept place made⟩
    · exact others.made least path denial later comes

end Keeps

/-- A run of acts. -/
theorem Sound.takeAll {disk before : Disk} {journal : Journal} (sound : Sound disk before journal)
    (acts : List Act) :
    Keeps disk journal before acts ((journal.takeAll acts).run before).1
      ((journal.takeAll acts).run before).2 := by
  induction acts generalizing journal before with
  | nil => exact sound.idle
  | cons act rest ih =>
    have first := sound.take act
    exact first.cons (ih first.sound)

/-- A new journal is sound on any disk. -/
theorem Sound.new (disk : Disk) : Sound disk disk Journal.new where
  changed := .refl disk
  opened path member := absurd member (Option.not_mem_none path)
  bounded := Nat.zero_le _

/-- A file that was set as the file of a journal holds what it held before, with the lines behind it. -/
theorem Keeps.content? {disk before after : Disk} {journal left : Journal} {acts : List Act}
    (keeps : Keeps disk journal before acts left after) {path : String} {place : List String}
    (opens : disk.Opens path place) (made : (after.contentAt? place).isSome) :
    after.content? path =
      some ((before.heldAt place).append (linesAt disk place (accepted disk journal.setup acts))) := by
  have leads := keeps.sound.changed.resolve_eq_ok_iff.mpr opens.resolve
  obtain ⟨content, held⟩ := Option.isSome_iff_exists.mp made
  have same : after.heldAt place = content := by rw [Disk.heldAt, held, Option.getD_some]
  rw [Disk.content?, leads]
  exact held.trans (congrArg some (same.symm.trans (keeps.receives.held place)))

/-- Whatever happens to a new journal, it remembers the latest of the entries that it accepted, each under the
least level in force when it was pushed. Each file that was set successfully holds what it held before and
then the lines of all entries accepted while the file of the journal was there. Setting the least level and
the file fails where the file cannot be opened, and then changes nothing. -/
theorem remembers_latest_and_writes_all (disk : Disk) (acts : List Act) :
    let left := ((new.takeAll acts).run disk).1
    let after := ((new.takeAll acts).run disk).2
    let taken := accepted disk new.setup acts
    left.entries = (taken.map Prod.snd).drop (taken.length - capacity) ∧
    left.entries.length = min taken.length capacity ∧
    left.setup = acts.foldl (Setup.after disk) new.setup ∧
    (∀ least path denial, .configure least (some path) denial ∈ acts →
      Setup.comes disk (some path) denial = true →
      ∃ place, disk.resolve path = .ok place ∧
        after.content? path = some (((disk.content? path).getD (.text "")).append (linesAt disk place taken))) ∧
    ∀ least file denial,
      (Setup.comes disk file denial = true → ∃ opened,
        (left.configure (Disk.files.denying denial) least file).run after =
          (.ok { left with least, file }, opened)) ∧
      (Setup.comes disk file denial = false → ∃ error,
        (left.configure (Disk.files.denying denial) least file).run after = (.error error, after) ∧
        (left.take (.configure least file denial)).run after = (left, after)) := by
  intro left after taken
  have keeps := (Sound.new disk).takeAll acts
  have entries : left.entries = latest (taken.map Prod.snd) := keeps.entries
  refine ⟨?_, ?_, keeps.setup, ?_, fun least file denial => ?_⟩
  · rw [entries, latest, List.length_map]
  · rw [entries, length_latest, List.length_map]
  · intro least path denial member comes
    obtain ⟨place, opens, made⟩ := keeps.made least path denial member comes
    refine ⟨place, opens.resolve, ?_⟩
    rw [keeps.content? opens made, Disk.content?, opens.resolve]
    rfl
  · rcases run_configure keeps.sound.changed left least file denial with
      ⟨comes, opened, ran, -⟩ | ⟨fails, error, ran⟩
    · refine ⟨fun _ => ⟨opened, ran⟩, fun fails => ?_⟩
      rw [comes] at fails
      cases fails
    · refine ⟨fun comes => ?_, fun _ => ⟨error, ran, ?_⟩⟩
      · rw [fails] at comes
        cases comes
      · exact run_take_of_error ran

/-- A file of a journal that fails to be replaced gets the lines of two entries, the second of which comes
behind the failure. -/
theorem failed_setup_is_ignored :
    let disk : Disk := ⟨[(["a.log"], .file (.text "old\n"))]⟩
    let acts : List Act := [.push ⟨.info, "early"⟩, .configure .info (some "a.log") none, .push ⟨.info, "one"⟩,
      .configure .error (some "b/c.log") none, .configure .trace none none,
      .configure .info (some "./a.log") none, .push ⟨.debug, "two"⟩,
      .configure .error (some "a.log") (some .notText), .push ⟨.warn, "three"⟩]
    ((new.takeAll acts).run disk).1.entries = [⟨.info, "one"⟩, ⟨.warn, "three"⟩] ∧
    ((new.takeAll acts).run disk).2.content? "a.log" =
      some (.text "old\n[Info]  one\n[Warn]  three\n") := by
  intro disk acts
  obtain ⟨entries, -, -, files, -⟩ := remembers_latest_and_writes_all disk acts
  obtain ⟨place, leads, held⟩ := files .info "a.log" none (by simp [acts]) (by decide +kernel)
  refine ⟨entries.trans (by decide +kernel), held.trans ?_⟩
  have here : (disk.resolve "a.log").toOption = some ["a.log"] := by decide +kernel
  rw [leads] at here
  obtain rfl := Option.some.inj here
  decide +kernel

end Journal

end SyntaxNav

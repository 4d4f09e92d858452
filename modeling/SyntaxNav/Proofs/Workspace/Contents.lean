import SyntaxNav.Workspace.Disk

/-! # What the files of a disk hold

Programs change a disk by giving a file a content, in place of another one or where nothing stood. That
makes no directory and removes none. So `ChangedAt` relates the disks before and after such changes by the
places where they were made: paths lead where they led (`ChangedAt.resolve_eq_ok_iff`), and what stands
elsewhere is the same.

The files of a machine can fail in ways that no disk in memory knows: a file may not be read or written by
its owner's will, and a write may break off where the space ends. `Files.OnDisk` holds of all operations that
do on a disk what they are for, or fail; `Disk.files` are the ones that fail only where they must.
-/

namespace SyntaxNav

/-- A computation in two steps succeeds if both steps do. -/
theorem bind_eq_ok_iff {α β ε : Type} {first : Except ε α} {next : α → Except ε β} {value : β} :
    first >>= next = .ok value ↔ ∃ middle, first = .ok middle ∧ next middle = .ok value := by
  cases first with
  | error error =>
    constructor
    · intro failed
      cases failed
    · rintro ⟨_, failed, -⟩
      cases failed
  | ok middle =>
    constructor
    · exact fun done => ⟨middle, rfl, done⟩
    · rintro ⟨_, same, done⟩
      cases same
      exact done

namespace Content

/-- What is written behind a content in two steps is written behind it in one. -/
theorem append_append (content : Content) (first second : String) :
    (content.append first).append second = content.append (first ++ second) := by
  cases content with
  | text content => exact congrArg text (String.append_assoc ..)
  | bytes content =>
    refine congrArg bytes (ByteArray.ext ?_)
    simp [Array.append_assoc]

/-- Appending nothing changes nothing. -/
theorem append_empty (content : Content) : content.append "" = content := by
  cases content with
  | text content => exact congrArg text String.append_empty
  | bytes content => exact congrArg bytes (ByteArray.append_empty)

end Content

namespace Disk

variable {disk before middle after : Disk} {place other start : List String} {path : String}

section Items

/-- The content of the file at a place, if there is one. -/
def contentAt? (disk : Disk) (place : List String) : Option Content :=
  match disk.item? place with
  | some (.file content) => some content
  | _ => none

/-- The content that is written on at a place: that of the file there, or none yet. -/
def heldAt (disk : Disk) (place : List String) : Content :=
  (disk.contentAt? place).getD (.text "")

/-- The content of the file at a path, if there is one. -/
def content? (disk : Disk) (path : String) : Option Content :=
  match disk.resolve path with
  | .ok place => disk.contentAt? place
  | .error _ => none

/-- Replacing what stands at one place of a list. -/
private theorem lookup_replaced (items : List (List String × DiskItem)) (item : DiskItem) :
    (items.map fun (other, old) => (other, if other = place then item else old)).lookup other =
      (items.lookup other).map fun old => if other = place then item else old := by
  induction items with
  | nil => rfl
  | cons first rest ih =>
    obtain ⟨name, old⟩ := first
    by_cases same : other = name
    · simp [same]
    · simp only [List.map_cons, List.lookup_cons, beq_false_of_ne same, ih]

private theorem lookup_put (disk : Disk) (place other : List String) (item : DiskItem) :
    (disk.put place item).items.lookup other =
      if other = place then some item else disk.items.lookup other := by
  unfold put
  split
  · rename_i present
    rw [lookup_replaced]
    by_cases same : other = place
    · obtain ⟨old, found⟩ := Option.isSome_iff_exists.mp present
      simp [same, found]
    · simp [same]
  · rename_i absent
    rw [List.lookup_append]
    by_cases same : other = place
    · simp [same, Option.not_isSome_iff_eq_none.mp absent]
    · simp [same, List.lookup_cons, beq_false_of_ne same]

/-- An item is found where it was put, unless it was put in place of one of the two directories that always
exist. -/
theorem item?_put (disk : Disk) (place other : List String) (item : DiskItem) :
    (disk.put place item).item? other =
      if other = [] ∨ other = outside then some .directory
      else if other = place then some item else disk.item? other := by
  unfold item?
  rw [lookup_put]
  split
  · rfl
  · split
    · rfl
    · rfl

/-- There is a content at a place just if a file stands there. -/
theorem contentAt?_eq_some_iff {content : Content} :
    disk.contentAt? place = some content ↔ disk.item? place = some (.file content) := by
  unfold contentAt?
  split
  · rename_i found
    simp [found]
  · rename_i other
    simpa using other content

private theorem heldAt_of_item {content : Content} (stands : disk.item? place = some (.file content)) :
    disk.heldAt place = content := by
  rw [heldAt, contentAt?_eq_some_iff.mpr stands, Option.getD_some]

end Items

/-- A path leads to a place name by name. -/
theorem resolve_eq_ok_iff_walk : disk.resolve path = .ok place ↔
    ∃ parts start, names path = .ok (parts, start) ∧ parts.foldlM disk.enter start = .ok place := by
  unfold resolve
  rw [bind_eq_ok_iff]
  constructor
  · rintro ⟨⟨parts, start⟩, named, walked⟩
    exact ⟨parts, start, named, walked⟩
  · rintro ⟨parts, start, named, walked⟩
    exact ⟨(parts, start), named, walked⟩

/-! ### Changes of files -/

/-- The second disk is the first one with other contents of files at some places, and files made there. -/
structure ChangedAt (places : List String → Prop) (before after : Disk) : Prop where
  directories : ∀ place, after.item? place = some .directory ↔ before.item? place = some .directory
  elsewhere : ∀ place, ¬ places place → after.item? place = before.item? place

namespace ChangedAt

variable {places others : List String → Prop}

theorem refl (disk : Disk) : ChangedAt places disk disk := ⟨fun _ => Iff.rfl, fun _ _ => rfl⟩

/-- Changes at the same places, one after the other, are a change at these places. -/
theorem trans (first : ChangedAt places before middle) (second : ChangedAt places middle after) :
    ChangedAt places before after where
  directories place := (second.directories place).trans (first.directories place)
  elsewhere place apart := (second.elsewhere place apart).trans (first.elsewhere place apart)

/-- More places may be allowed to change. -/
theorem mono (changed : ChangedAt places before after) (wider : ∀ place, places place → others place) :
    ChangedAt others before after where
  directories := changed.directories
  elsewhere place apart := changed.elsewhere place fun at_ => apart (wider place at_)

/-- A file is put where no directory stands. -/
theorem put {content : Content} (free : disk.item? place ≠ some .directory) :
    ChangedAt (· = place) disk (disk.put place (.file content)) where
  directories other := by
    rw [item?_put]
    split
    · rename_i always
      simp [item?, always]
    · split
      · rename_i same
        simp [same, free]
      · rfl
  elsewhere other apart := by
    rw [item?_put, if_neg apart]
    split
    · rename_i always
      rw [item?, if_pos always]
    · rfl

variable (changed : ChangedAt places before after)

include changed

/-- Changes can be seen from either side. -/
theorem symm : ChangedAt places after before where
  directories place := (changed.directories place).symm
  elsewhere place apart := (changed.elsewhere place apart).symm

private theorem enter_eq_ok {name : String} (entered : before.enter start name = .ok place) :
    after.enter start name = .ok place := by
  unfold enter at entered ⊢
  split at entered
  · cases entered
  · cases entered
  · rename_i directory
    rw [(changed.directories start).mpr directory]
    exact entered

private theorem walk_eq_ok {names : List String} (walked : names.foldlM before.enter start = .ok place) :
    names.foldlM after.enter start = .ok place := by
  induction names generalizing start with
  | nil => exact walked
  | cons name names ih =>
    rw [List.foldlM_cons, bind_eq_ok_iff] at walked ⊢
    obtain ⟨next, entered, walked⟩ := walked
    exact ⟨next, changed.enter_eq_ok entered, ih walked⟩

/-- Paths lead where they led. -/
theorem resolve_eq_ok_iff : after.resolve path = .ok place ↔ before.resolve path = .ok place := by
  rw [resolve_eq_ok_iff_walk, resolve_eq_ok_iff_walk]
  constructor
  · rintro ⟨parts, start, named, walked⟩
    exact ⟨parts, start, named, changed.symm.walk_eq_ok walked⟩
  · rintro ⟨parts, start, named, walked⟩
    exact ⟨parts, start, named, changed.walk_eq_ok walked⟩

/-- Elsewhere the contents stay. -/
theorem contentAt?_eq (apart : ¬ places place) : after.contentAt? place = before.contentAt? place := by
  unfold contentAt?
  rw [changed.elsewhere place apart]

/-- A file that is not at one of the places holds what it held. -/
theorem content?_eq (apart : ∀ place, places place → before.resolve path ≠ .ok place) :
    after.content? path = before.content? path := by
  cases led : before.resolve path with
  | ok place =>
    have leads := changed.resolve_eq_ok_iff.mpr led
    have kept := changed.contentAt?_eq fun at_ => apart place at_ led
    simp only [content?, led, leads, kept]
  | error error =>
    cases leads : after.resolve path with
    | ok place =>
      rw [changed.resolve_eq_ok_iff.mp leads] at led
      cases led
    | error other => simp only [content?, led, leads]

end ChangedAt

/-- What is written through a path goes where the path leads. Through a path that ends in a slash nothing is
written. -/
theorem resolveForWriting_eq_ok_iff :
    disk.resolveForWriting path = .ok place ↔
      path.toList.getLast? ≠ some '/' ∧ disk.resolve path = .ok place := by
  unfold resolveForWriting
  rw [resolve_eq_ok_iff_walk, bind_eq_ok_iff]
  constructor
  · rintro ⟨⟨parts, start⟩, named, walked⟩
    dsimp only at walked
    split at walked
    · obtain ⟨inner, -, failed⟩ := bind_eq_ok_iff.mp walked
      obtain ⟨_, -, failed⟩ := bind_eq_ok_iff.mp failed
      cases failed
    · rename_i file
      exact ⟨file, parts, start, named, walked⟩
  · rintro ⟨file, parts, start, named, walked⟩
    refine ⟨(parts, start), named, ?_⟩
    dsimp only
    rw [if_neg file]
    exact walked

/-- Behind the last slash of a path stands an empty name. -/
theorem names_of_slash {parts : List String} (slash : path.toList.getLast? = some '/')
    (named : names path = .ok (parts, start)) : ∃ front, parts = front ++ [""] := by
  obtain ⟨front, split⟩ := List.getLast?_eq_some_iff.mp slash
  refine ⟨(front.splitOn '/').map String.ofList, ?_⟩
  unfold names at named
  split at named
  · cases named
  split at named
  · cases named
  split at named
  · cases named
  cases named
  rw [split, List.splitOn_append_cons_self, List.map_append, List.splitOn_nil]
  rfl

private theorem enter_empty (entered : disk.enter start "" = .ok place) :
    disk.item? start = some .directory ∧ place = start := by
  unfold enter at entered
  split at entered
  · cases entered
  · cases entered
  · rename_i directory
    rw [if_pos (.inl rfl)] at entered
    cases entered
    exact ⟨directory, rfl⟩

/-- A path that ends in a slash leads to a directory, if anywhere. -/
theorem item?_of_slash (slash : path.toList.getLast? = some '/') (leads : disk.resolve path = .ok place) :
    disk.item? place = some .directory := by
  obtain ⟨parts, start, named, walked⟩ := resolve_eq_ok_iff_walk.mp leads
  obtain ⟨front, rfl⟩ := names_of_slash slash named
  rw [List.foldlM_append, bind_eq_ok_iff] at walked
  obtain ⟨inner, -, walked⟩ := walked
  rw [List.foldlM_cons, bind_eq_ok_iff] at walked
  obtain ⟨final, entered, ⟨⟩⟩ := walked
  obtain ⟨directory, rfl⟩ := enter_empty entered
  exact directory

/-! ### Files that can be opened -/

/-- A file can be made or changed through a path, at the place where the path leads. -/
structure Opens (disk : Disk) (path : String) (place : List String) : Prop where
  leads : disk.resolveForWriting path = .ok place
  free : disk.item? place ≠ some .directory

/-- A path that opens a file leads to it. -/
theorem Opens.resolve (opens : disk.Opens path place) : disk.resolve path = .ok place :=
  (resolveForWriting_eq_ok_iff.mp opens.leads).2

/-- A path that a text is read from leads to a file, which can also be written. -/
theorem opens_of_readText {text : String} (read : disk.readText path = .ok text) :
    ∃ place, disk.Opens path place ∧ disk.item? place = some (.file (.text text)) := by
  obtain ⟨place, leads, read⟩ := bind_eq_ok_iff.mp read
  have stands : disk.item? place = some (.file (.text text)) := by
    split at read
    · cases read
    · cases read
    · cases read
    · rename_i found
      cases read
      exact found
  refine ⟨place, ⟨resolveForWriting_eq_ok_iff.mpr ⟨fun slash => ?_, leads⟩, ?_⟩, stands⟩
  · rw [item?_of_slash slash leads] at stands
    cases stands
  · rw [stands]
    exact fun same => by cases same

/-- A text that can be read in the end, and not at one of the places, could be read before. -/
theorem ChangedAt.readText_eq_ok {places : List String → Prop} (changed : ChangedAt places before after)
    {text : String} (apart : ∀ place, places place → before.resolve path ≠ .ok place)
    (read : after.readText path = .ok text) : before.readText path = .ok text := by
  obtain ⟨place, leads, read⟩ := bind_eq_ok_iff.mp read
  have led := changed.resolve_eq_ok_iff.mp leads
  rw [changed.elsewhere place fun at_ => apart place at_ led] at read
  exact bind_eq_ok_iff.mpr ⟨place, led, read⟩

/-- Paths through which files can be opened stay such. -/
theorem ChangedAt.opens {places : List String → Prop} (changed : ChangedAt places before after)
    (opens : before.Opens path place) : after.Opens path place where
  leads := by
    obtain ⟨file, leads⟩ := resolveForWriting_eq_ok_iff.mp opens.leads
    exact resolveForWriting_eq_ok_iff.mpr ⟨file, changed.resolve_eq_ok_iff.mpr leads⟩
  free := fun directory => opens.free ((changed.directories place).mp directory)

/-- Changing the file that a path opens puts a content at its place. -/
theorem changeFile_of_opens (opens : disk.Opens path place) (change : Content → Content) :
    disk.changeFile path change = .ok (disk.put place (.file (change (disk.heldAt place)))) := by
  have free := opens.free
  simp only [changeFile, opens.leads, bind, Except.bind, heldAt, contentAt?]
  cases found : disk.item? place with
  | none => rfl
  | some item =>
    cases item with
    | directory => exact absurd found free
    | file content => rfl

private theorem opens_of_changeFile {change : Content → Content}
    (done : disk.changeFile path change = .ok after) :
    ∃ place, disk.Opens path place := by
  obtain ⟨place, leads, done⟩ := bind_eq_ok_iff.mp done
  refine ⟨place, leads, fun directory => ?_⟩
  rw [directory] at done
  cases done

/-- A change of a file that a path opens is made. -/
theorem run_attempt_of_opens (opens : disk.Opens path place) (change : Content → Content) :
    (attempt (·.changeFile path change)).run disk =
      (.ok (), disk.put place (.file (change (disk.heldAt place)))) := by
  simp only [attempt, StateT.run, changeFile_of_opens opens]

/-- A change of a file is made through a path that opens one, and otherwise nothing changes. -/
theorem run_attempt_changeFile (disk : Disk) (path : String) (change : Content → Content) :
    (∃ place, disk.Opens path place ∧ (attempt (·.changeFile path change)).run disk =
      (.ok (), disk.put place (.file (change (disk.heldAt place))))) ∨
    (¬ ∃ place, disk.Opens path place) ∧
      ∃ error, (attempt (·.changeFile path change)).run disk = (.error error, disk) := by
  cases done : disk.changeFile path change with
  | ok changed =>
    obtain ⟨place, opens⟩ := opens_of_changeFile done
    exact .inl ⟨place, opens, run_attempt_of_opens opens change⟩
  | error error =>
    refine .inr ⟨?_, error, by simp only [attempt, StateT.run, done]⟩
    rintro ⟨place, opens⟩
    rw [changeFile_of_opens opens] at done
    cases done

/-- Nothing changes but the file that a path leads to. -/
theorem changedAt_attempt_changeFile (disk : Disk) (path : String) (change : Content → Content) :
    ChangedAt (fun place => disk.resolve path = .ok place) disk
      ((attempt (·.changeFile path change)).run disk).2 := by
  rcases disk.run_attempt_changeFile path change with ⟨place, opens, ran⟩ | ⟨-, error, ran⟩
  · rw [ran]
    refine (ChangedAt.put opens.free).mono ?_
    rintro _ rfl
    exact opens.resolve
  · rw [ran]
    exact .refl disk

section Put

variable {content : Content}

/-- A file is found where it was put. -/
theorem item?_put_of_opens (opens : disk.Opens path place) :
    (disk.put place (.file content)).item? place = some (.file content) := by
  have inner : ¬ (place = [] ∨ place = outside) := fun always => opens.free (if_pos always)
  rw [item?_put, if_neg inner, if_pos rfl]

/-- A path finds what was written through it. -/
theorem content?_put_of_opens (opens : disk.Opens path place) :
    (disk.put place (.file content)).content? path = some content := by
  have leads : (disk.put place (.file content)).resolve path = .ok place :=
    (ChangedAt.put opens.free).resolve_eq_ok_iff.mpr opens.resolve
  rw [content?, leads]
  exact contentAt?_eq_some_iff.mpr (item?_put_of_opens opens)

/-- What is written on at a place is what was put there. -/
theorem heldAt_put_of_opens (opens : disk.Opens path place) :
    (disk.put place (.file content)).heldAt place = content :=
  heldAt_of_item (item?_put_of_opens opens)

/-- A file elsewhere holds what it held. -/
theorem heldAt_put_of_ne (opens : disk.Opens path place) (apart : other ≠ place) :
    (disk.put place (.file content)).heldAt other = disk.heldAt other := by
  unfold heldAt
  rw [(ChangedAt.put opens.free).contentAt?_eq apart]

end Put

/-! ### Operations that may fail -/

/-- What giving a file a text comes to. The file is emptied before it is written, so a write that breaks off
leaves some first bytes of the text. -/
inductive Written (disk : Disk) (path text : String) : Except FileError Unit → Disk → Prop where
  | through {place : List String} (opens : disk.Opens path place) :
      Written disk path text (.ok ()) (disk.put place (.file (.text text)))
  | refused (error : FileError) : Written disk path text (.error error) disk
  | brokenOff {place : List String} (opens : disk.Opens path place) (count : Nat) (error : FileError) :
      Written disk path text (.error error)
        (disk.put place (.file (.ofBytes (text.toUTF8.extract 0 count))))

/-- A path finds what was written through it. -/
theorem Written.content?_of_ok {text : String} (written : disk.Written path text (.ok ()) after) :
    after.content? path = some (.text text) := by
  cases written with
  | through opens => exact content?_put_of_opens opens

/-- A write that fails changes nothing, or leaves the first part of the text. -/
theorem Written.content?_of_error {text : String} {error : FileError}
    (written : disk.Written path text (.error error) after) :
    after = disk ∨ ∃ count, after.content? path = some (.ofBytes (text.toUTF8.extract 0 count)) := by
  cases written with
  | refused error => exact .inl rfl
  | brokenOff opens count error => exact .inr ⟨count, content?_put_of_opens opens⟩

end Disk

/-- Operations do on a disk what they are for, or fail for any reason. Nothing changes by looking, and what is
changed through a path is the file it leads to. -/
structure Files.OnDisk (files : Files (StateM Disk)) : Prop where
  readText_still : ∀ path disk, ((files.readText path).run disk).2 = disk
  readText : ∀ path disk text, ((files.readText path).run disk).1 = .ok text → disk.readText path = .ok text
  isFile_still : ∀ path disk, ((files.isFile path).run disk).2 = disk
  openToAppend : ∀ path disk, Disk.ChangedAt (fun place => disk.resolve path = .ok place) disk
    ((files.openToAppend path).run disk).2
  append : ∀ path added disk, Disk.ChangedAt (fun place => disk.resolve path = .ok place) disk
    ((files.append path added).run disk).2
  write : ∀ path text disk, Disk.Written disk path text ((files.write path text).run disk).1
    ((files.write path text).run disk).2

/-- The operations of a disk in memory. -/
theorem Disk.files_onDisk : files.OnDisk where
  readText_still _ _ := rfl
  readText _ _ _ read := read
  isFile_still _ _ := rfl
  openToAppend path disk := disk.changedAt_attempt_changeFile path id
  append path added disk := disk.changedAt_attempt_changeFile path (·.append added)
  write path text disk := by
    rcases disk.run_attempt_changeFile path fun _ => .text text with ⟨place, opens, ran⟩ | ⟨-, error, ran⟩
    · simp only [files, ran]
      exact .through opens
    · simp only [files, ran]
      exact .refused error

end SyntaxNav

import SyntaxNav.Workspace.Files

/-! # A disk in memory

A disk holds files and directories by the names on the way to them from the working directory. Paths
are resolved name by name: each name is looked up in a directory that has to exist, a dot stays, two
dots go up. All that is around the working directory is one further directory, which holds nothing to
begin with.
-/

namespace SyntaxNav

/-- What a file holds: a text, or bytes that are no text in UTF-8. -/
inductive Content where
  | text (text : String)
  | bytes (bytes : ByteArray)

namespace Content

instance : DecidableEq Content
  | text one, text other => decidable_of_iff (one = other) (by rw [text.injEq])
  | bytes one, bytes other =>
    decidable_of_iff (one.data = other.data) (by rw [bytes.injEq, ByteArray.ext_iff])
  | text _, bytes _ => .isFalse nofun
  | bytes _, text _ => .isFalse nofun

def ofBytes (bytes : ByteArray) : Content :=
  match String.fromUTF8? bytes with
  | some decoded => .text decoded
  | none => .bytes bytes

/-- A content with a text behind it. Bytes that are no text do not become one. -/
def append : Content → String → Content
  | text content, added => .text (content ++ added)
  | bytes content, added => .bytes (content ++ added.toUTF8)

end Content

/-- What a name on a disk stands for. -/
inductive DiskItem where
  | directory
  | file (content : Content)
deriving DecidableEq

/-- Files and directories by the names on the way to them. -/
structure Disk where
  items : List (List String × DiskItem)

namespace Disk

def empty : Disk := ⟨[]⟩

def outside : List String := [".."]

/-- What stands at a place. The working directory and the one around it always exist. -/
def item? (disk : Disk) (place : List String) : Option DiskItem :=
  if place = [] ∨ place = outside then some .directory else disk.items.lookup place

/-- Puts an item at a place, instead of what stood there. -/
def put (disk : Disk) (place : List String) (item : DiskItem) : Disk :=
  if (disk.items.lookup place).isSome then
    ⟨disk.items.map fun (other, old) => (other, if other = place then item else old)⟩
  else
    ⟨disk.items ++ [(place, item)]⟩

/-- Puts an item at a place, and directories at the places on the way that have none. -/
def install (disk : Disk) (place : List String) (item : DiskItem) : Disk :=
  let ways := (List.range place.length).map place.take
  let made := ways.foldl (fun disk way => if (disk.item? way).isSome then disk
    else disk.put way .directory) disk
  made.put place item

def topTexts (disk : Disk) : List (String × String) :=
  disk.items.filterMap fun
    | ([name], .file (.text content)) => some (name, content)
    | _ => none

/-- The place above a place. Nothing is above the outermost directory. -/
def above (place : List String) : List String :=
  if place = [] ∨ place = outside then outside else place.dropLast

/-- The place that a name leads to from a place. -/
def enter (disk : Disk) (place : List String) (name : String) : Except FileError (List String) :=
  match disk.item? place with
  | none => .error .notFound
  | some (.file _) => .error .notDirectory
  | some .directory =>
    if name = "" ∨ name = "." then .ok place
    else if name = ".." then .ok (above place)
    else if name.utf8ByteSize > 255 then .error .nameTooLong
    else .ok (place ++ [name])

def pathLimit : Nat := 4096

/-- The names of a path and the place they start from. -/
def names (path : String) : Except FileError (List String × List String) :=
  if path.toList.contains '\x00' then .error .nullInName
  else if path.utf8ByteSize ≥ pathLimit then .error .nameTooLong
  else if path = "" then .error .notFound
  else .ok ((path.toList.splitOn '/').map String.ofList,
    if path.toList.head? = some '/' then outside else [])

/-- The place that a path leads to. Nothing need stand there. -/
def resolve (disk : Disk) (path : String) : Except FileError (List String) := do
  let (names, start) ← names path
  names.foldlM disk.enter start

/-- The names without the empty ones behind the last slashes and the name before these. -/
def namesBeforeLast (names : List String) : List String :=
  ((names.reverse.dropWhile (· = "")).drop 1).reverse

/-- The place of a file to be written. A path that ends in a slash can only name a directory; its last
name is not even looked up, but the way to it has to exist. -/
def resolveForWriting (disk : Disk) (path : String) : Except FileError (List String) := do
  let (names, start) ← names path
  if path.toList.getLast? = some '/' then
    let place ← (namesBeforeLast names).foldlM disk.enter start
    discard (disk.enter place ".")
    .error .isDirectory
  else
    names.foldlM disk.enter start

def readText (disk : Disk) (path : String) : Except FileError String := do
  match disk.item? (← disk.resolve path) with
  | none => .error .notFound
  | some .directory => .error .isDirectory
  | some (.file (.bytes _)) => .error .notText
  | some (.file (.text text)) => .ok text

def isFile (disk : Disk) (path : String) : Bool :=
  match disk.resolve path with
  | .error _ => false
  | .ok place => match disk.item? place with
    | some (.file _) => true
    | _ => false

/-- Changes the content of the file at a path, which is made empty first if there is none. -/
def changeFile (disk : Disk) (path : String) (change : Content → Content) : Except FileError Disk := do
  let place ← disk.resolveForWriting path
  match disk.item? place with
  | none => .ok (disk.put place (.file (change (.text ""))))
  | some .directory => .error .isDirectory
  | some (.file content) => .ok (disk.put place (.file (change content)))

/-- A change of a disk as a step of a program; a failure changes nothing. -/
def attempt (change : Disk → Except FileError Disk) : StateM Disk (Except FileError Unit) := fun disk =>
  match change disk with
  | .ok changed => (.ok (), changed)
  | .error error => (.error error, disk)

def files : Files (StateM Disk) where
  readText path := do return (← get).readText path
  isFile path := do return (← get).isFile path
  openToAppend path := attempt (·.changeFile path id)
  append path added := discard (attempt (·.changeFile path (·.append added)))
  write path text := attempt (·.changeFile path fun _ => .text text)

end Disk

end SyntaxNav

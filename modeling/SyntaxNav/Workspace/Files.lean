/-! # Files

What the program asks of the files around it, and why an answer can fail to come. The operations are
given by a record, so that the same program runs on the files of the machine and on a disk in memory.
-/

namespace SyntaxNav

/-- Why a file could not be read or opened. -/
inductive FileError where
  /-- There is no such file, or no directory to make it in. -/
  | notFound
  /-- A file stands in place of a directory. -/
  | notDirectory
  /-- A directory stands in place of the file. -/
  | isDirectory
  /-- A name on the way is longer than any file name can be. -/
  | nameTooLong
  /-- The path holds the null character, which no file name can. -/
  | nullInName
  /-- The bytes of the file are not a text in UTF-8. -/
  | notText
  /-- Any other reason, in words. -/
  | other (message : String)
deriving DecidableEq, Repr

def FileError.message : FileError → String
  | notFound => "No such file or directory (os error 2)"
  | notDirectory => "Not a directory (os error 20)"
  | isDirectory => "Is a directory (os error 21)"
  | nameTooLong => "File name too long (os error 36)"
  | nullInName => "file name contained an unexpected NUL byte"
  | notText => "stream did not contain valid UTF-8"
  | other message => message

/-- What can be done with the files that paths name. -/
structure Files (m : Type → Type) where
  /-- Reads a file as text. -/
  readText : String → m (Except FileError String)
  /-- Whether a path names a file and not a directory. -/
  isFile : String → m Bool
  /-- Opens a file to append to it, and makes it if there is none. -/
  openToAppend : String → m (Except FileError Unit)
  /-- Appends a text to a file that was opened for it. -/
  append : String → String → m Unit
  /-- Gives a file a text as its content, and makes it if there is none. -/
  write : String → String → m (Except FileError Unit)

end SyntaxNav

/-!
# Files

Commands read a file as a whole, ask whether a path leads anywhere, make folders and write a
file as a whole. `Files m` is a place where that can be done: the file system of a machine,
or a `FileTree` in memory.
-/

namespace RecordQuery

/-- **Why a file or folder is out of reach.** -/
inductive FileError where
  /-- A name on the way, or the last one, does not exist. -/
  | notFound
  /-- A name is taken. -/
  | taken
  /-- A name on the way is not that of a folder. -/
  | notFolder
  /-- A folder is taken for a file. -/
  | isFolder
  /-- A name or a path is longer than any can be. -/
  | nameTooLong
  /-- A null character in a path. -/
  | nullInName
  /-- Any other reason, in the words of the machine. -/
  | other (reason : String)
  deriving DecidableEq

/-- The reason in words, with its number where it has one. -/
def FileError.message : FileError → String
  | .notFound => "No such file or directory (os error 2)"
  | .taken => "File exists (os error 17)"
  | .notFolder => "Not a directory (os error 20)"
  | .isFolder => "Is a directory (os error 21)"
  | .nameTooLong => "File name too long (os error 36)"
  | .nullInName => "file name contained an unexpected NUL byte"
  | .other reason => reason

/-- **A place where files are kept.** -/
class Files (m : Type → Type) where
  /-- Whether the path leads to a file or a folder. -/
  leads : String → m Bool
  /-- The content of a file. -/
  read : String → m (Except FileError String)
  /-- Makes the folder that holds a file, and the folders on the way. -/
  makeParents : String → m (Except FileError Unit)
  /-- Gives a file its content, making the file if there is none. -/
  write : String → String → m (Except FileError Unit)

end RecordQuery

/-!
Files as far as the commands need them: which paths lead to files and directories, what these
hold, and the two ways to change them.
-/

namespace ResponseShape

inductive FileError where
  | notFound
  | alreadyExists
  | notDirectory
  | isDirectory
  | nameTooLong
  | denied
  /-- A path with a zero character. -/
  | zeroInName
  /-- A content that is no UTF-8. -/
  | notText
  | other (text : String)
  deriving DecidableEq, Repr

def FileError.message : FileError → String
  | notFound => "No such file or directory (os error 2)"
  | alreadyExists => "File exists (os error 17)"
  | notDirectory => "Not a directory (os error 20)"
  | isDirectory => "Is a directory (os error 21)"
  | nameTooLong => "File name too long (os error 36)"
  | denied => "Permission denied (os error 13)"
  | zeroInName => "file name contained an unexpected NUL byte"
  | notText => "stream did not contain valid UTF-8"
  | other text => text

inductive FileKind where
  | file
  | directory
  deriving DecidableEq, Repr

structure FileSystem (m : Type → Type) where
  kind? : String → m (Option FileKind)
  /-- The names in a directory, in any order. -/
  entries : String → m (Except FileError (List String))
  read : String → m (Except FileError ByteArray)
  createDirectory : String → m (Except FileError Unit)
  write : String → ByteArray → m (Except FileError Unit)

end ResponseShape

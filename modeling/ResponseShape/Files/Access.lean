import ResponseShape.Files.Path
import ResponseShape.Files.System

/-!
What the commands do with a file system: reading texts, and creating a directory with all those
around it.
-/

namespace ResponseShape.FileSystem

variable {m : Type → Type} [Monad m] (files : FileSystem m)

def isDirectory (path : String) : m Bool := do return (← files.kind? path) == some .directory

def textOf (content : ByteArray) : Except FileError String :=
  match String.fromUTF8? content with
  | some text => .ok text
  | none => .error .notText

def readText (path : String) : m (Except FileError String) := do
  return (← files.read path).bind textOf

def createWithin (create : String → m (Except FileError Unit)) (path : String) :
    m (Except FileError Unit) := do
  match ← files.createDirectory path with
  | .ok () => return .ok ()
  | .error .notFound =>
    match Path.parent? path with
    | none => return .error .notFound
    | some parent =>
      match ← create parent with
      | .error e => return .error e
      | .ok () => settle (← files.createDirectory path)
  | .error e => settle (.error e)
where
  settle : Except FileError Unit → m (Except FileError Unit)
    | .ok () => return .ok ()
    | .error e => do return if ← files.isDirectory path then .ok () else .error e

def createAllWithin : Nat → String → m (Except FileError Unit)
  | 0, _ => return .ok ()
  | depth + 1, path =>
    if path.isEmpty then return .ok () else createWithin files (createAllWithin depth) path

/-- Creates a directory and those around it. A path has fewer directories than characters. -/
def createAll (path : String) : m (Except FileError Unit) :=
  createAllWithin files (path.length + 1) path

end ResponseShape.FileSystem

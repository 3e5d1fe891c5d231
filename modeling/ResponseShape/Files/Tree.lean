import ResponseShape.Files.Access

/-!
Directory trees in memory. A tree lists its files and directories by their steps from the top; the
top itself is always a directory, and so is what lies around it, of which nothing else is known. A
path is followed step by step, so each directory on the way has to exist.
-/

namespace ResponseShape

inductive TreeNode where
  | file (content : ByteArray)
  | directory

abbrev Steps := List String

structure Tree where
  nodes : List (Steps × TreeNode)

namespace Tree

def empty : Tree := ⟨[]⟩

def outside : Steps := [".."]

def node? (t : Tree) (steps : Steps) : Option TreeNode :=
  if steps.isEmpty || steps == outside then some .directory else t.nodes.lookup steps

def put (t : Tree) (steps : Steps) (node : TreeNode) : Tree :=
  ⟨(steps, node) :: t.nodes.filter fun n => n.1 != steps⟩

def children (t : Tree) (steps : Steps) : List String :=
  t.nodes.filterMap fun n =>
    if n.1.dropLast == steps then n.1.getLast? else none

def maxNameBytes : Nat := 255

def maxPathBytes : Nat := 4095

def above (place : Steps) : Steps :=
  if place.isEmpty || place == outside then outside else place.dropLast

def follow (t : Tree) (place : Steps) : List String → Except FileError Steps
  | [] => .ok place
  | step :: rest =>
    match t.node? place with
    | none => .error .notFound
    | some (.file _) => .error .notDirectory
    | some .directory =>
      if step = "" ∨ step = "." then t.follow place rest
      else if step = ".." then t.follow (above place) rest
      else if maxNameBytes < step.utf8ByteSize then .error .nameTooLong
      else t.follow (place ++ [step]) rest

def resolve (t : Tree) (path : String) (steps : List String) : Except FileError Steps :=
  if path.toList.contains '\x00' then .error .zeroInName
  else if maxPathBytes < path.utf8ByteSize then .error .nameTooLong
  else if path.isEmpty then .error .notFound
  else t.follow (if Path.isAbsolute path then outside else []) steps

def find (t : Tree) (path : String) : Except FileError (Steps × TreeNode) := do
  let place ← t.resolve path (Path.steps path)
  match t.node? place with
  | some node => return (place, node)
  | none => .error .notFound

def kind? (t : Tree) (path : String) : Option FileKind :=
  match t.find path with
  | .ok (_, .file _) => some .file
  | .ok (_, .directory) => some .directory
  | .error _ => none

def entries (t : Tree) (path : String) : Except FileError (List String) := do
  match ← t.find path with
  | (_, .file _) => .error .notDirectory
  | (place, .directory) => return t.children place

def read (t : Tree) (path : String) : Except FileError ByteArray := do
  match ← t.find path with
  | (_, .file content) => return content
  | (_, .directory) => .error .isDirectory

def createDirectory (t : Tree) (path : String) : Except FileError Tree := do
  let place ← t.resolve path (Path.steps path)
  match t.node? place with
  | some _ => .error .alreadyExists
  | none => return t.put place .directory

/-- Writes a file anew. A path that ends in a slash can only be a directory. -/
def write (t : Tree) (path : String) (content : ByteArray) : Except FileError Tree := do
  let place ← t.resolve path ((Path.steps path).reverse.dropWhile (· = "")).reverse
  if Path.endsInSlash path then .error .isDirectory
  else
    match t.node? place with
    | some .directory => .error .isDirectory
    | _ => return t.put place (.file content)

def change (step : Tree → Except FileError Tree) : StateM Tree (Except FileError Unit) := fun t =>
  match step t with
  | .ok t' => (.ok (), t')
  | .error e => (.error e, t)

def files : FileSystem (StateM Tree) where
  kind? path := fun t => (t.kind? path, t)
  entries path := fun t => (t.entries path, t)
  read path := fun t => (t.read path, t)
  createDirectory path := change fun t => t.createDirectory path
  write path content := change fun t => t.write path content

def addFile (t : Tree) (path : String) (content : ByteArray) : Tree :=
  let write : StateM Tree (Except FileError Unit) := do
    let _ ← files.createAll ((Path.parent? path).getD "")
    files.write path content
  (write.run t).2

end Tree

end ResponseShape

import ResponseShape.Files.Access
import ResponseShape.Files.Pattern

/-!
The paths that a pattern for paths fits. The entries of a directory come in the order of their
names, and what lies in a directory comes at its place.
-/

namespace ResponseShape

inductive ExpansionError where
  | malformed (e : PatternError)
  | unreadable (directory : String) (e : FileError)
  | noMatch (pattern : String)
  deriving DecidableEq, Repr

def ExpansionError.message : ExpansionError → String
  | malformed e => e.message
  | unreadable directory e =>
    "attempting to read \x60" ++ directory ++ "\x60 resulted in an error: " ++ e.message
  | noMatch pattern => "glob pattern matched no files: " ++ pattern

namespace FileSystem

variable {m : Type → Type} [Monad m] (files : FileSystem m)

abbrev Search (m : Type → Type) := ExceptT ExpansionError m (List String)

def isHere (path : String) : Bool :=
  path.toList.head? == some '.' && (Path.steps path).all fun step => step == "" || step == "."

def entryPath (directory name : String) : String :=
  if isHere directory then name else Path.join directory name

def entriesInOrder (directory : String) : Search m := do
  match ← (files.entries directory : m _) with
  | .ok names => return names.mergeSort (· ≤ ·)
  | .error e => throw (.unreadable directory e)

section Step

variable (directoriesOnly : Bool) (descend : List Pattern → String → Search m)

/-- Goes on with the later steps of a pattern at a path that its first steps fit. -/
def advance (later : List Pattern) (path : String) : Search m := do
  if !later.isEmpty then descend later path
  else if directoriesOnly && !(← (files.isDirectory path : m _)) then return []
  else return [path]

def fitEntry (steps : List Pattern) (path name : String) : Search m :=
  match steps with
  | [] => return []
  | step :: later =>
    if step.fitsName name then advance files directoriesOnly descend later path else return []

/-- What the steps of a pattern fit at and below an entry. Behind `**` the entry itself can fit the
next step, and so can everything below it. -/
def visit (steps : List Pattern) (path name : String) : Search m := do
  match steps with
  | [] => return []
  | step :: later =>
    if !step.isRecursive then fitEntry files directoriesOnly descend (step :: later) path name
    else
      let later := later.dropWhile Pattern.isRecursive
      if !(← (files.isDirectory path : m _)) then
        fitEntry files directoriesOnly descend later path name
      else
        let itself ←
          if later.isEmpty then pure [path]
          else fitEntry files directoriesOnly descend later path name
        return itself ++ (← descend (step :: later) path)

/-- What the steps of a pattern fit below a path. A step without wildcards is looked up; points
are no entries and fit only steps that begin with one. -/
def search (steps : List Pattern) (path : String) : Search m := do
  match steps with
  | [] => return []
  | step :: later =>
    match step.literal? with
    | some name =>
      let next := entryPath path name
      let isPoint := name == "." || name == ".."
      let kind ← (files.kind? (if isPoint then path else next) : m _)
      let found := if isPoint then kind == some .directory else kind.isSome
      if found then advance files directoriesOnly descend later next else return []
    | none =>
      if !(← (files.isDirectory path : m _)) then return []
      let names ← entriesInOrder files path
      let points :=
        if step.head? == some (.char '.') then ["..", "."].filter step.fitsName else []
      let fromPoints ← points.mapM fun point =>
        advance files directoriesOnly descend later (Path.join path point)
      let fromEntries ← names.mapM fun name =>
        visit files directoriesOnly descend steps (entryPath path name) name
      return (fromPoints ++ fromEntries).flatten

end Step

def searchWithin (directoriesOnly : Bool) : Nat → List Pattern → String → Search m
  | 0, _, _ => return []
  | depth + 1, steps, path =>
    search files directoriesOnly (searchWithin directoriesOnly depth) steps path

/-- More directories than a path can lead through. -/
def maxDepth : Nat := 4096

def startOf (pattern : String) : String × List String :=
  let steps := Path.steps pattern
  let steps := if Path.endsInSlash pattern then steps.dropLast else steps
  if Path.isAbsolute pattern then ("/", steps.drop 1) else (".", steps)

def expand (pattern : String) : Search m := do
  let compiled := do
    let _ ← Pattern.ofText pattern
    (startOf pattern).2.mapM Pattern.ofText
  match compiled with
  | .error e => throw (.malformed e)
  | .ok steps =>
    let found ← searchWithin files (Path.endsInSlash pattern) (maxDepth + steps.length) steps
      (startOf pattern).1
    if found.isEmpty then throw (.noMatch pattern) else return found

def hasWildcard (path : String) : Bool :=
  path.toList.any fun c => c = '*' || c = '?' || c = '[' || c = '\x7b'

def select (written : List String) : m (Except ExpansionError (List String)) :=
  ExceptT.run do
    let found ← written.mapM fun path =>
      if hasWildcard path then expand files path else (return [path] : Search m)
    return found.flatten

end FileSystem

end ResponseShape

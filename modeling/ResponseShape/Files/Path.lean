/-!
Paths as they are written: steps between slashes. No step is looked up here.
-/

namespace ResponseShape.Path

/-- The steps of a path. Slashes next to each other have an empty step between them. -/
def stepsOf : List Char → List (List Char)
  | [] => [[]]
  | c :: rest =>
    if c = '/' then [] :: stepsOf rest
    else
      match stepsOf rest with
      | [] => [[c]]
      | first :: later => (c :: first) :: later

def steps (path : String) : List String := (stepsOf path.toList).map String.ofList

def ofSteps (steps : List String) : String := "/".intercalate steps

def isAbsolute (path : String) : Bool := path.toList.head? == some '/'

def endsInSlash (path : String) : Bool := path.toList.getLast? == some '/'

def join (directory name : String) : String :=
  if directory.isEmpty || endsInSlash directory then directory ++ name
  else directory ++ "/" ++ name

/-- Steps in reverse order without those in front that lead nowhere. A point that begins a path
counts as a step. -/
def trim : List String → List String
  | [] => []
  | "" :: earlier => trim earlier
  | "." :: step :: earlier => trim (step :: earlier)
  | steps => steps

def parent? (path : String) : Option String :=
  match trim (steps path).reverse with
  | [] => none
  | _ :: earlier =>
    let rest := trim earlier
    some (if rest.isEmpty && isAbsolute path then "/" else ofSteps rest.reverse)

end ResponseShape.Path

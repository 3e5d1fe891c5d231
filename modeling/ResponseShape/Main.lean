import ResponseShape.Command.Run

/-!
The command line program on the files of the machine.
-/

namespace ResponseShape

def FileError.ofIO : IO.Error → FileError
  | .noFileOrDirectory .. => .notFound
  | .noSuchThing .. => .notFound
  | .alreadyExists .. => .alreadyExists
  | .permissionDenied .. => .denied
  | .inappropriateType _ 20 _ => .notDirectory
  | .inappropriateType _ 21 _ => .isDirectory
  | .invalidArgument _ 36 _ => .nameTooLong
  | e => .other (toString e)

def attempt (action : IO α) : IO (Except FileError α) := do
  match ← action.toBaseIO with
  | .ok a => return .ok a
  | .error e => return .error (.ofIO e)

def placeOf (path : String) : IO.FS.DirEntry := ⟨path, ""⟩

def machineFiles : FileSystem IO where
  kind? path := do
    match ← attempt (placeOf path).root.metadata with
    | .error _ => return none
    | .ok found => return some (if found.type == .dir then .directory else .file)
  entries path := attempt do return (← (placeOf path).root.readDir).toList.map (·.fileName)
  read path := attempt (IO.FS.readBinFile path)
  createDirectory path := attempt (IO.FS.createDir path)
  write path content := attempt (IO.FS.writeBinFile path content)

namespace UsageError

def usage : String :=
  "usage: response-shape [-v] schema -i FILE... [--config FILE] [--class NAME]... "
    ++ "[--jq-expr FILTER] [-o FILE] [--no-op]\n"
    ++ "       response-shape [-v] sample -i FILE... [--config FILE] --class NAME\n"

def message : UsageError → String
  | helpAsked | nothingGiven => usage
  | versionAsked => "response-shape 0.1.0\n"
  | missingCommand => "error: a command is missing\n"
  | unknownCommand => "error: unknown command\n"
  | unknownArgument => "error: unexpected argument\n"
  | missingArgument => "error: a required argument is missing\n"
  | missingValue => "error: a value is missing\n"
  | surplusValue => "error: unexpected value\n"
  | repeatedOption => "error: an option cannot be repeated\n"

def isRequest : UsageError → Bool
  | helpAsked | versionAsked => true
  | _ => false

end UsageError

def Failure.render (e : Failure) : String :=
  match e.causes with
  | [] => ""
  | [only] => "Error: " ++ only ++ "\n"
  | [outer, inner] => "Error: " ++ outer ++ "\n\nCaused by:\n    " ++ inner ++ "\n"
  | outer :: causes =>
    let numbered := causes.zipIdx.map fun c => "    " ++ Nat.repr c.2 ++ ": " ++ c.1 ++ "\n"
    "Error: " ++ outer ++ "\n\nCaused by:\n" ++ "".intercalate numbered

end ResponseShape

open ResponseShape in
def main (words : List String) : IO UInt32 := do
  let output ← IO.getStdout
  let log ← IO.getStderr
  match Command.ofWords words with
  | .error e =>
    if e.isRequest then
      output.putStr e.message
      return 0
    else
      log.putStr e.message
      return 2
  | .ok command =>
    let report ← command.run machineFiles
    log.putStr report.log
    output.putStr report.output
    match report.failure with
    | none => return 0
    | some e =>
      log.putStr e.render
      return 1

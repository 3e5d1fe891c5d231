import ResponseShape.Files.Expansion
import ResponseShape.Inference.ConfigFile
import ResponseShape.Source.Fault

/-!
What makes a command fail. A failure is reported with its causes, from the task that failed down to
what went wrong.
-/

namespace ResponseShape

inductive Failure where
  | unreadableConfig (path : String) (e : FileError)
  | invalidConfig (path : String) (e : ConfigError)
  | patterns (e : ExpansionError)
  | unreadableSource (path : String) (e : FileError)
  | invalidSource (path : String) (e : ParseError)
  | unknownClass (filter : String)
  | ambiguousClass (filter : String) (candidates : List String)
  | query
  | uncreatedDirectory (path : String) (e : FileError)
  | unwritten (path : String) (e : FileError)
  deriving DecidableEq, Repr

namespace Failure

def marked (s : String) : String := "\x60" ++ s ++ "\x60"

def causes : Failure → List String
  | unreadableConfig path e =>
    ["failed to load config " ++ path, "failed to read " ++ path ++ ": " ++ e.message, e.message]
  | invalidConfig path e =>
    ["failed to load config " ++ path, "invalid config " ++ path ++ ": " ++ e.message]
  | patterns e => ["failed to resolve input file paths", e.message]
  | unreadableSource path e =>
    ["failed to load sources", "failed to read " ++ path ++ ": " ++ e.message, e.message]
  | invalidSource path e =>
    ["failed to load sources", "failed to parse " ++ path ++ ": " ++ e.message, e.message]
  | unknownClass filter => ["unknown class " ++ marked filter]
  | ambiguousClass filter candidates =>
    ["class " ++ marked filter ++ " is ambiguous: " ++ ", ".intercalate candidates]
  | query => ["failed to apply jq expression to the document"]
  | uncreatedDirectory path e => ["failed to create " ++ path, e.message]
  | unwritten path e => ["failed to write " ++ path, e.message]

end Failure

end ResponseShape

import ResponseShape.Inference.Config
import ResponseShape.Json.Printer
import ResponseShape.Json.Reader
import ResponseShape.Text.Shown

/-!
Configurations as JSON: an object with any of the settings, or an array of them in order. The text
is read from left to right, and the first thing that does not fit is reported with its place; what
follows the value is not looked at.
-/

namespace ResponseShape

inductive JsonStep where
  | key (name : String)
  | index (n : Nat)
  deriving DecidableEq, Repr

namespace JsonStep

def renderFrom : Bool → List JsonStep → String
  | _, [] => ""
  | isFirst, .key name :: rest => (if isFirst then "" else ".") ++ name ++ renderFrom false rest
  | _, .index n :: rest => "[" ++ Nat.repr n ++ "]" ++ renderFrom false rest

def render (steps : List JsonStep) : String :=
  if steps.isEmpty then "." else renderFrom true steps

end JsonStep

inductive ConfigError where
  /-- The text is no JSON, or an array holds more than the settings. -/
  | malformed
  | invalidType (place : List JsonStep) (found expected : String)
  | duplicateField (name : String)
  deriving DecidableEq, Repr

namespace ConfigError

def placed (place : List JsonStep) (detail : String) : String :=
  "at JSON path " ++ JsonStep.render place ++ " → " ++ detail

def message : ConfigError → String
  | malformed => "syntax"
  | invalidType place found expected =>
    placed place ("invalid type: " ++ found ++ ", expected " ++ expected)
  | duplicateField name => placed [] ("duplicate field \x60" ++ name ++ "\x60")

end ConfigError

namespace ConfigFile

open Json.Reader

abbrev Result (α : Type) := Except ConfigError (α × Bytes)

def wellFormed : Option (α × Bytes) → Result α
  | none => .error .malformed
  | some r => .ok r

def marked (s : String) : String := "\x60" ++ s ++ "\x60"

def describe : Json → String
  | .null => "null"
  | .bool true => "boolean " ++ marked "true"
  | .bool false => "boolean " ++ marked "false"
  | .number (.whole n) => "integer " ++ marked (JsonNumber.whole n).render
  | .number (.real x) => "floating point " ++ marked (JsonNumber.real x).render
  | .string s => "string " ++ Text.showQuoted s
  | .array _ => "sequence"
  | .object _ => "map"

/-- The error of a value that is not of the type expected. Of an array or an object only the first
character is read, any other value as a whole. -/
def refuse (place : List JsonStep) (expected : String) (input : Bytes) : ConfigError :=
  match input with
  | [] => .malformed
  | b :: _ =>
    if b == code '[' then .invalidType place (describe (.array [])) expected
    else if b == code '\x7b' then .invalidType place (describe (.object [])) expected
    else
      match scalar? input with
      | none => .malformed
      | some (value, _) => .invalidType place (describe value) expected

def string (place : List JsonStep) (input : Bytes) : Result String :=
  let input := skipBlank input
  match word? "\"" input with
  | some rest => wellFormed (string? rest)
  | none => .error (refuse place "a string" input)

inductive NextItem where
  | item (input : Bytes)
  | done (rest : Bytes)

def nextItem? (isFirst : Bool) (input : Bytes) : Option NextItem :=
  match skipBlank input with
  | [] => none
  | b :: rest =>
    if b == code ']' then some (.done rest)
    else if isFirst then some (.item (b :: rest))
    else if b == code ',' then
      match skipBlank rest with
      | [] => none
      | c :: rest => if c == code ']' then none else some (.item (c :: rest))
    else none

def stringsFrom (place : List JsonStep) : Nat → List String → Bytes →
    Except ConfigError (List String × Bytes)
  | 0, _, _ => .error .malformed
  | fuel + 1, seen, input =>
    match nextItem? seen.isEmpty input with
    | none => .error .malformed
    | some (.done rest) => .ok (seen, rest)
    | some (.item input) => do
      let (s, rest) ← string (place ++ [.index seen.length]) input
      stringsFrom place fuel (seen ++ [s]) rest

def strings (place : List JsonStep) (input : Bytes) : Result (List String) :=
  let input := skipBlank input
  match word? "[" input with
  | some rest => stringsFrom place (rest.length + 1) [] rest
  | none => .error (refuse place "a sequence" input)

abbrev Setting := List JsonStep → Bytes → Result (Config → Config)

def text (set : String → Config → Config) : Setting := fun place input =>
  (string place input).map fun r => (set r.1, r.2)

def list (set : List String → Config → Config) : Setting := fun place input =>
  (strings place input).map fun r => (set r.1, r.2)

def settings : List (String × Setting) :=
  [("method", text fun s c => { c with method := s }),
   ("instance_var", text fun s c => { c with instanceVar := s }),
   ("conditional_field", list fun xs c => { c with conditionalField := xs }),
   ("merge", list fun xs c => { c with merge := xs }),
   ("conditional_merge", list fun xs c => { c with conditionalMerge := xs }),
   ("conditional_value", list fun xs c => { c with conditionalValue := xs })]

def ofItems : Nat → List (String × Setting) → Config → Bytes → Except ConfigError Config
  | index, [], c, input =>
    match nextItem? (index == 0) input with
    | some (.done _) => .ok c
    | _ => .error .malformed
  | index, (_, setting) :: later, c, input =>
    match nextItem? (index == 0) input with
    | none => .error .malformed
    | some (.done _) => .ok c
    | some (.item input) => do
      let (set, rest) ← setting [.index index] input
      ofItems (index + 1) later (set c) rest

/-- The next key of an object with what follows it, or `none` behind the last one. -/
def nextKey (isFirst : Bool) (input : Bytes) : Except ConfigError (Option (String × Bytes)) :=
  match skipBlank input with
  | [] => .error .malformed
  | b :: rest =>
    if b == code '\x7d' then .ok none
    else
      let start := if isFirst then some (b :: rest) else if b == code ',' then some rest else none
      match (start.map skipBlank).bind (word? "\"") with
      | none => .error .malformed
      | some rest => (wellFormed (string? rest)).map some

/-- The further members of an object. Those that are no settings are passed over. -/
def ofMembers : Nat → Bool → List String → Config → Bytes → Except ConfigError Config
  | 0, _, _, _, _ => .error .malformed
  | fuel + 1, isFirst, seen, c, input => do
    match ← nextKey isFirst input with
    | none => return c
    | some (key, rest) =>
      match settings.lookup key with
      | none =>
        match (word? ":" (skipBlank rest)).bind passValue? with
        | none => .error .malformed
        | some rest => ofMembers fuel false seen c rest
      | some setting =>
        if seen.contains key then .error (.duplicateField key)
        else
          match word? ":" (skipBlank rest) with
          | none => .error .malformed
          | some rest =>
            let (set, rest) ← setting [.key key] rest
            ofMembers fuel false (key :: seen) (set c) rest

end ConfigFile

open ConfigFile Json.Reader in
/-- The configuration that a JSON text gives, with the standard setting for each that it lacks. -/
def Config.ofBytes (input : Json.Reader.Bytes) : Except ConfigError Config :=
  let input := skipBlank input
  match word? "[" input, word? "\x7b" input with
  | some rest, _ => ofItems 0 settings .standard rest
  | none, some rest => ofMembers (rest.length + 1) true [] .standard rest
  | none, none => .error (refuse [] "struct InferenceConfig" input)

end ResponseShape

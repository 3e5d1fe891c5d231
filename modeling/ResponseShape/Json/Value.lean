import ResponseShape.Number.Binary64
import ResponseShape.Table

/-!
JSON values. An object keeps its members in order; a number is whole or binary floating-point.
-/

namespace ResponseShape

inductive JsonNumber where
  | whole (n : Int)
  | real (x : Binary64)
  deriving DecidableEq, Repr

inductive Json where
  | null
  | bool (b : Bool)
  | number (n : JsonNumber)
  | string (s : String)
  | array (items : List Json)
  | object (members : List (String × Json))
  deriving Repr, Inhabited

namespace Json

def nat (n : Nat) : Json := .number (.whole n)

def strings (items : List String) : Json := .array (items.map .string)

def ofMembers (members : List (String × Json)) : Json :=
  .object (members.foldl (fun seen m => Association.write m.1 m.2 seen) [])

def member? (key : String) : Json → Option Json
  | .object members => Association.find? key members
  | _ => none

end Json

end ResponseShape

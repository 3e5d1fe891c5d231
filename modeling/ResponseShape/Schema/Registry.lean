import ResponseShape.Schema.Basic

/-!
The named schemas of one document. A name is reserved before its schema is known, and a reserved
name can already be referred to, so that classes may refer to each other in circles.
-/

namespace ResponseShape

inductive Entry where
  /-- The schema under this name is still to come. -/
  | reserved
  | ready (schema : Schema)

structure Registry where
  entries : Table Entry

structure SchemaRef where
  name : String
  deriving DecidableEq, Repr

namespace SchemaRef

def pointer (r : SchemaRef) : String := Schema.pointer r.name

def toSchema (r : SchemaRef) : Schema := .reference r.name

end SchemaRef

namespace Registry

def empty : Registry := ⟨.empty⟩

def has (r : Registry) (name : String) : Bool := r.entries.contains name

def entry? (r : Registry) (name : String) : Option Entry := r.entries.find? name

def schema? (r : Registry) (name : String) : Option Schema :=
  match r.entry? name with
  | some (.ready schema) => some schema
  | _ => none

def reserve (r : Registry) (name : String) : Registry :=
  if r.has name then r else ⟨r.entries.insert name .reserved⟩

def store (r : Registry) (name : String) (schema : Schema) : Registry :=
  ⟨r.entries.insert name (.ready schema)⟩

/-- Entries without a schema stand as bare objects. -/
def entryJson : Entry → Json
  | .ready schema => schema.toJson
  | .reserved => .object [("type", .string "object")]

def toJson (r : Registry) : Json :=
  .object (r.entries.entries.map fun e => (e.1, entryJson e.2))

end Registry

/-- What one run produces: the shared schemas and the response of each class. -/
structure Document where
  components : Registry
  responses : Table Response

namespace Document

def empty : Document := ⟨.empty, .empty⟩

def toJson (d : Document) : Json :=
  .object [("components", .object [("schemas", d.components.toJson)]),
    ("responses", .object (d.responses.entries.map fun e => (e.1, e.2.toJson)))]

end Document

end ResponseShape

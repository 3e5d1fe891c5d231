import ResponseShape.Schema.Registry

/-!
Shapes: the inferred types of array entries, and the schemas they give rise to. A list of fields
holds each key once; writing a key again keeps its place.
-/

namespace ResponseShape

mutual

inductive Shape where
  | literal
  /-- A value of unknown type. -/
  | scalar
  | reference (name : String)
  | record (fields : List Field)

/-- One entry of an array. Without a key it is no part of a schema. -/
inductive Field where
  | mk (key : Option String) (shape : Shape) (required : Bool)

end

instance : Inhabited Shape := ⟨.scalar⟩

namespace Field

def key : Field → Option String
  | mk key _ _ => key

def shape : Field → Shape
  | mk _ shape _ => shape

def required : Field → Bool
  | mk _ _ required => required

def asOptional : Field → Field
  | mk key shape _ => mk key shape false

def write (f : Field) : List Field → List Field
  | [] => [f]
  | g :: rest => if f.key.isSome ∧ g.key = f.key then f :: rest else g :: write f rest

def splice (fields : List Field) (optional : Bool) (into : List Field) : List Field :=
  fields.foldl (fun into f => (if optional then f.asOptional else f).write into) into

end Field

structure Inferred where
  fields : List Field
  required : List String

namespace Inferred

def ofFields (fields : List Field) : Inferred :=
  ⟨fields, ((fields.filter Field.required).filterMap Field.key).eraseDups⟩

def field? (r : Inferred) (key : String) : Option Field :=
  r.fields.find? fun f => f.key == some key

def keys (r : Inferred) : List String := r.fields.filterMap Field.key

end Inferred

namespace Schema

mutual

/-- Literals and unknown values are both documented as strings. -/
def ofShape : Shape → Schema
  | .literal | .scalar => .string
  | .reference name => .reference name
  | .record fields => .object (propertiesOf fields)

def propertiesOf : List Field → List Property
  | [] => []
  | .mk none _ _ :: rest => propertiesOf rest
  | .mk (some key) shape required :: rest => ⟨key, ofShape shape, required⟩ :: propertiesOf rest

end

def ofFields (fields : List Field) : Schema := .object (propertiesOf fields)

/-- The schema of an inferred array. On its own level the list of required keys decides. -/
def ofInferred (r : Inferred) : Schema :=
  .object ((propertiesOf r.fields).map fun p => ⟨p.name, p.schema, r.required.contains p.name⟩)

end Schema

def Registry.build (r : Registry) (name : String) (inferred : Inferred) : Registry :=
  r.store name (Schema.ofInferred inferred)

end ResponseShape

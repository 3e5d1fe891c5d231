import ResponseShape.Json.Value

/-!
Schemas of JSON documents, as far as resource classes give rise to them, and their JSON form.
-/

namespace ResponseShape

mutual

inductive Schema where
  | string
  | object (properties : List Property)
  | reference (name : String)

inductive Property where
  | mk (name : String) (schema : Schema) (required : Bool)

end

instance : Inhabited Schema := ⟨.string⟩

namespace Property

def name : Property → String
  | mk name _ _ => name

def schema : Property → Schema
  | mk _ schema _ => schema

def required : Property → Bool
  | mk _ _ required => required

end Property

namespace Schema

def properties : Schema → List Property
  | object properties => properties
  | _ => []

def property? (s : Schema) (name : String) : Option Property :=
  s.properties.find? fun p => p.name == name

def requiredNames (properties : List Property) : List String :=
  (properties.filter Property.required).map Property.name

def required (s : Schema) : List String := requiredNames s.properties

def pointer (name : String) : String := "#/components/schemas/" ++ name

mutual

/-- Of two properties with one name the later gives the schema and the earlier the place. -/
def toJson : Schema → Json
  | string => .object [("type", .string "string")]
  | reference name => .object [("$ref", .string (pointer name))]
  | object properties =>
    let required := requiredNames properties
    .object ([("type", .string "object"), ("properties", .ofMembers (membersJson properties))]
      ++ if required.isEmpty then [] else [("required", .strings required)])

def membersJson : List Property → List (String × Json)
  | [] => []
  | .mk name schema _ :: rest => (name, schema.toJson) :: membersJson rest

end

end Schema

structure Response where
  status : Nat
  contentType : String
  schema : Schema

namespace Response

def json (status : Nat) (schema : Schema) : Response := ⟨status, "application/json", schema⟩

def toJson (r : Response) : Json :=
  let body : Json := .object [(r.contentType, .object [("schema", r.schema.toJson)])]
  .object [(Nat.repr r.status, .object [("content", body)])]

end Response

end ResponseShape

import ResponseShape.Inference.Outline
import ResponseShape.Inference.Shape
import ResponseShape.Workspace

/-!
Inference proper: shapes from outlines, where each class that is constructed gets a schema of its
own on the way. A class is reserved before its array is read and is never read again, so circles
of classes come to an end: with each class fewer names are left to reserve.
-/

namespace ResponseShape

namespace OutlineEntry

variable {m : Type → Type} [Monad m] (construct : Name → m Shape)

mutual

/-- The shape of a field. A record without a single literal key has none. -/
def shape? : Outline → m (Option Shape)
  | .literal => pure (some .literal)
  | .scalar => pure (some .scalar)
  | .construct owner => do return some (← construct owner)
  | .record entries => do
    let fields ← fieldsAfter [] entries
    return if fields.all fun f => f.key.isNone then none else some (.record fields)

def fieldsAfter (fields : List Field) : List OutlineEntry → m (List Field)
  | [] => pure fields
  | .field key outline optional :: rest => do
    match ← shape? outline with
    | none => fieldsAfter fields rest
    | some shape => fieldsAfter (Field.write ⟨key, shape, !optional⟩ fields) rest
  | .splice entries optional :: rest => do
    let inner ← fieldsAfter [] entries
    fieldsAfter (Field.splice inner optional fields) rest

end

end OutlineEntry

/-- What the names in an array mean: the file it stands in and the class being read, if any. -/
structure Reader where
  scope : Scope
  enclosing : Option String

namespace Reader

/-- `self` and `static` name the class being read. -/
def isSelf (name : Name) : Bool :=
  name.form == .unqualified
    && (Text.sameIgnoringCase name.text "self" || Text.sameIgnoringCase name.text "static")

def className (reader : Reader) (w : Workspace) (name : Name) : String :=
  match reader.enclosing with
  | some fullName => if isSelf name then fullName else reader.scope.fullName w.declares name
  | none => reader.scope.fullName w.declares name

/-- The shape of a constructed class: a reference if the class has a schema, which `visit` finds
out. -/
def construct (reader : Reader) (w : Workspace)
    (visit : String → StateM Registry (Option SchemaRef)) (name : Name) :
    StateM Registry Shape := do
  let fullName := reader.className w name
  if w.declares fullName then
    match ← visit fullName with
    | some r => return .reference r.name
    | none => return .scalar
  else return .scalar

end Reader

namespace Inference

/-- How many classes of the workspace have no name in the registry yet. -/
def pending (w : Workspace) (r : Registry) : Nat :=
  (w.classNames.filter fun fullName => !r.has (shortName fullName)).length

variable (config : Config) (w : Workspace)

section Step

variable (visit : String → StateM Registry (Option SchemaRef))

def fieldsOf (reader : Reader) (items : List ArrayItem) : StateM Registry (List Field) :=
  OutlineEntry.fieldsAfter (reader.construct w visit) [] (config.outline items)

/-- Stores the schema of a body that returns an array, under the short name of its class, unless
that name is taken. -/
def inferBodyWith (fullName : String) (body : List Stmt) (scope : Scope) :
    StateM Registry (Option SchemaRef) := do
  let name := shortName fullName
  if (← get).has name then return some ⟨name⟩
  match returnValue? body with
  | some (.array items) =>
    modify (·.reserve name)
    let fields ← fieldsOf config w visit ⟨scope, some fullName⟩ items
    modify (·.build name (.ofFields fields))
    return some ⟨name⟩
  | _ => return none

def inferClassWith (fullName : String) : StateM Registry (Option SchemaRef) := do
  let name := shortName fullName
  if (← get).has name then return some ⟨name⟩
  match w.find? fullName with
  | none => return none
  | some t =>
    match t.body? config.method with
    | none => return none
    | some body => inferBodyWith config w visit fullName body t.scope

end Step

/-- Stores the schema of a class and of all classes it constructs. Behind a class that is read
fewer classes are pending. -/
def inferClass (fullName : String) (r : Registry) : Option SchemaRef × Registry :=
  inferClassWith config w
    (fun other r' => if _h : pending w r' < pending w r then inferClass other r' else (none, r'))
    fullName r
termination_by pending w r

def inferBody (fullName : String) (body : List Stmt) (scope : Scope) :
    StateM Registry (Option SchemaRef) :=
  inferBodyWith config w (inferClass config w) fullName body scope

def respond? (fullName : String) : StateM Registry (Option Response) := do
  return (← inferClass config w fullName).map fun r => Response.json 200 r.toSchema

def infer? (reader : Reader) (e : Expr) : StateM Registry (Option Inferred) :=
  match e with
  | .array items => do
    return some (.ofFields (← fieldsOf config w (inferClass config w) reader items))
  | _ => return none

/-- The fields that the method of a class returns. The class itself gets no schema. -/
def sample? (fullName : String) : StateM Registry (Option Inferred) := do
  let found := do
    let t ← w.find? fullName
    return (t.scope, ← returnValue? (← t.body? config.method))
  match found with
  | none => return none
  | some (scope, e) => infer? config w ⟨scope, some fullName⟩ e

inductive Contributed where
  | field (shape : Shape) (required : Bool)
  /-- The fields of another array, if the content is one. -/
  | expand (content : Expr) (optional : Bool)

def contributed? (reader : Reader) (e : Expr) : StateM Registry (Option Contributed) := do
  let construct := reader.construct w (inferClass config w)
  let field (outline : Outline) (optional : Bool) : StateM Registry (Option Contributed) := do
    return (← OutlineEntry.shape? construct outline).map (.field · !optional)
  match config.read? e with
  | none => return none
  | some ⟨.splice content, optional⟩ => return some (.expand content optional)
  | some ⟨.literal, optional⟩ => field .literal optional
  | some ⟨.scalar, optional⟩ => field .scalar optional
  | some ⟨.construct owner, optional⟩ => field (.construct owner) optional
  | some ⟨.record items, optional⟩ => field (.record (config.outline items)) optional

end Inference

end ResponseShape

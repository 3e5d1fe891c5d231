import ResponseShape.Inference.Infer

/-!
The document of a list of classes: the response of each class that has one, and the schemas they
share.
-/

namespace ResponseShape

structure Finding where
  name : String
  path : Option String
  hasResponse : Bool
  deriving DecidableEq, Repr

namespace Document

def addClass (config : Config) (w : Workspace) (fullName : String) (d : Document) :
    Option Response × Document :=
  match (Inference.respond? config w fullName).run d.components with
  | (none, components) => (none, { d with components })
  | (some r, components) => (some r, ⟨components, d.responses.insert fullName r⟩)

def survey (config : Config) (w : Workspace) :
    List String → Document → List Finding × Document
  | [], d => ([], d)
  | fullName :: rest, d =>
    let (response?, d) := d.addClass config w fullName
    let path := (w.find? fullName).bind ResourceClass.path
    let (findings, d) := survey config w rest d
    (⟨fullName, path, response?.isSome⟩ :: findings, d)

/-- The document of a list of classes. -/
def ofClasses (config : Config) (w : Workspace) (fullNames : List String) : Document :=
  (survey config w fullNames empty).2

end Document

end ResponseShape

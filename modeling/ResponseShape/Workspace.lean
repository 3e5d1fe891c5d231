import ResponseShape.Grammar.Declaration
import ResponseShape.Source.DocComment
import ResponseShape.Source.Returns
import ResponseShape.Source.Scope

/-!
The classes of all source files by their full names. Of two declarations with one name the first
counts.
-/

namespace ResponseShape

structure ResourceClass where
  name : String
  decl : ClassDecl
  scope : Scope
  path : Option String

namespace ResourceClass

def body? (t : ResourceClass) (method : String) : Option (List Stmt) :=
  (t.decl.method? method).bind Method.body

end ResourceClass

structure Workspace where
  classes : Table ResourceClass

namespace Workspace

def empty : Workspace := ⟨.empty⟩

def declares (w : Workspace) (fullName : String) : Bool := w.classes.contains fullName

def find? (w : Workspace) (fullName : String) : Option ResourceClass :=
  w.classes.find? fullName

def classNames (w : Workspace) : List String := w.classes.keys

def addClass (w : Workspace) (t : ResourceClass) : Workspace :=
  if w.declares t.name then w else ⟨w.classes.insert t.name t⟩

def addFile (w : Workspace) (path : Option String) (u : SourceFile) : Workspace :=
  let scope := Scope.ofFile u
  u.classes.foldl (fun w c => w.addClass ⟨scope.ownName c.name, c, scope, path⟩) w

def addText (w : Workspace) (path : Option String) (source : String) :
    Except ParseError Workspace :=
  (SourceFile.ofText source).map (w.addFile path)

def classesWith (w : Workspace) (method : String) : List ResourceClass :=
  (w.classes.entries.map Prod.snd).filter fun t => (t.body? method).isSome

def modelNamespace : String := "App\\Models"

def modelName (className : String) : String :=
  let name := className.toList
  let ending := "Resource".toList
  if ending.isSuffixOf name then String.ofList (name.take (name.length - ending.length))
  else className

/-- The model class whose data a resource class shows, as far as one can tell: the one that its
documentation names, or else the one in the namespace of models that it is named after. Only
classes that exist are answered. -/
def model? (w : Workspace) (t : ResourceClass) : Option String :=
  let documented := do
    let written ← DocComment.model? (← t.decl.docComment)
    let fullName := t.scope.fullName w.declares (Name.ofWritten written)
    if w.declares fullName then some fullName else none
  let byName := Scope.join modelNamespace (modelName (shortName t.name))
  documented <|> if w.declares byName then some byName else none

end Workspace

end ResponseShape

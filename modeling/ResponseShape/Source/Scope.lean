import ResponseShape.Source.Tree
import ResponseShape.Table

/-!
What short names mean in one source file: its imports bind some, its namespace may hold others.
Every name resolves to something; one that nothing binds stands for itself.
-/

namespace ResponseShape

structure Scope where
  namespaceName : Option String
  /-- The full names that the imports bind; of two imports with one binding the later counts. -/
  aliases : Table String

namespace Scope

def global : Scope := ⟨none, .empty⟩

def ofFile (u : SourceFile) : Scope :=
  ⟨u.namespaceName.map Name.text, .ofList (u.imports.map fun i => (i.binding, i.name.text))⟩

def join (space name : String) : String := space ++ String.singleton separator ++ name

def ownName (scope : Scope) (name : String) : String :=
  match scope.namespaceName with
  | some space => join space name
  | none => name

/-- An import counts first, then a class of the file's own namespace that exists. -/
def resolve (scope : Scope) (known : String → Bool) (written : String) : String :=
  match scope.aliases.find? written with
  | some fullName => fullName
  | none =>
    let own := scope.ownName written
    if known own then own else written

/-- The full name of a name in its written form. Of a qualified name an import may bind the first
segment. -/
def fullName (scope : Scope) (known : String → Bool) (name : Name) : String :=
  match name.form with
  | .fullyQualified => name.text
  | .unqualified => scope.resolve known name.text
  | .qualified =>
    match scope.aliases.find? name.first with
    | some fullName => fullName ++ name.afterFirst
    | none => scope.resolve known name.text

end Scope

end ResponseShape

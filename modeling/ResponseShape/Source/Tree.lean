import ResponseShape.Number.Binary64
import ResponseShape.Source.Name

/-!
Syntax trees of the PHP that resource classes are written in: declarations, the bodies of their
methods, and expressions.
-/

namespace ResponseShape

inductive BinaryOp where
  | coalesce
  | or
  | and
  | equal
  | notEqual
  | identical
  | notIdentical
  | less
  | lessEqual
  | greater
  | greaterEqual
  | concat
  | add
  | sub
  | mul
  | div
  | mod
  | instanceOf
  deriving DecidableEq, Repr

inductive UnaryOp where
  | not
  | neg
  deriving DecidableEq, Repr

mutual

inductive Expr where
  | string (value : String)
  /-- A string with variable parts, as it is written. It is never a literal. -/
  | interpolated (raw : String)
  | number (value : Binary64)
  | bool (value : Bool)
  | null
  | var (name : String)
  | array (items : List ArrayItem)
  | property (target : Expr) (name : String) (nullsafe : Bool)
  | methodCall (target : Expr) (method : String) (args : List Expr) (nullsafe : Bool)
  | staticCall (owner : Name) (method : String) (args : List Expr)
  | classConstant (owner : Name) (name : String)
  | call (callee : Expr) (args : List Expr)
  | constant (name : Name)
  | new (owner : Name) (args : List Expr)
  | arrowFunction (params : List String) (body : Expr)
  | closure (params : List String) (body : List Stmt)
  | index (target : Expr) (index : Option Expr)
  | binary (op : BinaryOp) (lhs rhs : Expr)
  | unary (op : UnaryOp) (operand : Expr)
  /-- The middle part is missing in the short form. -/
  | ternary (condition : Expr) (middle : Option Expr) (otherwise : Expr)
  | assign (target value : Expr)

inductive ArrayItem where
  | mk (key : Option Expr) (value : Expr) (unpacked : Bool)

inductive Stmt where
  | ret (value : Option Expr)
  | expr (e : Expr)
  | branch (condition : Expr) (body : List Stmt) (elseIfs : List ElseIf)
      (otherwise : Option (List Stmt))
  | foreach (subject : Expr) (key : Option Expr) (value : Expr) (body : List Stmt)
  | block (body : List Stmt)

inductive ElseIf where
  | mk (condition : Expr) (body : List Stmt)

end

instance : Inhabited Expr := ⟨.null⟩

instance : Inhabited Stmt := ⟨.block []⟩

namespace ArrayItem

def key : ArrayItem → Option Expr
  | mk key _ _ => key

def value : ArrayItem → Expr
  | mk _ value _ => value

def unpacked : ArrayItem → Bool
  | mk _ _ unpacked => unpacked

end ArrayItem

namespace Expr

def literal? : Expr → Option String
  | string value => some value
  | _ => none

def isVar (name : String) : Expr → Bool
  | var v => v == name
  | _ => false

end Expr

/-- `use App\Models\User as Account;` -/
structure Import where
  name : Name
  alias? : Option String
  deriving DecidableEq, Repr

namespace Import

def binding (i : Import) : String := i.alias?.getD i.name.last

end Import

structure Method where
  name : String
  params : List String
  /-- Missing in abstract methods and in interfaces. -/
  body : Option (List Stmt)

structure ClassDecl where
  name : String
  docComment : Option String
  parent : Option Name
  interfaces : List Name
  methods : List Method

structure SourceFile where
  namespaceName : Option Name
  imports : List Import
  classes : List ClassDecl

end ResponseShape

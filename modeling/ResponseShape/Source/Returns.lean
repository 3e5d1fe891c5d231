import ResponseShape.Source.Tree
import ResponseShape.Text.Case

/-!
The returns of a method body in the order of the text, and the size of syntax trees, which bounds
what a return can hold: a returned expression is smaller than the body around it.
-/

namespace ResponseShape

mutual

def Stmt.returns : Stmt → List (Option Expr)
  | .ret value => [value]
  | .expr _ => []
  | .branch _ body elseIfs none => returnsOfBody body ++ returnsOfElseIfs elseIfs
  | .branch _ body elseIfs (some otherwise) =>
    returnsOfBody body ++ returnsOfElseIfs elseIfs ++ returnsOfBody otherwise
  | .foreach _ _ _ body => returnsOfBody body
  | .block body => returnsOfBody body

def returnsOfBody : List Stmt → List (Option Expr)
  | [] => []
  | s :: rest => s.returns ++ returnsOfBody rest

def returnsOfElseIfs : List ElseIf → List (Option Expr)
  | [] => []
  | .mk _ body :: rest => returnsOfBody body ++ returnsOfElseIfs rest

end

/-- The value of the first return. A return without a value hides those behind it. -/
def returnValue? (body : List Stmt) : Option Expr := (returnsOfBody body).head?.join

def ClassDecl.method? (c : ClassDecl) (name : String) : Option Method :=
  c.methods.find? fun m => Text.sameIgnoringCase m.name name

/-- What a callable without a call stands for: the value of an arrow function, the first return of
a closure. Anything else stands for itself. -/
def Expr.callResult? : Expr → Option Expr
  | .arrowFunction _ body => some body
  | .closure _ body => returnValue? body
  | e => some e

mutual

def Expr.nodes : Expr → Nat
  | .array items => nodesOfItems items + 1
  | .property target _ _ => target.nodes + 1
  | .methodCall target _ args _ => target.nodes + nodesOfArgs args + 1
  | .staticCall _ _ args => nodesOfArgs args + 1
  | .call callee args => callee.nodes + nodesOfArgs args + 1
  | .new _ args => nodesOfArgs args + 1
  | .arrowFunction _ body => body.nodes + 1
  | .closure _ body => nodesOfBody body + 1
  | .index target none => target.nodes + 1
  | .index target (some index) => target.nodes + index.nodes + 1
  | .binary _ lhs rhs => lhs.nodes + rhs.nodes + 1
  | .unary _ operand => operand.nodes + 1
  | .ternary condition none otherwise => condition.nodes + otherwise.nodes + 1
  | .ternary condition (some middle) otherwise =>
    condition.nodes + middle.nodes + otherwise.nodes + 1
  | .assign target value => target.nodes + value.nodes + 1
  | .string _ | .interpolated _ | .number _ | .bool _ | .null | .var _ | .classConstant _ _
  | .constant _ => 1

def nodesOfArgs : List Expr → Nat
  | [] => 0
  | e :: rest => e.nodes + nodesOfArgs rest

def nodesOfItems : List ArrayItem → Nat
  | [] => 0
  | .mk none value _ :: rest => value.nodes + 1 + nodesOfItems rest
  | .mk (some key) value _ :: rest => key.nodes + value.nodes + 1 + nodesOfItems rest

def Stmt.nodes : Stmt → Nat
  | .ret none => 1
  | .ret (some value) => value.nodes + 1
  | .expr e => e.nodes + 1
  | .branch condition body elseIfs none =>
    condition.nodes + nodesOfBody body + nodesOfElseIfs elseIfs + 1
  | .branch condition body elseIfs (some otherwise) =>
    condition.nodes + nodesOfBody body + nodesOfElseIfs elseIfs + nodesOfBody otherwise + 1
  | .foreach subject none value body => subject.nodes + value.nodes + nodesOfBody body + 1
  | .foreach subject (some key) value body =>
    subject.nodes + key.nodes + value.nodes + nodesOfBody body + 1
  | .block body => nodesOfBody body + 1

def nodesOfBody : List Stmt → Nat
  | [] => 0
  | s :: rest => s.nodes + nodesOfBody rest

def nodesOfElseIfs : List ElseIf → Nat
  | [] => 0
  | .mk condition body :: rest => condition.nodes + nodesOfBody body + 1 + nodesOfElseIfs rest

end

mutual

theorem nodes_lt_of_mem_returns {e : Expr} :
    ∀ {s : Stmt}, some e ∈ s.returns → e.nodes < s.nodes
  | .ret value, h => by
    simp only [Stmt.returns, List.mem_singleton] at h
    subst h
    simp [Stmt.nodes]
  | .expr _, h => by simp [Stmt.returns] at h
  | .branch c body elseIfs none, h => by
    simp only [Stmt.returns, List.mem_append] at h
    simp only [Stmt.nodes]
    rcases h with h | h
    · have := nodes_lt_of_mem_returnsOfBody h; omega
    · have := nodes_lt_of_mem_returnsOfElseIfs h; omega
  | .branch c body elseIfs (some otherwise), h => by
    simp only [Stmt.returns, List.mem_append] at h
    simp only [Stmt.nodes]
    rcases h with (h | h) | h
    · have := nodes_lt_of_mem_returnsOfBody h; omega
    · have := nodes_lt_of_mem_returnsOfElseIfs h; omega
    · have := nodes_lt_of_mem_returnsOfBody h; omega
  | .foreach _ none _ body, h => by
    simp only [Stmt.returns] at h
    have := nodes_lt_of_mem_returnsOfBody h
    simp only [Stmt.nodes]; omega
  | .foreach _ (some _) _ body, h => by
    simp only [Stmt.returns] at h
    have := nodes_lt_of_mem_returnsOfBody h
    simp only [Stmt.nodes]; omega
  | .block body, h => by
    simp only [Stmt.returns] at h
    have := nodes_lt_of_mem_returnsOfBody h
    simp only [Stmt.nodes]; omega

theorem nodes_lt_of_mem_returnsOfBody {e : Expr} :
    ∀ {body : List Stmt}, some e ∈ returnsOfBody body → e.nodes < nodesOfBody body
  | [], h => by simp [returnsOfBody] at h
  | s :: rest, h => by
    simp only [returnsOfBody, List.mem_append] at h
    simp only [nodesOfBody]
    rcases h with h | h
    · have := nodes_lt_of_mem_returns h; omega
    · have := nodes_lt_of_mem_returnsOfBody h; omega

theorem nodes_lt_of_mem_returnsOfElseIfs {e : Expr} :
    ∀ {elseIfs : List ElseIf}, some e ∈ returnsOfElseIfs elseIfs → e.nodes < nodesOfElseIfs elseIfs
  | [], h => by simp [returnsOfElseIfs] at h
  | .mk c body :: rest, h => by
    simp only [returnsOfElseIfs, List.mem_append] at h
    simp only [nodesOfElseIfs]
    rcases h with h | h
    · have := nodes_lt_of_mem_returnsOfBody h; omega
    · have := nodes_lt_of_mem_returnsOfElseIfs h; omega

end

theorem nodes_lt_of_returnValue? {body : List Stmt} {e : Expr} (h : returnValue? body = some e) :
    e.nodes < nodesOfBody body := by
  obtain hj : (returnsOfBody body).head? = some (some e) := by
    unfold returnValue? at h
    cases hh : (returnsOfBody body).head? with
    | none => simp [hh] at h
    | some v => simpa [hh] using h
  exact nodes_lt_of_mem_returnsOfBody (List.mem_of_head? hj)

theorem nodes_le_of_callResult? {e value : Expr} (h : e.callResult? = some value) :
    value.nodes ≤ e.nodes := by
  unfold Expr.callResult? at h
  split at h
  · cases h; simp [Expr.nodes]
  · have := nodes_lt_of_returnValue? h
    simp only [Expr.nodes]; omega
  · cases h; exact Nat.le_refl _

theorem nodes_le_nodesOfArgs {e : Expr} :
    ∀ {args : List Expr}, e ∈ args → e.nodes ≤ nodesOfArgs args
  | [], h => by simp at h
  | a :: rest, h => by
    simp only [nodesOfArgs]
    rcases List.mem_cons.1 h with rfl | h
    · omega
    · have := nodes_le_nodesOfArgs h; omega

end ResponseShape

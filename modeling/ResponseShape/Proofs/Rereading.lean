import ResponseShape.Proofs.Rendering

/-! What a printed tree is read back as. The word `array` before a parenthesis opens an array, also
where it was the callee of a call; nothing else changes. Main statement: `SourceFile.reread_eq_iff`,
a file is read back as itself if and only if it calls no bare `array`. -/
namespace ResponseShape

section
variable (φ : Expr → Prop)

mutual

/-- The property holds of an expression and of all expressions and statements within it. -/
def Expr.All : Expr → Prop
  | e@(.array items) => φ e ∧ allOfItems items
  | e@(.property target _ _) => φ e ∧ target.All
  | e@(.methodCall target _ args _) => φ e ∧ target.All ∧ allOfArgs args
  | e@(.staticCall _ _ args) => φ e ∧ allOfArgs args
  | e@(.call callee args) => φ e ∧ callee.All ∧ allOfArgs args
  | e@(.new _ args) => φ e ∧ allOfArgs args
  | e@(.arrowFunction _ body) => φ e ∧ body.All
  | e@(.closure _ body) => φ e ∧ allOfBody body
  | e@(.index target none) => φ e ∧ target.All
  | e@(.index target (some index)) => φ e ∧ target.All ∧ index.All
  | e@(.binary _ lhs rhs) => φ e ∧ lhs.All ∧ rhs.All
  | e@(.unary _ operand) => φ e ∧ operand.All
  | e@(.ternary condition none otherwise) => φ e ∧ condition.All ∧ otherwise.All
  | e@(.ternary condition (some middle) otherwise) =>
    φ e ∧ condition.All ∧ middle.All ∧ otherwise.All
  | e@(.assign target value) => φ e ∧ target.All ∧ value.All
  | e@(.string _) | e@(.interpolated _) | e@(.number _) | e@(.bool _) | e@.null | e@(.var _)
  | e@(.classConstant _ _) | e@(.constant _) => φ e

def allOfArgs : List Expr → Prop
  | [] => True
  | e :: rest => e.All ∧ allOfArgs rest

def allOfItems : List ArrayItem → Prop
  | [] => True
  | .mk none value _ :: rest => value.All ∧ allOfItems rest
  | .mk (some key) value _ :: rest => key.All ∧ value.All ∧ allOfItems rest

def Stmt.All : Stmt → Prop
  | .ret none => True
  | .ret (some value) => value.All
  | .expr e => e.All
  | .branch condition body elseIfs none =>
    condition.All ∧ allOfBody body ∧ allOfElseIfs elseIfs
  | .branch condition body elseIfs (some otherwise) =>
    condition.All ∧ allOfBody body ∧ allOfElseIfs elseIfs ∧ allOfBody otherwise
  | .foreach subject none value body => subject.All ∧ value.All ∧ allOfBody body
  | .foreach subject (some key) value body =>
    subject.All ∧ key.All ∧ value.All ∧ allOfBody body
  | .block body => allOfBody body

def allOfBody : List Stmt → Prop
  | [] => True
  | s :: rest => s.All ∧ allOfBody rest

def allOfElseIfs : List ElseIf → Prop
  | [] => True
  | .mk condition body :: rest => condition.All ∧ allOfBody body ∧ allOfElseIfs rest

end

theorem allOfArgs_append (args more : List Expr) :
    allOfArgs φ (args ++ more) ↔ allOfArgs φ args ∧ allOfArgs φ more := by
  induction args with
  | nil => simp [allOfArgs]
  | cons e rest ih => simp [allOfArgs, ih, and_assoc]

theorem allOfItems_append (items more : List ArrayItem) :
    allOfItems φ (items ++ more) ↔ allOfItems φ items ∧ allOfItems φ more := by
  induction items with
  | nil => simp [allOfItems]
  | cons item rest ih =>
    obtain ⟨key | key, value, unpacked⟩ := item <;> simp [allOfItems, ih, and_assoc]

theorem allOfBody_append (body more : List Stmt) :
    allOfBody φ (body ++ more) ↔ allOfBody φ body ∧ allOfBody φ more := by
  induction body with
  | nil => simp [allOfBody]
  | cons s rest ih => simp [allOfBody, ih, and_assoc]

theorem allOfElseIfs_append (elseIfs more : List ElseIf) :
    allOfElseIfs φ (elseIfs ++ more) ↔ allOfElseIfs φ elseIfs ∧ allOfElseIfs φ more := by
  induction elseIfs with
  | nil => simp [allOfElseIfs]
  | cons elseIf rest ih =>
    obtain ⟨condition, body⟩ := elseIf
    simp [allOfElseIfs, ih, and_assoc]

end

namespace Expr

/-- The bare word `array`, in any case. -/
def isArrayWord : Expr → Bool
  | constant name => Text.foldCase name.written == "array"
  | _ => false

def rereadCall (callee : Expr) (args : List Expr) : Expr :=
  if callee.isArrayWord then array (args.map fun e => .mk none e false) else call callee args

end Expr

mutual

def Expr.reread : Expr → Expr
  | .array items => .array (rereadItems items)
  | .property target name nullsafe => .property target.reread name nullsafe
  | .methodCall target method args nullsafe =>
    .methodCall target.reread method (rereadArgs args) nullsafe
  | .staticCall owner method args => .staticCall owner method (rereadArgs args)
  | .call callee args => .rereadCall callee.reread (rereadArgs args)
  | .new owner args => .new owner (rereadArgs args)
  | .arrowFunction params body => .arrowFunction params body.reread
  | .closure params body => .closure params (rereadBody body)
  | .index target none => .index target.reread none
  | .index target (some index) => .index target.reread (some index.reread)
  | .binary op lhs rhs => .binary op lhs.reread rhs.reread
  | .unary op operand => .unary op operand.reread
  | .ternary condition none otherwise => .ternary condition.reread none otherwise.reread
  | .ternary condition (some middle) otherwise =>
    .ternary condition.reread (some middle.reread) otherwise.reread
  | .assign target value => .assign target.reread value.reread
  | e@(.string _) | e@(.interpolated _) | e@(.number _) | e@(.bool _) | e@.null | e@(.var _)
  | e@(.classConstant _ _) | e@(.constant _) => e

def rereadArgs : List Expr → List Expr
  | [] => []
  | e :: rest => e.reread :: rereadArgs rest

def rereadItems : List ArrayItem → List ArrayItem
  | [] => []
  | .mk none value unpacked :: rest => .mk none value.reread unpacked :: rereadItems rest
  | .mk (some key) value unpacked :: rest =>
    .mk (some key.reread) value.reread unpacked :: rereadItems rest

def Stmt.reread : Stmt → Stmt
  | .ret none => .ret none
  | .ret (some value) => .ret (some value.reread)
  | .expr e => .expr e.reread
  | .branch condition body elseIfs none =>
    .branch condition.reread (rereadBody body) (rereadElseIfs elseIfs) none
  | .branch condition body elseIfs (some otherwise) =>
    .branch condition.reread (rereadBody body) (rereadElseIfs elseIfs)
      (some (rereadBody otherwise))
  | .foreach subject none value body =>
    .foreach subject.reread none value.reread (rereadBody body)
  | .foreach subject (some key) value body =>
    .foreach subject.reread (some key.reread) value.reread (rereadBody body)
  | .block body => .block (rereadBody body)

def rereadBody : List Stmt → List Stmt
  | [] => []
  | s :: rest => s.reread :: rereadBody rest

def rereadElseIfs : List ElseIf → List ElseIf
  | [] => []
  | .mk condition body :: rest =>
    .mk condition.reread (rereadBody body) :: rereadElseIfs rest

end

def ArrayItem.reread : ArrayItem → ArrayItem
  | .mk none value unpacked => .mk none value.reread unpacked
  | .mk (some key) value unpacked => .mk (some key.reread) value.reread unpacked

def ElseIf.reread : ElseIf → ElseIf
  | .mk condition body => .mk condition.reread (rereadBody body)

theorem rereadArgs_eq_map (args : List Expr) : rereadArgs args = args.map Expr.reread := by
  induction args with
  | nil => rfl
  | cons e rest ih => rw [rereadArgs, ih]; rfl

theorem rereadItems_eq_map (items : List ArrayItem) :
    rereadItems items = items.map ArrayItem.reread := by
  induction items with
  | nil => rfl
  | cons item rest ih =>
    obtain ⟨_ | key, value, unpacked⟩ := item <;> rw [rereadItems, ih] <;> rfl

theorem rereadBody_eq_map (body : List Stmt) : rereadBody body = body.map Stmt.reread := by
  induction body with
  | nil => rfl
  | cons s rest ih => rw [rereadBody, ih]; rfl

theorem rereadElseIfs_eq_map (elseIfs : List ElseIf) :
    rereadElseIfs elseIfs = elseIfs.map ElseIf.reread := by
  induction elseIfs with
  | nil => rfl
  | cons elseIf rest ih =>
    obtain ⟨condition, body⟩ := elseIf
    rw [rereadElseIfs, ih]
    rfl

def Method.reread (m : Method) : Method := { m with body := m.body.map rereadBody }

def ClassDecl.reread (c : ClassDecl) : ClassDecl :=
  { c with methods := c.methods.map Method.reread }

def SourceFile.reread (f : SourceFile) : SourceFile :=
  { f with classes := f.classes.map ClassDecl.reread }

def Expr.CallsNoArray : Expr → Prop
  | .call callee _ => callee.isArrayWord = false
  | _ => True

theorem Expr.isArrayWord_reread : ∀ e : Expr, e.reread.isArrayWord = e.isArrayWord
  | .call callee args => by
    rw [Expr.reread, Expr.rereadCall]
    split <;> rfl
  | .index _ none | .index _ (some _) | .ternary _ none _ | .ternary _ (some _) _ => rfl
  | .string _ | .interpolated _ | .number _ | .bool _ | .null | .var _ | .array _
  | .property _ _ _ | .methodCall _ _ _ _ | .staticCall _ _ _ | .classConstant _ _ | .constant _
  | .new _ _ | .arrowFunction _ _ | .closure _ _ | .binary _ _ _ | .unary _ _ | .assign _ _ => rfl

theorem Expr.rereadCall_eq_call_iff {callee callee' : Expr} {args args' : List Expr} :
    Expr.rereadCall callee args = .call callee' args' ↔
      callee.isArrayWord = false ∧ callee = callee' ∧ args = args' := by
  unfold Expr.rereadCall
  split <;> simp_all

mutual

theorem Expr.reread_eq_iff : ∀ e : Expr, e.reread = e ↔ e.All Expr.CallsNoArray
  | .array items => by
    simp [Expr.reread, Expr.All, Expr.CallsNoArray, rereadItems_eq_iff items]
  | .property target _ _ => by
    simp [Expr.reread, Expr.All, Expr.CallsNoArray, Expr.reread_eq_iff target]
  | .methodCall target _ args _ => by
    simp [Expr.reread, Expr.All, Expr.CallsNoArray, Expr.reread_eq_iff target,
      rereadArgs_eq_iff args]
  | .staticCall _ _ args => by
    simp [Expr.reread, Expr.All, Expr.CallsNoArray, rereadArgs_eq_iff args]
  | .call callee args => by
    simp [Expr.reread, Expr.rereadCall_eq_call_iff, Expr.isArrayWord_reread, Expr.All,
      Expr.CallsNoArray, Expr.reread_eq_iff callee, rereadArgs_eq_iff args]
  | .new _ args => by
    simp [Expr.reread, Expr.All, Expr.CallsNoArray, rereadArgs_eq_iff args]
  | .arrowFunction _ body => by
    simp [Expr.reread, Expr.All, Expr.CallsNoArray, Expr.reread_eq_iff body]
  | .closure _ body => by
    simp [Expr.reread, Expr.All, Expr.CallsNoArray, rereadBody_eq_iff body]
  | .index target none => by
    simp [Expr.reread, Expr.All, Expr.CallsNoArray, Expr.reread_eq_iff target]
  | .index target (some index) => by
    simp [Expr.reread, Expr.All, Expr.CallsNoArray, Expr.reread_eq_iff target,
      Expr.reread_eq_iff index]
  | .binary _ lhs rhs => by
    simp [Expr.reread, Expr.All, Expr.CallsNoArray, Expr.reread_eq_iff lhs,
      Expr.reread_eq_iff rhs]
  | .unary _ operand => by
    simp [Expr.reread, Expr.All, Expr.CallsNoArray, Expr.reread_eq_iff operand]
  | .ternary condition none otherwise => by
    simp [Expr.reread, Expr.All, Expr.CallsNoArray, Expr.reread_eq_iff condition,
      Expr.reread_eq_iff otherwise]
  | .ternary condition (some middle) otherwise => by
    simp [Expr.reread, Expr.All, Expr.CallsNoArray, Expr.reread_eq_iff condition,
      Expr.reread_eq_iff middle, Expr.reread_eq_iff otherwise]
  | .assign target value => by
    simp [Expr.reread, Expr.All, Expr.CallsNoArray, Expr.reread_eq_iff target,
      Expr.reread_eq_iff value]
  | .string _ | .interpolated _ | .number _ | .bool _ | .null | .var _ | .classConstant _ _
  | .constant _ => by simp [Expr.reread, Expr.All, Expr.CallsNoArray]

theorem rereadArgs_eq_iff :
    ∀ args : List Expr, rereadArgs args = args ↔ allOfArgs Expr.CallsNoArray args
  | [] => by simp [rereadArgs, allOfArgs]
  | e :: rest => by
    simp [rereadArgs, allOfArgs, Expr.reread_eq_iff e, rereadArgs_eq_iff rest]

theorem rereadItems_eq_iff :
    ∀ items : List ArrayItem, rereadItems items = items ↔ allOfItems Expr.CallsNoArray items
  | [] => by simp [rereadItems, allOfItems]
  | .mk none value _ :: rest => by
    simp [rereadItems, allOfItems, Expr.reread_eq_iff value, rereadItems_eq_iff rest]
  | .mk (some key) value _ :: rest => by
    simp [rereadItems, allOfItems, Expr.reread_eq_iff key, Expr.reread_eq_iff value,
      rereadItems_eq_iff rest, and_assoc]

theorem Stmt.reread_eq_iff : ∀ s : Stmt, s.reread = s ↔ s.All Expr.CallsNoArray
  | .ret none => by simp [Stmt.reread, Stmt.All]
  | .ret (some value) => by simp [Stmt.reread, Stmt.All, Expr.reread_eq_iff value]
  | .expr e => by simp [Stmt.reread, Stmt.All, Expr.reread_eq_iff e]
  | .branch condition body elseIfs none => by
    simp [Stmt.reread, Stmt.All, Expr.reread_eq_iff condition, rereadBody_eq_iff body,
      rereadElseIfs_eq_iff elseIfs]
  | .branch condition body elseIfs (some otherwise) => by
    simp [Stmt.reread, Stmt.All, Expr.reread_eq_iff condition, rereadBody_eq_iff body,
      rereadElseIfs_eq_iff elseIfs, rereadBody_eq_iff otherwise]
  | .foreach subject none value body => by
    simp [Stmt.reread, Stmt.All, Expr.reread_eq_iff subject, Expr.reread_eq_iff value,
      rereadBody_eq_iff body]
  | .foreach subject (some key) value body => by
    simp [Stmt.reread, Stmt.All, Expr.reread_eq_iff subject, Expr.reread_eq_iff key,
      Expr.reread_eq_iff value, rereadBody_eq_iff body]
  | .block body => by simp [Stmt.reread, Stmt.All, rereadBody_eq_iff body]

theorem rereadBody_eq_iff :
    ∀ body : List Stmt, rereadBody body = body ↔ allOfBody Expr.CallsNoArray body
  | [] => by simp [rereadBody, allOfBody]
  | s :: rest => by
    simp [rereadBody, allOfBody, Stmt.reread_eq_iff s, rereadBody_eq_iff rest]

theorem rereadElseIfs_eq_iff :
    ∀ elseIfs : List ElseIf,
      rereadElseIfs elseIfs = elseIfs ↔ allOfElseIfs Expr.CallsNoArray elseIfs
  | [] => by simp [rereadElseIfs, allOfElseIfs]
  | .mk condition body :: rest => by
    simp [rereadElseIfs, allOfElseIfs, Expr.reread_eq_iff condition, rereadBody_eq_iff body,
      rereadElseIfs_eq_iff rest, and_assoc]

end

/-- The property holds of all expressions in the bodies of a file's methods. -/
def SourceFile.All (φ : Expr → Prop) (f : SourceFile) : Prop :=
  ∀ c ∈ f.classes, ∀ m ∈ c.methods, ∀ body, m.body = some body → allOfBody φ body

theorem Method.reread_eq_iff (m : Method) :
    m.reread = m ↔ ∀ body, m.body = some body → allOfBody Expr.CallsNoArray body := by
  obtain ⟨name, params, body⟩ := m
  cases body <;> simp [Method.reread, rereadBody_eq_iff]

theorem ClassDecl.reread_eq_iff (c : ClassDecl) :
    c.reread = c ↔ ∀ m ∈ c.methods, m.reread = m := by
  have keeps : c.reread = c ↔ c.methods.map Method.reread = c.methods.map id := by
    rw [List.map_id]
    exact ⟨congrArg ClassDecl.methods, fun same => by rw [ClassDecl.reread, same]⟩
  exact keeps.trans List.map_inj_left

theorem SourceFile.reread_eq_iff (f : SourceFile) :
    f.reread = f ↔ f.All Expr.CallsNoArray := by
  have keeps : f.reread = f ↔ f.classes.map ClassDecl.reread = f.classes.map id := by
    rw [List.map_id]
    exact ⟨congrArg SourceFile.classes, fun same => by rw [SourceFile.reread, same]⟩
  rw [keeps, List.map_inj_left]
  unfold SourceFile.All
  simp only [id, ClassDecl.reread_eq_iff, Method.reread_eq_iff]

end ResponseShape

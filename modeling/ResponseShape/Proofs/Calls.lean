import ResponseShape.Inference.Infer

/-! Inference as functions that call each other: each reads and changes the registry and the stack
of the classes being read, and nothing says beforehand that the calls come to an end. A routine is
what one function does up to its next call; `Returns` runs the calls, and `Asks` tells which calls
one call makes. -/
namespace ResponseShape.Inference

structure Session where
  registry : Registry
  /-- The classes whose arrays are being read, the innermost first. -/
  enclosing : List String

inductive Call where
  | inferClass (fullName : String)
  | inferBody (fullName : String) (body : List Stmt) (scope : Scope)
  /-- The array of a class, with the class on the stack. -/
  | inferWithin (fullName : String) (e : Expr) (scope : Scope)
  | infer (e : Expr) (scope : Scope)
  | classify (e : Expr) (scope : Scope)
  /-- A method call on the instance. -/
  | idiom (method : String) (args : List Expr) (scope : Scope)
  | construct (owner : Name) (scope : Scope)
  | respond (fullName : String)
  | sample (fullName : String)

abbrev Call.Answer : Call → Type
  | .inferClass _ | .inferBody _ _ _ => Option SchemaRef
  | .inferWithin _ _ _ | .infer _ _ | .sample _ => Option Inferred
  | .classify _ _ | .idiom _ _ _ => Option Contributed
  | .construct _ _ => Shape
  | .respond _ => Option Response

/-- A computation that has its answer, or waits for the answer of a call. -/
inductive Computation (α : Type) where
  | done (a : α) (s : Session)
  | call (c : Call) (s : Session) (next : c.Answer → Session → Computation α)

def Computation.bind {α β : Type} : Computation α → (α → Session → Computation β) → Computation β
  | .done a s, f => f a s
  | .call c s next, f => .call c s fun b s' => (next b s').bind f

def Routine (α : Type) := Session → Computation α

instance : Monad Routine where
  pure a := fun s => .done a s
  bind p f := fun s => (p s).bind f

namespace Routine

def ask (c : Call) : Routine c.Answer := fun s => .call c s .done

def registry : Routine Registry := fun s => .done s.registry s

def change (f : Registry → Registry) : Routine Unit :=
  fun s => .done () { s with registry := f s.registry }

def enter (fullName : String) : Routine Unit :=
  fun s => .done () { s with enclosing := fullName :: s.enclosing }

def leave : Routine Unit := fun s => .done () { s with enclosing := s.enclosing.tail }

def reader (scope : Scope) : Routine Reader := fun s => .done ⟨scope, s.enclosing.head?⟩ s

end Routine

section Routines

open Routine

variable (config : Config) (w : Workspace)

def inferClassRoutine (fullName : String) : Routine (Option SchemaRef) := do
  let name := shortName fullName
  if (← registry).has name then return some ⟨name⟩
  match w.find? fullName with
  | none => return none
  | some t =>
    match t.body? config.method with
    | none => return none
    | some body => ask (.inferBody fullName body t.scope)

def inferBodyRoutine (fullName : String) (body : List Stmt) (scope : Scope) :
    Routine (Option SchemaRef) := do
  let name := shortName fullName
  if (← registry).has name then return some ⟨name⟩
  match returnValue? body with
  | some (.array items) =>
    change (·.reserve name)
    match ← ask (.inferWithin fullName (.array items) scope) with
    | none => return none
    | some inferred =>
      change (·.build name inferred)
      return some ⟨name⟩
  | _ => return none

def inferWithinRoutine (fullName : String) (e : Expr) (scope : Scope) :
    Routine (Option Inferred) := do
  enter fullName
  let inferred ← ask (.infer e scope)
  leave
  return inferred

def itemRoutine (scope : Scope) (key : Option Expr) (fields : List Field) :
    Option Contributed → Routine (List Field)
  | none => return fields
  | some (.field shape required) =>
    return Field.write ⟨key.bind Expr.literal?, shape, required⟩ fields
  | some (.expand content optional) => do
    if key.isSome then return fields
    match ← ask (.infer content scope) with
    | none => return fields
    | some inner => return Field.splice inner.fields optional fields

def itemsRoutine (scope : Scope) (fields : List Field) : List ArrayItem → Routine (List Field)
  | [] => return fields
  | .mk key value unpacked :: rest => do
    if unpacked then itemsRoutine scope fields rest
    else
      let contributed ← ask (.classify value scope)
      itemsRoutine scope (← itemRoutine scope key fields contributed) rest

def inferRoutine (e : Expr) (scope : Scope) : Routine (Option Inferred) :=
  match e with
  | .array items => do return some (.ofFields (← itemsRoutine scope [] items))
  | _ => return none

def classifyRoutine (e : Expr) (scope : Scope) : Routine (Option Contributed) :=
  match e with
  | .string _ => return some (.field .literal true)
  | .property target name nullsafe =>
    if config.readsInstance (.property target name nullsafe) then return some (.field .scalar true)
    else return none
  | .new owner args => do
    return some (.field (← ask (.construct owner scope)) (!args.head?.any config.isConditional))
  | .array items => do
    match ← ask (.infer (.array items) scope) with
    | none => return none
    | some inner =>
      if inner.fields.all fun f => f.key.isNone then return none
      else return some (.field (.record inner.fields) true)
  | .methodCall target method args _ =>
    if target.isVar config.instanceVar then ask (.idiom method args scope) else return none
  | _ => return none

def Contributed.asOptional : Contributed → Contributed
  | .field shape _ => .field shape false
  | .expand content _ => .expand content true

def idiomRoutine (method : String) (args : List Expr) (scope : Scope) :
    Routine (Option Contributed) :=
  if config.isConditionalField method then
    match Config.argument? args 1 with
    | none => return none
    | some value => do return (← ask (.classify value scope)).map Contributed.asOptional
  else if config.isMerge method then
    return (Config.argument? args 0).map (.expand · false)
  else if config.isConditionalMerge method then
    return (Config.argument? args 1).map (.expand · true)
  else return none

def constructRoutine (owner : Name) (scope : Scope) : Routine Shape := do
  let fullName := (← reader scope).className w owner
  if w.declares fullName then
    match ← ask (.inferClass fullName) with
    | some r => return .reference r.name
    | none => return .scalar
  else return .scalar

def respondRoutine (fullName : String) : Routine (Option Response) := do
  return (← ask (.inferClass fullName)).map fun r => Response.json 200 r.toSchema

def returned? (fullName : String) : Option (Scope × Expr) := do
  let t ← w.find? fullName
  return (t.scope, ← returnValue? (← t.body? config.method))

def sampleRoutine (fullName : String) : Routine (Option Inferred) :=
  match returned? config w fullName with
  | none => return none
  | some (scope, e) => ask (.inferWithin fullName e scope)

def routine : (c : Call) → Routine c.Answer
  | .inferClass fullName => inferClassRoutine config w fullName
  | .inferBody fullName body scope => inferBodyRoutine fullName body scope
  | .inferWithin fullName e scope => inferWithinRoutine fullName e scope
  | .infer e scope => inferRoutine e scope
  | .classify e scope => classifyRoutine config e scope
  | .idiom method args scope => idiomRoutine config method args scope
  | .construct owner scope => constructRoutine w owner scope
  | .respond fullName => respondRoutine fullName
  | .sample fullName => sampleRoutine config w fullName

/-- A computation comes to an end, each of its calls having come to one. -/
inductive Returns : {α : Type} → Computation α → α → Session → Prop
  | done {α : Type} (a : α) (s : Session) : Returns (.done a s) a s
  | call {α : Type} {c : Call} {s : Session} {next : c.Answer → Session → Computation α}
      {b : c.Answer} {s₁ : Session} {a : α} {s₂ : Session} :
      Returns (routine config w c s) b s₁ → Returns (next b s₁) a s₂ →
      Returns (.call c s next) a s₂

/-- A computation comes to make a call, those before it having come to an end. -/
inductive Asks {α : Type} : Computation α → Call → Session → Prop
  | here {c : Call} {s : Session} {next : c.Answer → Session → Computation α} :
      Asks (.call c s next) c s
  | later {c : Call} {s : Session} {next : c.Answer → Session → Computation α}
      {b : c.Answer} {s₁ : Session} {c' : Call} {s' : Session} :
      Returns config w (routine config w c s) b s₁ → Asks (next b s₁) c' s' →
      Asks (.call c s next) c' s'

end Routines

/-- The answer of every call, and the session it leaves. -/
abbrev Answers := (c : Call) → Session → c.Answer × Session

section Answers

variable (answers : Answers)

def Computation.eval {α : Type} : Computation α → α × Session
  | .done a s => (a, s)
  | .call c s next => (next (answers c s).1 (answers c s).2).eval

/-- All calls of a computation have a property. -/
def Computation.CallsOnly (P : Call → Session → Prop) {α : Type} : Computation α → Prop
  | .done _ _ => True
  | .call c s next => P c s ∧ (next (answers c s).1 (answers c s).2).CallsOnly P

def Routine.run {α : Type} (p : Routine α) (s : Session) : α × Session := (p s).eval answers

def Routine.CallsOnly (P : Call → Session → Prop) {α : Type} (p : Routine α) (s : Session) :
    Prop :=
  (p s).CallsOnly answers P

variable {answers}

theorem Computation.eval_bind {α β : Type} (t : Computation α)
    (f : α → Session → Computation β) :
    (t.bind f).eval answers = (f (t.eval answers).1 (t.eval answers).2).eval answers := by
  induction t with
  | done a s => rfl
  | call c s next ih => exact ih _ _

theorem Computation.callsOnly_bind {α β : Type} {P : Call → Session → Prop} (t : Computation α)
    (f : α → Session → Computation β) :
    (t.bind f).CallsOnly answers P ↔
      t.CallsOnly answers P ∧ (f (t.eval answers).1 (t.eval answers).2).CallsOnly answers P := by
  induction t with
  | done a s => exact ⟨fun h => ⟨trivial, h⟩, And.right⟩
  | call c s next ih =>
    rw [Computation.bind, Computation.CallsOnly, Computation.CallsOnly, ih, and_assoc]
    rfl

namespace Routine

variable {α β : Type} (s : Session)

@[simp] theorem run_pure (a : α) : (pure a : Routine α).run answers s = (a, s) := rfl

@[simp] theorem run_bind (p : Routine α) (f : α → Routine β) :
    (p >>= f).run answers s = (f (p.run answers s).1).run answers (p.run answers s).2 :=
  Computation.eval_bind (p s) f

@[simp] theorem run_ask (c : Call) : (ask c).run answers s = answers c s := rfl

@[simp] theorem run_registry : registry.run answers s = (s.registry, s) := rfl

@[simp] theorem run_change (f : Registry → Registry) :
    (change f).run answers s = ((), { s with registry := f s.registry }) := rfl

@[simp] theorem run_enter (fullName : String) :
    (enter fullName).run answers s = ((), { s with enclosing := fullName :: s.enclosing }) := rfl

@[simp] theorem run_leave :
    leave.run answers s = ((), { s with enclosing := s.enclosing.tail }) := rfl

@[simp] theorem run_reader (scope : Scope) :
    (reader scope).run answers s = (⟨scope, s.enclosing.head?⟩, s) := rfl

variable {P : Call → Session → Prop}

@[simp] theorem callsOnly_pure (a : α) : (pure a : Routine α).CallsOnly answers P s := trivial

@[simp] theorem callsOnly_bind (p : Routine α) (f : α → Routine β) :
    (p >>= f).CallsOnly answers P s ↔
      p.CallsOnly answers P s ∧
        (f (p.run answers s).1).CallsOnly answers P (p.run answers s).2 :=
  Computation.callsOnly_bind (p s) f

@[simp] theorem callsOnly_ask (c : Call) : (ask c).CallsOnly answers P s ↔ P c s :=
  ⟨And.left, fun h => ⟨h, trivial⟩⟩

@[simp] theorem callsOnly_registry : registry.CallsOnly answers P s := trivial

@[simp] theorem callsOnly_change (f : Registry → Registry) :
    (change f).CallsOnly answers P s := trivial

@[simp] theorem callsOnly_enter (fullName : String) :
    (enter fullName).CallsOnly answers P s := trivial

@[simp] theorem callsOnly_leave : leave.CallsOnly answers P s := trivial

@[simp] theorem callsOnly_reader (scope : Scope) :
    (reader scope).CallsOnly answers P s := trivial

end Routine

variable {config : Config} {w : Workspace}

/-- Answers that the routines give when their calls have them. -/
def Answers.Fixed (config : Config) (w : Workspace) (answers : Answers) : Prop :=
  ∀ c s, (routine config w c).run answers s = answers c s

theorem Returns.eval_eq (fixed : answers.Fixed config w) {α : Type} {t : Computation α} {a : α}
    {s : Session} (h : Returns config w t a s) : t.eval answers = (a, s) := by
  induction h with
  | done a s => rfl
  | @call α c s next b s₁ a s₂ _ _ first last =>
    have settled : answers c s = (b, s₁) := (fixed c s).symm.trans first
    rw [Computation.eval, settled]
    exact last

theorem Asks.callsOnly (fixed : answers.Fixed config w) {P : Call → Session → Prop} {α : Type}
    {t : Computation α} {c : Call} {s : Session} (h : Asks config w t c s)
    (all : t.CallsOnly answers P) : P c s := by
  induction h with
  | here => exact all.1
  | @later c₀ s₀ next b s₁ c' s' first _ ih =>
    have settled : answers c₀ s₀ = (b, s₁) := (fixed c₀ s₀).symm.trans (first.eval_eq fixed)
    apply ih
    have rest := all.2
    rwa [settled] at rest

/-- A computation comes to an end if all calls that it comes to make do. -/
theorem exists_returns_of_asks {α : Type} (t : Computation α)
    (h : ∀ c s, Asks config w t c s → ∃ b s', Returns config w (routine config w c s) b s') :
    ∃ a s', Returns config w t a s' := by
  induction t with
  | done a s => exact ⟨a, s, .done a s⟩
  | call c s next ih =>
    obtain ⟨b, s₁, first⟩ := h c s .here
    obtain ⟨a, s₂, last⟩ := ih b s₁ fun c' s' asks => h c' s' (.later first asks)
    exact ⟨a, s₂, .call first last⟩

end Answers

end ResponseShape.Inference

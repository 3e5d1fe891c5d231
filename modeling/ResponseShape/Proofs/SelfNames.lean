import ResponseShape.Proofs.Meaning
import ResponseShape.Proofs.Renaming

/-! The names `self` and `static`. In the method of a class they mean that class, however the
method is reached, and so writing out the full name in their place changes no answer. Main
statement: `namingSelf_same`. -/
namespace ResponseShape

def changeFirst {α : Type} (picked : α → Bool) (change : α → α) : List α → List α
  | [] => []
  | a :: rest => if picked a then change a :: rest else a :: changeFirst picked change rest

theorem find?_changeFirst {α : Type} {picked : α → Bool} {change : α → α}
    (still : ∀ a, picked (change a) = picked a) (entries : List α) :
    (changeFirst picked change entries).find? picked = (entries.find? picked).map change := by
  induction entries with
  | nil => rfl
  | cons a rest ih =>
    rw [changeFirst]
    by_cases here : picked a
    · rw [if_pos here, List.find?_cons_of_pos (by rw [still, here]), List.find?_cons_of_pos here,
        Option.map_some]
    · rw [if_neg here, List.find?_cons_of_neg here, List.find?_cons_of_neg here, ih]

def Method.changeBody (m : Method) (change : List Stmt → List Stmt) : Method :=
  { m with body := m.body.map change }

def ResourceClass.changeBody (t : ResourceClass) (name : String)
    (change : List Stmt → List Stmt) : ResourceClass :=
  { t with
    decl.methods := changeFirst (fun m => Text.sameIgnoringCase m.name name)
      (fun m => m.changeBody change) t.decl.methods }

theorem ResourceClass.body?_changeBody (t : ResourceClass) (name : String)
    (change : List Stmt → List Stmt) :
    (t.changeBody name change).body? name = (t.body? name).map change := by
  have method : (t.changeBody name change).decl.method? name =
      (t.decl.method? name).map fun m => m.changeBody change :=
    find?_changeFirst (fun m => by simp [Method.changeBody]) t.decl.methods
  rw [body?, body?, method]
  cases t.decl.method? name <;> rfl

def Workspace.changeBody (w : Workspace) (fullName name : String)
    (change : List Stmt → List Stmt) : Workspace :=
  match w.find? fullName with
  | none => w
  | some t => ⟨w.classes.insert fullName (t.changeBody name change)⟩

theorem Workspace.find?_changeBody (w : Workspace) (fullName name : String)
    (change : List Stmt → List Stmt) (other : String) :
    (w.changeBody fullName name change).find? other =
      if fullName = other then (w.find? other).map fun t => t.changeBody name change
      else w.find? other := by
  unfold changeBody
  cases found : w.find? fullName with
  | none =>
    by_cases same : fullName = other
    · rw [if_pos same, ← same, found, Option.map_none]
    · rw [if_neg same]
  | some t =>
    dsimp only
    rw [find?, Table.find?_insert]
    by_cases same : fullName = other
    · rw [if_pos same, if_pos same, ← same, found, Option.map_some]
    · rw [if_neg same, if_neg same, find?]

theorem Workspace.declares_changeBody (w : Workspace) (fullName name : String)
    (change : List Stmt → List Stmt) (other : String) :
    (w.changeBody fullName name change).declares other = w.declares other := by
  change ((w.changeBody fullName name change).find? other).isSome = (w.find? other).isSome
  rw [find?_changeBody]
  split
  · exact Option.isSome_map
  · rfl

def Renaming.namingSelf (fullName : String) : Renaming where
  owner name := if Reader.isSelf name then ⟨fullName, .fullyQualified⟩ else name
  method := id

/-- The method of a class with `new \T(...)` in place of every `new self(...)` and
`new static(...)`. -/
def Workspace.namingSelf (w : Workspace) (method fullName : String) : Workspace :=
  w.changeBody fullName method (renamedBody (.namingSelf fullName))

example : (Expr.new ⟨"self", .unqualified⟩
      [.arrowFunction [] (.new ⟨"STATIC", .unqualified⟩ [])]).renamed (.namingSelf "App\\Tag") =
    .new ⟨"App\\Tag", .fullyQualified⟩
      [.arrowFunction [] (.new ⟨"App\\Tag", .fullyQualified⟩ [])] := by
  rfl

namespace Inference

variable (config : Config) (w : Workspace)

theorem keeps_namingSelf (fullName : String) :
    (Renaming.namingSelf fullName).Keeps config config := by
  constructor <;> intros <;> rfl

theorem className_namingSelf (scope : Scope) (fullName : String) (owner : Name) :
    Reader.className ⟨scope, some fullName⟩ w ((Renaming.namingSelf fullName).owner owner) =
      Reader.className ⟨scope, some fullName⟩ w owner := by
  by_cases self : Reader.isSelf owner
  · have written : (Renaming.namingSelf fullName).owner owner = ⟨fullName, .fullyQualified⟩ :=
      if_pos self
    rw [written]
    exact (if_pos self).symm
  · have kept : (Renaming.namingSelf fullName).owner owner = owner := if_neg self
    rw [kept]

theorem array?_namingSelf (fullName : String) :
    array? config (w.namingSelf config.method fullName) fullName =
      (array? config w fullName).map fun a => (a.1, renamedItems (.namingSelf fullName) a.2) := by
  unfold array? Workspace.namingSelf
  rw [Workspace.find?_changeBody, if_pos rfl]
  cases w.find? fullName with
  | none => rfl
  | some t =>
    dsimp only [Option.map_some, Option.bind_eq_bind, Option.bind_some]
    rw [ResourceClass.body?_changeBody]
    cases t.body? config.method with
    | none => rfl
    | some body =>
      dsimp only [Option.map_some, Option.bind_some]
      rw [returnValue?_renamed]
      cases returnValue? body with
      | none => rfl
      | some e =>
        cases e with
        | index target index => cases index <;> rfl
        | ternary condition middle otherwise => cases middle <;> rfl
        | _ => rfl

theorem array?_namingSelf_other {fullName other : String} (apart : fullName ≠ other) :
    array? config (w.namingSelf config.method fullName) other = array? config w other := by
  unfold array? Workspace.namingSelf
  rw [Workspace.find?_changeBody, if_neg apart]

theorem sameMeaning_namingSelf (fullName : String) :
    SameMeaning config w config (w.namingSelf config.method fullName) where
  declares other := w.declares_changeBody fullName _ _ other
  meaning other := by
    have names (reader : Reader) : fullyNamed (w.namingSelf config.method fullName) reader =
        fullyNamed w reader := by
      have declares : (w.namingSelf config.method fullName).declares = w.declares :=
        funext (w.declares_changeBody fullName _ _)
      unfold fullyNamed Reader.className
      rw [declares]
    unfold meaning?
    simp only [names]
    by_cases same : fullName = other
    · subst same
      rw [array?_namingSelf, Option.map_map]
      congr 1
      funext a
      dsimp only [Function.comp]
      rw [Config.outline_renamed (keeps_namingSelf config fullName), mapOwnersOf_mapOwnersOf]
      congr 1
      funext owner
      unfold fullyNamed
      rw [className_namingSelf]
    · rw [array?_namingSelf_other config w same]

/-- Whatever is asked, in whatever order and whichever classes are being read, the answers and the
registry in the end are the same when `self` and `static` are written out in the method of a
class; and each request comes to the same end as a run of calls. -/
theorem namingSelf_same (fullName : String) :
    (∀ (requests : List Request) s,
      settleAll config (w.namingSelf config.method fullName) (requests.map Request.call) s =
        settleAll config w (requests.map Request.call) s) ∧
    ∀ (q : Request) s a s',
      Returns config (w.namingSelf config.method fullName)
          (routine config (w.namingSelf config.method fullName) q.call s) a s' ↔
        Returns config w (routine config w q.call s) a s' :=
  have same := sameMeaning_namingSelf config w fullName
  ⟨same.settleAll, same.returns_iff⟩

end Inference

end ResponseShape

import ResponseShape.Proofs.Calls
import ResponseShape.Proofs.Visit

/-! The answer of every call, told by the functions that visit classes. Main statement:
`settle_fixed`, by which these functions do what the routines say, call for call. -/
namespace ResponseShape.Inference

variable (config : Config) (w : Workspace)

/-- Runs a computation on the registry and leaves the stack alone. -/
def Session.onRegistry {α : Type} (s : Session) (run : StateM Registry α) : α × Session :=
  ((run s.registry).1, ⟨(run s.registry).2, s.enclosing⟩)

/-- The answer of a call and the session it leaves. -/
def settle : Answers
  | .inferClass fullName, s => s.onRegistry (inferClass config w fullName)
  | .inferBody fullName body scope, s => s.onRegistry (inferBody config w fullName body scope)
  | .inferWithin fullName e scope, s => s.onRegistry (infer? config w ⟨scope, some fullName⟩ e)
  | .infer e scope, s => s.onRegistry (infer? config w ⟨scope, s.enclosing.head?⟩ e)
  | .classify e scope, s => s.onRegistry (contributed? config w ⟨scope, s.enclosing.head?⟩ e)
  | .idiom method args scope, s =>
    s.onRegistry (contributed? config w ⟨scope, s.enclosing.head?⟩
      (.methodCall (.var config.instanceVar) method args false))
  | .construct owner scope, s =>
    s.onRegistry (Reader.construct ⟨scope, s.enclosing.head?⟩ w (inferClass config w) owner)
  | .respond fullName, s => s.onRegistry (respond? config w fullName)
  | .sample fullName, s => s.onRegistry (sample? config w fullName)

def ofReading (reader : Reader) : Option Reading → StateM Registry (Option Contributed)
  | none => pure none
  | some ⟨.splice content, optional⟩ => pure (some (.expand content optional))
  | some ⟨.literal, optional⟩ => pure (some (.field .literal !optional))
  | some ⟨.scalar, optional⟩ => pure (some (.field .scalar !optional))
  | some ⟨.construct owner, optional⟩ => do
    return some (.field (← reader.construct w (inferClass config w) owner) !optional)
  | some ⟨.record items, optional⟩ => do
    let fields ← fieldsOf config w (inferClass config w) reader items
    return if fields.all fun f => f.key.isNone then none
      else some (.field (.record fields) !optional)

theorem contributed?_eq (reader : Reader) (e : Expr) :
    contributed? config w reader e = ofReading config w reader (config.read? e) := by
  unfold contributed? ofReading
  cases config.read? e with
  | none => rfl
  | some r =>
    obtain ⟨content, optional⟩ := r
    cases content with
    | record items =>
      funext r
      unfold fieldsOf
      simp only [OutlineEntry.shape?, OutlineEntry.bind_run]
      split <;> rfl
    | _ => rfl

theorem ofReading_optional (reader : Reader) (reading : Option Reading) :
    ofReading config w reader (reading.map fun r => { r with optional := true }) = do
      return (← ofReading config w reader reading).map Contributed.asOptional := by
  cases reading with
  | none => rfl
  | some r =>
    obtain ⟨content, optional⟩ := r
    cases content with
    | record items =>
      funext r
      unfold ofReading
      simp only [Option.map_some, OutlineEntry.bind_run, OutlineEntry.pure_run]
      split <;> rfl
    | _ => rfl

open Routine

theorem inferClassRoutine_run (fullName : String) (s : Session) :
    (inferClassRoutine config w fullName).run (settle config w) s =
      s.onRegistry (inferClass config w fullName) := by
  rw [Session.onRegistry, inferClass_eq]
  unfold inferClassRoutine inferClassWith
  rw [OutlineEntry.bind_run, OutlineEntry.get_run, run_bind, run_registry]
  dsimp only
  by_cases taken : s.registry.has (shortName fullName)
  · rw [if_pos taken, if_pos taken]
    rfl
  rw [if_neg taken, if_neg taken]
  cases w.find? fullName with
  | none => rfl
  | some t =>
    dsimp only
    cases t.body? config.method <;> rfl

theorem inferBodyRoutine_run (fullName : String) (body : List Stmt) (scope : Scope) (s : Session) :
    (inferBodyRoutine fullName body scope).run (settle config w) s =
      s.onRegistry (inferBody config w fullName body scope) := by
  unfold Session.onRegistry inferBody inferBodyWith inferBodyRoutine
  rw [OutlineEntry.bind_run, OutlineEntry.get_run, run_bind, run_registry]
  dsimp only
  by_cases taken : s.registry.has (shortName fullName)
  · rw [if_pos taken, if_pos taken]
    rfl
  rw [if_neg taken, if_neg taken]
  cases returnValue? body with
  | none => rfl
  | some e => cases e <;> rfl

theorem outline_cons (key : Option Expr) (value : Expr) (rest : List ArrayItem) :
    config.outline (.mk key value false :: rest) =
      match config.read? value with
      | none => config.outline rest
      | some ⟨.literal, optional⟩ =>
        .field (key.bind Expr.literal?) .literal optional :: config.outline rest
      | some ⟨.scalar, optional⟩ =>
        .field (key.bind Expr.literal?) .scalar optional :: config.outline rest
      | some ⟨.construct owner, optional⟩ =>
        .field (key.bind Expr.literal?) (.construct owner) optional :: config.outline rest
      | some ⟨.record inner, optional⟩ =>
        .field (key.bind Expr.literal?) (.record (config.outline inner)) optional ::
          config.outline rest
      | some ⟨.splice content, optional⟩ =>
        if key.isSome then config.outline rest
        else match content with
          | .array inner => .splice (config.outline inner) optional :: config.outline rest
          | _ => config.outline rest := by
  rw [Config.outline]
  simp only [Bool.false_eq_true, if_false]
  split
  all_goals rename_i h; rw [h]
  · rename_i y z t
    dsimp only
    split
    · rfl
    · split <;> simp_all

theorem itemsRoutine_run (scope : Scope) (items : List ArrayItem) (fields : List Field)
    (s : Session) :
    (itemsRoutine scope fields items).run (settle config w) s =
      s.onRegistry (OutlineEntry.fieldsAfter
        (Reader.construct ⟨scope, s.enclosing.head?⟩ w (inferClass config w)) fields
        (config.outline items)) := by
  induction items generalizing fields s with
  | nil =>
    rw [itemsRoutine, Config.outline]
    rfl
  | cons item rest ih =>
    obtain ⟨key, value, unpacked⟩ := item
    rw [itemsRoutine]
    cases unpacked with
    | true =>
      rw [Config.outline]
      exact ih fields s
    | false =>
      have answer : settle config w (.classify value scope) s =
        s.onRegistry (ofReading config w ⟨scope, s.enclosing.head?⟩ (config.read? value)) := by
        rw [← contributed?_eq]
        rfl
      rw [outline_cons, if_neg Bool.false_ne_true, run_bind, run_ask, run_bind, ih, answer]
      cases config.read? value with
      | none => rfl
      | some r =>
        obtain ⟨content, optional⟩ := r
        cases content with
        | literal => rfl
        | scalar => rfl
        | construct owner => rfl
        | record inner =>
          unfold Session.onRegistry ofReading fieldsOf
          rw [OutlineEntry.fieldsAfter, OutlineEntry.shape?]
          simp only [OutlineEntry.bind_run]
          generalize (OutlineEntry.fieldsAfter (m := StateM Registry) _ []
            (config.outline inner)) s.registry = found
          by_cases keyless : found.1.all fun f => f.key.isNone
          · rw [if_pos keyless, if_pos keyless]
            rfl
          · rw [if_neg keyless, if_neg keyless]
            rfl
        | splice content =>
          unfold Session.onRegistry ofReading itemRoutine
          simp only [OutlineEntry.pure_run]
          by_cases keyed : key.isSome
          · rw [if_pos keyed, if_pos keyed]
            rfl
          · rw [if_neg keyed, if_neg keyed]
            cases content <;> rfl

theorem read?_methodCall {target : Expr} (h : target.isVar config.instanceVar) (method : String)
    (args : List Expr) (nullsafe : Bool) :
    config.read? (.methodCall target method args nullsafe) =
      config.read? (.methodCall (.var config.instanceVar) method args false) := by
  have same : Expr.isVar config.instanceVar (.var config.instanceVar) := by
    simp [Expr.isVar]
  rw [Config.read?, Config.read?, h, same]

theorem inferRoutine_run (e : Expr) (scope : Scope) (s : Session) :
    (inferRoutine e scope).run (settle config w) s =
      s.onRegistry (infer? config w ⟨scope, s.enclosing.head?⟩ e) := by
  cases e with
  | array items =>
    rw [inferRoutine, run_bind, itemsRoutine_run]
    rfl
  | _ => rfl

theorem classifyRoutine_run (e : Expr) (scope : Scope) (s : Session) :
    (classifyRoutine config e scope).run (settle config w) s =
      s.onRegistry (contributed? config w ⟨scope, s.enclosing.head?⟩ e) := by
  rw [contributed?_eq]
  cases e with
  | string value =>
    rw [Config.read?]
    rfl
  | property target name nullsafe =>
    rw [Config.read?, classifyRoutine]
    split <;> rfl
  | new owner args =>
    rw [Config.read?]
    rfl
  | array items =>
    have inner : (ask (.infer (.array items) scope)).run (settle config w) s =
        s.onRegistry (do
          return some (.ofFields
            (← fieldsOf config w (inferClass config w) ⟨scope, s.enclosing.head?⟩ items))) := rfl
    rw [Config.read?, classifyRoutine, run_bind, inner]
    unfold Session.onRegistry ofReading
    simp only [OutlineEntry.bind_run, OutlineEntry.pure_run]
    generalize fieldsOf config w (inferClass config w) _ items s.registry = found
    have same : (Inferred.ofFields found.1).fields = found.1 := rfl
    rw [same]
    by_cases keyless : found.1.all fun f => f.key.isNone
    · rw [if_pos keyless, if_pos keyless]
      rfl
    · rw [if_neg keyless, if_neg keyless]
      rfl
  | methodCall target method args nullsafe =>
    rw [classifyRoutine]
    by_cases instance' : target.isVar config.instanceVar
    · rw [if_pos instance', read?_methodCall config instance', ← contributed?_eq]
      rfl
    · rw [if_neg instance', Config.read?, if_pos (by simp [instance'])]
      rfl
  | _ =>
    unfold Config.read?
    rfl

theorem idiomRoutine_run (method : String) (args : List Expr) (scope : Scope) (s : Session) :
    (idiomRoutine config method args scope).run (settle config w) s =
      s.onRegistry (contributed? config w ⟨scope, s.enclosing.head?⟩
        (.methodCall (.var config.instanceVar) method args false)) := by
  have same : Expr.isVar config.instanceVar (.var config.instanceVar) := by
    simp [Expr.isVar]
  rw [contributed?_eq, Config.read?, idiomRoutine, same]
  simp only [Bool.not_true, Bool.false_eq_true, if_false]
  by_cases conditional : config.isConditionalField method
  · rw [if_pos conditional, if_pos conditional]
    cases Config.argument? args 1 with
    | none => rfl
    | some value =>
      dsimp only
      rw [run_bind, run_ask, ofReading_optional, ← contributed?_eq]
      rfl
  rw [if_neg conditional, if_neg conditional]
  by_cases merge : config.isMerge method
  · rw [if_pos merge, if_pos merge]
    cases Config.argument? args 0 <;> rfl
  rw [if_neg merge, if_neg merge]
  by_cases mergeWhen : config.isConditionalMerge method
  · rw [if_pos mergeWhen, if_pos mergeWhen]
    cases Config.argument? args 1 <;> rfl
  · rw [if_neg mergeWhen, if_neg mergeWhen]
    rfl

theorem constructRoutine_run (owner : Name) (scope : Scope) (s : Session) :
    (constructRoutine w owner scope).run (settle config w) s =
      s.onRegistry (Reader.construct ⟨scope, s.enclosing.head?⟩ w (inferClass config w) owner) := by
  rw [constructRoutine, run_bind, run_reader, Session.onRegistry]
  unfold Reader.construct
  dsimp only
  generalize Reader.className _ w owner = fullName
  by_cases declared : w.declares fullName
  · rw [if_pos declared, if_pos declared, run_bind, run_ask, OutlineEntry.bind_run]
    have answer : settle config w (.inferClass fullName) s =
        s.onRegistry (inferClass config w fullName) := rfl
    rw [answer, Session.onRegistry]
    cases (inferClass config w fullName s.registry).1 <;> rfl
  · rw [if_neg declared, if_neg declared]
    rfl

theorem sample?_eq (fullName : String) :
    sample? config w fullName =
      match returned? config w fullName with
      | none => pure none
      | some (scope, e) => infer? config w ⟨scope, some fullName⟩ e := rfl

theorem sampleRoutine_run (fullName : String) (s : Session) :
    (sampleRoutine config w fullName).run (settle config w) s =
      s.onRegistry (sample? config w fullName) := by
  rw [sample?_eq, sampleRoutine]
  cases returned? config w fullName <;> rfl

/-- The functions that visit classes answer every call as its routine does, whose calls they
answer. -/
theorem settle_fixed : Answers.Fixed config w (settle config w)
  | .inferClass fullName, s => inferClassRoutine_run config w fullName s
  | .inferBody fullName body scope, s => inferBodyRoutine_run config w fullName body scope s
  | .inferWithin _ _ _, _ => rfl
  | .infer e scope, s => inferRoutine_run config w e scope s
  | .classify e scope, s => classifyRoutine_run config w e scope s
  | .idiom method args scope, s => idiomRoutine_run config w method args scope s
  | .construct owner scope, s => constructRoutine_run config w owner scope s
  | .respond _, _ => rfl
  | .sample fullName, s => sampleRoutine_run config w fullName s

end ResponseShape.Inference

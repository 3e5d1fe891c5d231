import ResponseShape.Proofs.SelfNames

/-! The letter case of method names. It counts nowhere: not in the declarations of methods, not in
calls, and not in a configuration, whose tables are sets of names besides. Main statement:
`ignoringCase_same`. -/
namespace ResponseShape

theorem Text.foldCase_foldCase (s : String) : foldCase (foldCase s) = foldCase s := by
  have lower (c : Char) : c.toLower.toLower = c.toLower := by
    unfold Char.toLower
    grind
  simp only [foldCase, String.toList_ofList, List.map_map, Function.comp_def, lower]

def Renaming.lowering : Renaming where
  owner := id
  method := Text.foldCase

/-- A method with lower case in its name and in the names of the methods it calls. -/
def Method.lowered (m : Method) : Method :=
  { m with name := Text.foldCase m.name, body := m.body.map (renamedBody .lowering) }

def ResourceClass.lowered (t : ResourceClass) : ResourceClass :=
  { t with decl.methods := t.decl.methods.map Method.lowered }

/-- The same classes but for the letter case of method names, declared or called. -/
def Workspace.SameButCase (w w' : Workspace) : Prop :=
  ∀ fullName, (w'.find? fullName).map ResourceClass.lowered =
    (w.find? fullName).map ResourceClass.lowered

/-- The same names, in whatever order and letter case and however often. -/
def SameNames (table table' : List String) : Prop :=
  ∀ folded, folded ∈ table'.map Text.foldCase ↔ folded ∈ table.map Text.foldCase

structure Config.SameButCase (config config' : Config) : Prop where
  method : Text.foldCase config'.method = Text.foldCase config.method
  instanceVar : config'.instanceVar = config.instanceVar
  conditionalField : SameNames config.conditionalField config'.conditionalField
  merge : SameNames config.merge config'.merge
  conditionalMerge : SameNames config.conditionalMerge config'.conditionalMerge
  conditionalValue : SameNames config.conditionalValue config'.conditionalValue

theorem Association.find?_map {α β : Type} (f : α → β) (key : String)
    (entries : List (String × α)) :
    find? key (entries.map fun e => (e.1, f e.2)) = (find? key entries).map f := by
  induction entries with
  | nil => rfl
  | cons e rest ih =>
    rw [List.map_cons, find?, find?, ih]
    split <;> rfl

theorem Workspace.sameButCase_of_entries {w w' : Workspace}
    (same : w'.classes.entries.map (fun e => (e.1, e.2.lowered)) =
      w.classes.entries.map fun e => (e.1, e.2.lowered)) : w.SameButCase w' := fun fullName => by
  rw [find?, find?, Table.find?, Table.find?, ← Association.find?_map, ← Association.find?_map,
    same]

theorem Config.names_iff {table : List String} {method : String} :
    names table method = true ↔ Text.foldCase method ∈ table.map Text.foldCase := by
  simp only [names, List.any_eq_true, Text.sameIgnoringCase_iff, List.mem_map]

theorem SameNames.names_foldCase {table table' : List String} (same : SameNames table table')
    (method : String) :
    Config.names table' (Text.foldCase method) = Config.names table method := by
  rw [Bool.eq_iff_iff, Config.names_iff, Config.names_iff, Text.foldCase_foldCase, same]

theorem SameNames.refl (table : List String) : SameNames table table := fun _ => Iff.rfl

theorem Config.SameButCase.refl (config : Config) : config.SameButCase config :=
  ⟨rfl, rfl, .refl _, .refl _, .refl _, .refl _⟩

theorem Config.SameButCase.keeps {config config' : Config} (same : config.SameButCase config') :
    Renaming.lowering.Keeps config config' where
  instanceVar := same.instanceVar
  conditionalField := same.conditionalField.names_foldCase
  merge := same.merge.names_foldCase
  conditionalMerge := same.conditionalMerge.names_foldCase
  conditionalValue := same.conditionalValue.names_foldCase

theorem ResourceClass.body?_lowered (t : ResourceClass) {name name' : String}
    (same : Text.foldCase name' = Text.foldCase name) :
    t.lowered.body? name' = (t.body? name).map (renamedBody .lowering) := by
  have picked (m : Method) :
      Text.sameIgnoringCase m.lowered.name name' = Text.sameIgnoringCase m.name name := by
    rw [Bool.eq_iff_iff, Text.sameIgnoringCase_iff, Text.sameIgnoringCase_iff, same,
      Method.lowered, Text.foldCase_foldCase]
  have method : t.lowered.decl.method? name' = (t.decl.method? name).map Method.lowered := by
    rw [ClassDecl.method?, ClassDecl.method?, ← funext picked]
    exact List.find?_map ..
  rw [body?, body?, method]
  cases t.decl.method? name <;> rfl

namespace Inference

variable {config config' : Config} {w w' : Workspace}

theorem array?_lowered (sameConfig : config.SameButCase config') (fullName : String) :
    (array? config w fullName).map (fun a => (a.1, renamedItems .lowering a.2)) =
      ((w.find? fullName).map ResourceClass.lowered).bind fun t =>
        match (t.body? config'.method).bind returnValue? with
        | some (.array items) => some (t.scope, items)
        | _ => none := by
  unfold array?
  cases w.find? fullName with
  | none => rfl
  | some t =>
    dsimp only [Option.map_some, Option.bind_eq_bind, Option.bind_some]
    rw [t.body?_lowered sameConfig.method]
    cases t.body? config.method with
    | none => rfl
    | some body =>
      dsimp only [Option.map_some, Option.bind_some]
      rw [returnValue?_renamed]
      cases returnValue? body with
      | none => rfl
      | some e =>
        cases e with
        | index target index => cases index <;> rfl
        | ternary condition middle otherwise => cases middle <;> rfl
        | _ => rfl

theorem outline_lowered (sameConfig : config.SameButCase config') (f : Name → Name)
    (items : List ArrayItem) :
    mapOwnersOf f (config'.outline (renamedItems .lowering items)) =
      mapOwnersOf f (config.outline items) := by
  rw [Config.outline_renamed sameConfig.keeps, mapOwnersOf_mapOwnersOf]
  rfl

theorem meaning?_lowered (sameConfig : config.SameButCase config') (fullName : String) :
    meaning? config w fullName =
      ((array? config w fullName).map fun a => (a.1, renamedItems .lowering a.2)).map fun a =>
        mapOwnersOf (fullyNamed w ⟨a.1, some fullName⟩) (config'.outline a.2) := by
  rw [meaning?, Option.map_map]
  congr 1
  funext a
  exact (outline_lowered sameConfig _ a.2).symm

theorem sameMeaning_ignoringCase (sameConfig : config.SameButCase config')
    (sameClasses : w.SameButCase w') : SameMeaning config w config' w' := by
  have declares (fullName : String) : w'.declares fullName = w.declares fullName := by
    change (w'.find? fullName).isSome = (w.find? fullName).isSome
    rw [← Option.isSome_map (f := ResourceClass.lowered), sameClasses, Option.isSome_map]
  refine ⟨declares, fun fullName => ?_⟩
  have names (reader : Reader) : fullyNamed w' reader = fullyNamed w reader := by
    unfold fullyNamed Reader.className
    rw [funext declares]
  rw [meaning?_lowered (.refl config'), meaning?_lowered sameConfig, array?_lowered (.refl config'),
    array?_lowered sameConfig, sameClasses]
  simp only [names]

/-- Whatever is asked, in whatever order, the answers and the registry in the end are the same when
the names of methods change their letter case, in declarations, in calls and in the configuration,
and when the tables of the configuration change the order and the repetition of their names; and
each request comes to the same end as a run of calls. -/
theorem ignoringCase_same (sameConfig : config.SameButCase config')
    (sameClasses : w.SameButCase w') :
    (∀ (requests : List Request) s,
      settleAll config' w' (requests.map Request.call) s =
        settleAll config w (requests.map Request.call) s) ∧
    ∀ (q : Request) s a s',
      Returns config' w' (routine config' w' q.call s) a s' ↔
        Returns config w (routine config w q.call s) a s' :=
  have same := sameMeaning_ignoringCase sameConfig sameClasses
  ⟨same.settleAll, same.returns_iff⟩

/-- A class `Post` whose method returns `['note' => $this->when($open, 'x'),
'post' => new Post($this->whenLoaded('post'))]`, with names of its own for the methods. -/
def postClass (declared conditional loaded : String) : ResourceClass :=
  let call (method : String) (args : List Expr) := Expr.methodCall (.var "this") method args false
  let items : List ArrayItem :=
    [.mk (some (.string "note")) (call conditional [.var "open", .string "x"]) false,
      .mk (some (.string "post"))
        (.new ⟨"Post", .unqualified⟩ [call loaded [.string "post"]]) false]
  ⟨"Post", ⟨"Post", none, none, [], [⟨declared, [], some [.ret (some (.array items))]⟩]⟩, .global,
    none⟩

theorem ignoringCase_same_shouted :
    let config := Config.standard
    let config' : Config :=
      { config with
        method := "TOARRAY", merge := ["MERGE", "merge"]
        conditionalValue := config.conditionalValue.reverse ++ ["WhenLoaded"] }
    let w := Workspace.empty.addClass (postClass "toArray" "when" "whenLoaded")
    let w' := Workspace.empty.addClass (postClass "ToArray" "WHEN" "WHENLOADED")
    let requests : List Request := [.sample "Post", .infer "Post", .respond "Post"]
    config.SameButCase config' ∧ w.SameButCase w' ∧
      (sample? config w "Post" .empty).1.map (fun r => (r.keys, r.required)) =
        some (["note", "post"], []) ∧
      settleAll config' w' (requests.map Request.call) ⟨.empty, []⟩ =
        settleAll config w (requests.map Request.call) ⟨.empty, []⟩ := by
  intro config config' w w' requests
  have loaded : Text.foldCase "WhenLoaded" = Text.foldCase "whenLoaded" := by decide
  have sameConfig : config.SameButCase config' := by
    refine ⟨by decide, rfl, .refl _, ?_, .refl _, ?_⟩
    · have folded : config'.merge.map Text.foldCase = ["merge", "merge"] := by decide
      have folded' : config.merge.map Text.foldCase = ["merge"] := by decide
      intro name
      simp [folded, folded']
    · intro name
      simp [config', config, Config.standard, loaded]
      grind
  have sameClasses : w.SameButCase w' := by
    have called : Text.foldCase "WHEN" = Text.foldCase "when" ∧
      Text.foldCase "WHENLOADED" = Text.foldCase "whenLoaded" ∧
      Text.foldCase "ToArray" = Text.foldCase "toArray" := by decide
    apply Workspace.sameButCase_of_entries
    have entries (t : ResourceClass) :
      (Workspace.empty.addClass t).classes.entries = [(t.name, t)] := rfl
    simp only [w, w', entries, postClass, List.map, ResourceClass.lowered, Method.lowered,
      Option.map, renamedBody, Stmt.renamed, Expr.renamed, renamedItems, renamedArgs,
      Renaming.lowering, called]
  have answer : (sample? .standard (.addClass .empty (postClass "toArray" "when" "whenLoaded"))
      "Post" .empty).1.map (fun r => (r.keys, r.required)) = some (["note", "post"], []) := by
    with_unfolding_all rfl
  refine ⟨sameConfig, sameClasses, answer, ?_⟩
  exact (ignoringCase_same sameConfig sameClasses).1 requests ⟨.empty, []⟩

end Inference

end ResponseShape

import ResponseShape.Proofs.Settled
import ResponseShape.Proofs.Stateless

/-! The sample of a class against its schema. A sample reads the array of a class without a
reservation, so in a circle it comes back to the class and stores its schema on the way; its fields
are the same all the same. -/
namespace ResponseShape.Inference

variable (config : Config) (w : Workspace)

theorem sample?_run (fullName : String) (r : Registry) :
    sample? config w fullName r =
      match array? config w fullName with
      | none => (none, r)
      | some (scope, items) =>
        let found := fieldsOf config w (inferClass config w) ⟨scope, some fullName⟩ items r
        (some (.ofFields found.1), found.2) := by
  unfold sample? array?
  cases w.find? fullName with
  | none => rfl
  | some t =>
    dsimp only [Option.bind_eq_bind, Option.bind_some]
    cases t.body? config.method with
    | none => rfl
    | some body =>
      dsimp only [Option.bind_some]
      cases returnValue? body with
      | none => rfl
      | some e => cases e <;> rfl

theorem sample?_state (fullName : String) (r : Registry) :
    (sample? config w fullName r).2 = visitAll config w (constructed config w fullName) r := by
  rw [sample?_run]
  cases ha : array? config w fullName with
  | none =>
    unfold constructed
    rw [ha]
    rfl
  | some found => exact fieldsOf_state config w ha r

/-- The registries that visits to classes and samples of classes lead to. -/
inductive Reached : Registry → Prop
  | empty : Reached .empty
  | infer {r : Registry} {fullName : String} : Reached r → w.declares fullName →
      Reached (inferClass config w fullName r).2
  | sample {r : Registry} {fullName : String} : Reached r → w.declares fullName →
      Reached (sample? config w fullName r).2

variable {config w}

theorem visitAll_append (front back : List String) (r : Registry) :
    visitAll config w (front ++ back) r = visitAll config w back (visitAll config w front r) :=
  List.foldl_append

theorem visitAll_concat (fullNames : List String) (fullName : String) (r : Registry) :
    visitAll config w (fullNames ++ [fullName]) r =
      (inferClass config w fullName (visitAll config w fullNames r)).2 :=
  visitAll_append fullNames [fullName] r

/-- A sample visits the classes that its class constructs, so visits lead to every registry. -/
theorem Reached.visits {r : Registry} (h : Reached config w r) :
    ∃ fullNames, r = visitAll config w fullNames .empty := by
  induction h with
  | empty => exact ⟨[], rfl⟩
  | @infer r fullName _ _ ih =>
    obtain ⟨fullNames, rfl⟩ := ih
    exact ⟨fullNames ++ [fullName], (visitAll_concat _ _ _).symm⟩
  | @sample r fullName _ _ ih =>
    obtain ⟨fullNames, rfl⟩ := ih
    refine ⟨fullNames ++ constructed config w fullName, ?_⟩
    rw [sample?_state, visitAll_append]

theorem Reached.namesClasses {r : Registry} (h : Reached config w r) :
    NamesClasses config w r := by
  obtain ⟨fullNames, rfl⟩ := h.visits
  obtain ⟨added, order, adds⟩ := visitAll_adds config w fullNames .empty
  exact namesClasses_empty.adds adds order

theorem isSome_sample? (fullName : String) (r : Registry) :
    (sample? config w fullName r).1.isSome = (array? config w fullName).isSome := by
  rw [sample?_run]
  cases array? config w fullName <;> rfl

theorem DistinctNames.schema_sample? (distinct : DistinctNames w) {r : Registry}
    (h : NamesClasses config w r) {fullName : String} {result : Inferred}
    (sampled : (sample? config w fullName r).1 = some result) :
    Schema.ofFields result.fields = .ofFields (statelessFields config w fullName) := by
  rw [sample?_run] at sampled
  cases ha : array? config w fullName with
  | none =>
    rw [ha] at sampled
    cases sampled
  | some found =>
    rw [ha] at sampled
    cases sampled
    have reads : ReadsArray config w fullName r _ _ := ⟨found.1, found.2, ha, rfl, rfl⟩
    exact reads.stateless h fun other _ declared => distinct.unmistakable declared

theorem DistinctNames.schema_inferClass (distinct : DistinctNames w) {r : Registry}
    (h : Reached config w r) {fullName : String} (hasArray : (array? config w fullName).isSome) :
    (inferClass config w fullName r).2.schema? (shortName fullName) =
      some (.ofFields (statelessFields config w fullName)) := by
  obtain ⟨fullNames, rfl⟩ := h.visits
  have visited : fullName ∈ preorder config w id [] (fullNames ++ [fullName]) :=
    mem_preorder_iff.2 (.request (by simp) hasArray)
  have place :
      Registry.entry? (visitAll config w (fullNames ++ [fullName]) .empty) (shortName fullName) =
        some (.ready (.ofFields (statelessFields config w fullName))) := by
    apply Table.find?_eq_some_iff.2
    rw [distinct.entries_visitAll]
    exact List.mem_map_of_mem visited
  unfold Registry.schema?
  rw [← visitAll_concat, place]

variable (config) in
/-- A class has a sample if and only if it has a schema, and the schema is that of the sample. -/
theorem sample?_agrees (distinct : DistinctNames w) {r : Registry} (reached : Reached config w r)
    {fullName : String} (declared : w.declares fullName) :
    ((sample? config w fullName r).1.isSome ↔ (inferClass config w fullName r).1.isSome) ∧
      ∀ result, (sample? config w fullName r).1 = some result →
        (inferClass config w fullName r).2.schema? (shortName fullName) =
          some (.ofFields result.fields) := by
  constructor
  · rw [answer_of_unmistakable reached.namesClasses (distinct.unmistakable declared),
      isSome_sample?]
    split <;> simp_all
  · intro result sampled
    have hasArray : (array? config w fullName).isSome := by
      rw [← isSome_sample? fullName r, sampled]
      rfl
    rw [distinct.schema_inferClass reached hasArray,
      distinct.schema_sample? reached.namesClasses sampled]

theorem sample?_agrees_circle :
    ∃ r result, DistinctNames circle ∧ Reached .standard circle r ∧ circle.declares "App\\Post" ∧
      (sample? .standard circle "App\\Post" r).1 = some result ∧
      (inferClass .standard circle "App\\Post" r).2.schema? "Post" =
        some (.ofFields result.fields) := by
  have distinct : DistinctNames circle := by decide
  have declared : circle.declares "App\\Post" := by decide
  have sampled : Reached .standard circle (sample? .standard circle "App\\Post" .empty).2 :=
    .sample .empty declared
  have reached : Reached .standard circle (inferClass .standard circle "App\\User" _).2 :=
    .infer sampled (by decide)
  have agrees := sample?_agrees .standard distinct reached declared
  have hasArray : (array? .standard circle "App\\Post").isSome := by decide
  obtain ⟨result, here⟩ := Option.isSome_iff_exists.1
    ((isSome_sample? "App\\Post" _).trans hasArray)
  exact ⟨_, result, distinct, reached, declared, here, agrees.2 result here⟩

end ResponseShape.Inference

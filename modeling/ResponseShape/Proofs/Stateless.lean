import ResponseShape.Proofs.Visit

/-! Inference without a registry. A constructed class becomes a reference if its own method returns
an array, whatever was read before; as long as no two classes share a short name, inference through
the registry finds the same fields in any order. -/
namespace ResponseShape.Inference

variable (config : Config) (w : Workspace)

/-- The shape of a constructed class, told by the class alone. -/
def statelessShape (fullName : String) : Shape :=
  if (array? config w fullName).isSome then .reference (shortName fullName) else .scalar

/-- The fields of the array of a class, told by the text of the classes alone. -/
def statelessFields (fullName : String) : List Field :=
  match array? config w fullName with
  | some (scope, items) =>
    Id.run (OutlineEntry.fieldsAfter
      (fun owner => pure (statelessShape config w (Reader.className ⟨scope, some fullName⟩ w owner)))
      [] (config.outline items))
  | none => []

def NamesClasses (r : Registry) : Prop :=
  ∀ name ∈ r.names, ∃ x, (array? config w x).isSome ∧ shortName x = name

/-- A class without an array does not share its short name with a class that has one. -/
def Unmistakable (fullName : String) : Prop :=
  ∀ x, (array? config w x).isSome → shortName x = shortName fullName →
    (array? config w fullName).isSome

variable {config w}

theorem namesClasses_empty : NamesClasses config w .empty :=
  fun _ h => absurd h List.not_mem_nil

theorem NamesClasses.anti {r r' : Registry} (h : NamesClasses config w r')
    (grown : r.names ⊆ r'.names) : NamesClasses config w r :=
  fun name known => h name (grown known)

theorem NamesClasses.adds {r r' : Registry} {added : List (String × Schema)} {stack : List String}
    (h : NamesClasses config w r) (adds : Adds config w r r' added)
    (order : added.map Prod.fst = preorder config w shortName r.names stack) :
    NamesClasses config w r' := by
  intro name known
  rw [adds.names, order] at known
  rcases List.mem_append.1 known with known | new
  · exact h name known
  · obtain ⟨x, hx, same⟩ := List.mem_map.1 new
    exact ⟨x, array?_of_mem_preorder hx, same⟩

theorem NamesClasses.inferClass {r : Registry} (h : NamesClasses config w r) (fullName : String) :
    NamesClasses config w (inferClass config w fullName r).2 := by
  obtain ⟨added, order, adds⟩ := inferClass_adds config w fullName r
  exact h.adds adds order

theorem answer_of_unmistakable {fullName : String} {r : Registry} (h : NamesClasses config w r)
    (unmistakable : Unmistakable config w fullName) :
    (Inference.inferClass config w fullName r).1 =
      if (array? config w fullName).isSome then some ⟨shortName fullName⟩ else none := by
  rw [inferClass_answer]
  have known : shortName fullName ∈ r.names → (array? config w fullName).isSome := by
    intro known
    obtain ⟨x, hasArray, same⟩ := h _ known
    exact unmistakable x hasArray same
  simp only [or_iff_right_of_imp known]

theorem construct_of_unmistakable {reader : Reader} {owner : Name} {r : Registry}
    (h : NamesClasses config w r)
    (unmistakable : w.declares (reader.className w owner) →
      Unmistakable config w (reader.className w owner)) :
    (reader.construct w (Inference.inferClass config w) owner r).1 =
        statelessShape config w (reader.className w owner) ∧
      NamesClasses config w (reader.construct w (Inference.inferClass config w) owner r).2 := by
  rw [construct_run]
  unfold statelessShape
  by_cases declared : w.declares (reader.className w owner)
  · rw [if_pos declared, answer_of_unmistakable h (unmistakable declared)]
    refine ⟨?_, h.inferClass _⟩
    split <;> rfl
  · have noArray : ¬(array? config w (reader.className w owner)).isSome :=
      fun hasArray => declared (find?_of_array? config w hasArray)
    rw [if_neg declared, if_neg noArray]
    exact ⟨rfl, h⟩

theorem ReadsArray.stateless {fullName : String} {r r' : Registry} {schema : Schema}
    (reads : ReadsArray config w fullName r r' schema) (h : NamesClasses config w r)
    (unmistakable : ∀ other ∈ constructed config w fullName, w.declares other →
      Unmistakable config w other) :
    schema = .ofFields (statelessFields config w fullName) := by
  obtain ⟨scope, items, found, -, rfl⟩ := reads
  unfold constructed at unmistakable
  unfold statelessFields fieldsOf
  rw [found] at unmistakable ⊢
  dsimp only at unmistakable ⊢
  congr 1
  refine (OutlineEntry.fieldsAfter_agree (.stateless (NamesClasses config w)) [] ?_ r h).1
  intro owner ho s hs
  exact construct_of_unmistakable hs (unmistakable _ (List.mem_map_of_mem ho))

theorem Adds.stateless {r : Registry} {added : List (String × Schema)} {stack : List String}
    (adds : Adds config w .empty r added)
    (order : added.map Prod.fst = preorder config w shortName [] stack)
    {fullName : String} {schema : Schema} (h : (fullName, schema) ∈ added)
    (unmistakable : ∀ other ∈ constructed config w fullName, w.declares other →
      Unmistakable config w other) :
    schema = .ofFields (statelessFields config w fullName) := by
  obtain ⟨s, s', reads, -, later⟩ := adds.built _ h
  apply reads.stateless _ unmistakable
  -- the array was read from a registry whose names are all in the last one
  have all : NamesClasses config w r := namesClasses_empty.adds adds order
  exact all.anti (List.Subset.trans reads.names_subset later)

def DistinctNames (w : Workspace) : Prop :=
  ∀ x ∈ w.classNames, ∀ y ∈ w.classNames, shortName x = shortName y → x = y

instance (w : Workspace) : Decidable (DistinctNames w) :=
  inferInstanceAs (Decidable (∀ x ∈ w.classNames, ∀ y ∈ w.classNames, _ → _))

theorem DistinctNames.unmistakable (distinct : DistinctNames w) {fullName : String}
    (declared : w.declares fullName) : Unmistakable config w fullName := by
  intro x hasArray same
  have same' := distinct x (mem_classNames_of_array? config w hasArray) fullName
    (Table.contains_iff.1 declared) same
  exact same' ▸ hasArray

theorem DistinctNames.preorder_eq (distinct : DistinctNames w) (stack : List String) :
    preorder config w shortName [] stack = preorder config w id [] stack := by
  apply preorder_eq_of_injective _ (List.forall_mem_nil _)
  intro x y hx hy
  exact distinct x (mem_classNames_of_array? config w hx) y (mem_classNames_of_array? config w hy)

theorem DistinctNames.entries_visitAll (distinct : DistinctNames w) (fullNames : List String) :
    (visitAll config w fullNames .empty).entries.entries =
      (preorder config w id [] fullNames).map fun x =>
        (shortName x, .ready (.ofFields (statelessFields config w x))) := by
  obtain ⟨added, order, adds⟩ := visitAll_adds config w fullNames .empty
  have schemas : ∀ a ∈ added, a.2 = .ofFields (statelessFields config w a.1) := by
    intro a ha
    exact adds.stateless order ha fun other _ declared => distinct.unmistakable declared
  rw [← distinct.preorder_eq, adds.entries]
  rw [Registry.names_empty] at order
  rw [← order, List.map_map]
  apply List.map_congr_left
  intro a ha
  rw [schemas a ha]
  rfl

variable (config w)

def inferAll (fullNames : List String) : StateM Registry (List (Option SchemaRef)) :=
  fullNames.mapM (m := StateM Registry) (inferClass config w)

theorem inferAll_cons (fullName : String) (rest : List String) (r : Registry) :
    inferAll config w (fullName :: rest) r =
      ((inferClass config w fullName r).1 ::
          (inferAll config w rest (inferClass config w fullName r).2).1,
        (inferAll config w rest (inferClass config w fullName r).2).2) := by
  unfold inferAll
  rw [List.mapM_cons]
  rfl

theorem inferAll_state (fullNames : List String) (r : Registry) :
    (inferAll config w fullNames r).2 = visitAll config w fullNames r := by
  induction fullNames generalizing r with
  | nil => rfl
  | cons fullName rest ih =>
    rw [inferAll_cons]
    exact ih _

variable {config w}

theorem inferAll_answers {fullNames : List String} {r : Registry} (h : NamesClasses config w r)
    (unmistakable : ∀ x ∈ fullNames, Unmistakable config w x) :
    (inferAll config w fullNames r).1 =
      fullNames.map fun x =>
        if (array? config w x).isSome then some ⟨shortName x⟩ else none := by
  induction fullNames generalizing r with
  | nil => rfl
  | cons fullName rest ih =>
    rw [List.forall_mem_cons] at unmistakable
    rw [inferAll_cons, List.map_cons, answer_of_unmistakable h unmistakable.1]
    rw [← ih (h.inferClass fullName) unmistakable.2]

variable (config) in
/-- In a workspace with distinct short names, visits answer by the class alone, and the registry
holds the reachable classes with an array, in depth-first order, each with its own fields. -/
theorem inferAll_eq_stateless (distinct : DistinctNames w) {fullNames : List String}
    (declared : ∀ x ∈ fullNames, w.declares x) :
    (inferAll config w fullNames .empty).1 =
        (fullNames.map fun x =>
          if (array? config w x).isSome then some ⟨shortName x⟩ else none) ∧
      (inferAll config w fullNames .empty).2.entries.entries =
        ((preorder config w id [] fullNames).map fun x =>
          (shortName x, .ready (.ofFields (statelessFields config w x)))) ∧
      (preorder config w id [] fullNames).Nodup ∧
      ∀ x, x ∈ preorder config w id [] fullNames ↔ Reachable config w fullNames x := by
  refine ⟨?_, ?_, ?_, fun x => mem_preorder_iff⟩
  · exact inferAll_answers namesClasses_empty fun x hx => distinct.unmistakable (declared x hx)
  · rw [inferAll_state]
    exact distinct.entries_visitAll fullNames
  · have once : ([] ++ (preorder config w id [] fullNames).map id).Nodup :=
      nodup_preorder fullNames List.nodup_nil
    simpa using once

def resource (name key : String) (value : Expr) : ClassDecl where
  name := name
  docComment := none
  parent := none
  interfaces := []
  methods := [⟨"toArray", [], some [.ret (some (.array [.mk (some (.string key)) value false]))]⟩]

/-- Two classes that construct each other, and one without a method. -/
def circle : Workspace :=
  Workspace.empty.addFile none
    ⟨some ⟨"App", .unqualified⟩, [],
      [resource "Post" "author" (.new ⟨"User", .unqualified⟩ []),
        resource "User" "posts" (.new ⟨"Post", .unqualified⟩ []),
        ⟨"Tag", none, none, [], []⟩]⟩

theorem preorder_circle :
    preorder .standard circle id [] ["App\\User", "App\\Tag", "App\\Post"] =
      ["App\\User", "App\\Post"] := by
  have post : (array? .standard circle "App\\Post").isSome := by decide
  have user : (array? .standard circle "App\\User").isSome := by decide
  have tag : ¬(array? .standard circle "App\\Tag").isSome := by decide
  have fromPost : constructed .standard circle "App\\Post" = ["App\\User"] := by decide +kernel
  have fromUser : constructed .standard circle "App\\User" = ["App\\Post"] := by decide +kernel
  simp [preorder, post, user, tag, fromPost, fromUser]

theorem inferAll_circle :
    DistinctNames circle ∧
      (∀ x ∈ ["App\\User", "App\\Tag", "App\\Post"], circle.declares x) ∧
      (inferAll .standard circle ["App\\User", "App\\Tag", "App\\Post"] .empty).1 =
        [some ⟨"User"⟩, none, some ⟨"Post"⟩] ∧
      (inferAll .standard circle ["App\\User", "App\\Tag", "App\\Post"] .empty).2.names =
        ["User", "Post"] := by
  have distinct : DistinctNames circle := by decide
  have declared : ∀ x ∈ ["App\\User", "App\\Tag", "App\\Post"], circle.declares x := by decide
  obtain ⟨answers, entries, -, -⟩ := inferAll_eq_stateless .standard distinct declared
  refine ⟨distinct, declared, ?_, ?_⟩
  · rw [answers]
    decide
  · rw [Registry.names_eq, entries, preorder_circle]
    decide

end ResponseShape.Inference

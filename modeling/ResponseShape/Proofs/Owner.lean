import ResponseShape.Proofs.Stateless
import ResponseShape.Proofs.Survey

/-! Which class a component stands for when several share a short name: the first of them that is
read. The others are documented with its schema. -/
namespace ResponseShape.Document

open Inference

/-- The first class that is read under a short name. -/
def owner? (config : Config) (w : Workspace) (fullNames : List String) (name : String) :
    Option String :=
  (preorder config w shortName [] fullNames).find? fun x => shortName x == name

variable {config : Config} {w : Workspace} {fullNames : List String}

theorem component_owner {name : String}
    (known : name ∈ (ofClasses config w fullNames).components.names) :
    ∃ owner schema, owner? config w fullNames name = some owner ∧
      (ofClasses config w fullNames).components.schema? name = some schema ∧
      (∃ s s', ReadsArray config w owner s s' schema ∧
        s'.names ⊆ (ofClasses config w fullNames).components.names) ∧
      ((∀ other ∈ constructed config w owner, w.declares other → Unmistakable config w other) →
        schema = .ofFields (statelessFields config w owner)) := by
  obtain ⟨added, order, adds⟩ := ofClasses_adds config w fullNames
  rw [adds.names, order] at known
  obtain ⟨x, hx, same⟩ := List.mem_map.1 known
  have some' : (owner? config w fullNames name).isSome := by
    unfold owner?
    rw [List.find?_isSome]
    exact ⟨x, hx, beq_iff_eq.2 same⟩
  obtain ⟨owner, found⟩ := Option.isSome_iff_exists.1 some'
  have short : shortName owner = name := by
    simpa using List.find?_some found
  have visited := List.mem_of_find?_eq_some found
  rw [← order] at visited
  obtain ⟨⟨first, schema⟩, ha, (here : first = owner)⟩ := List.mem_map.1 visited
  rw [here] at ha
  have place : (ofClasses config w fullNames).components.entry? name = some (.ready schema) := by
    apply Table.find?_eq_some_iff.2
    rw [adds.entries, ← short]
    exact List.mem_append_right _ (List.mem_map.2 ⟨(owner, schema), ha, rfl⟩)
  refine ⟨owner, schema, found, ?_, ?_, adds.stateless order ha⟩
  · unfold Registry.schema?
    rw [place]
  · obtain ⟨s, s', reads, -, later⟩ := adds.built _ ha
    exact ⟨s, s', reads, later⟩

theorem owner_hasArray {name owner : String} (h : owner? config w fullNames name = some owner) :
    (array? config w owner).isSome ∧ shortName owner = name := by
  refine ⟨array?_of_mem_preorder (List.mem_of_find?_eq_some h), ?_⟩
  simpa using List.find?_some h

/-- A response refers to the schema of the owner of its short name, which is the class itself
unless another class with an array shares that name. -/
theorem response_owner {fullName : String} {response : Response}
    (h : (ofClasses config w fullNames).responses.find? fullName = some response) :
    response = .ofClass fullName ∧
      ∃ owner schema, owner? config w fullNames (shortName fullName) = some owner ∧
        (ofClasses config w fullNames).components.schema? (shortName fullName) = some schema ∧
        (∃ s s', ReadsArray config w owner s s' schema ∧
          s'.names ⊆ (ofClasses config w fullNames).components.names) ∧
        ((∀ other ∈ constructed config w owner, w.declares other → Unmistakable config w other) →
          schema = .ofFields (statelessFields config w owner)) ∧
        ((∀ x, (array? config w x).isSome → shortName x = shortName fullName → x = fullName) →
          owner = fullName) := by
  rcases survey_response h with old | ⟨-, rfl, known⟩
  · cases old
  refine ⟨rfl, ?_⟩
  obtain ⟨owner, schema, found, place, reads, stateless⟩ := component_owner known
  refine ⟨owner, schema, found, place, reads, stateless, fun alone => ?_⟩
  obtain ⟨hasArray, short⟩ := owner_hasArray found
  exact alone owner hasArray short

/-- Every response refers to the schema of the array of its own class. -/
def DocumentsOwnArrays (config : Config) (w : Workspace) (fullNames : List String) : Prop :=
  ∀ fullName response,
    (ofClasses config w fullNames).responses.find? fullName = some response →
    ∃ name schema s s', response.schema = .reference name ∧
      (ofClasses config w fullNames).components.schema? name = some schema ∧
      ReadsArray config w fullName s s' schema

/-- A class, its namesake in another namespace, and a class there that constructs the namesake. -/
def namesakes : Workspace :=
  (Workspace.empty.addFile none
    ⟨some ⟨"A", .unqualified⟩, [], [resource "U" "a" (.string "x")]⟩).addFile none
    ⟨some ⟨"B", .unqualified⟩, [],
      [resource "Post" "user" (.new ⟨"U", .unqualified⟩ []), resource "U" "b" (.string "x")]⟩

theorem owner?_namesakes :
    owner? .standard namesakes ["B\\Post", "A\\U"] "U" = some "B\\U" := by
  have post : (array? .standard namesakes "B\\Post").isSome := by decide
  have ours : (array? .standard namesakes "A\\U").isSome := by decide
  have theirs : (array? .standard namesakes "B\\U").isSome := by decide
  have fromPost : constructed .standard namesakes "B\\Post" = ["B\\U"] := by decide +kernel
  have fromTheirs : constructed .standard namesakes "B\\U" = [] := by decide +kernel
  have names : shortName "B\\Post" = "Post" ∧ shortName "A\\U" = "U" ∧ shortName "B\\U" = "U" := by
    decide
  simp [owner?, preorder, post, ours, theirs, fromPost, fromTheirs, names]

theorem responds_namesakes :
    (ofClasses .standard namesakes ["B\\Post", "A\\U"]).responses.find? "A\\U" =
      some (.ofClass "A\\U") :=
  survey_responds (by decide) (Or.inr (by decide))

theorem response_owner_namesakes :
    (ofClasses .standard namesakes ["B\\Post", "A\\U"]).responses.find? "A\\U" =
        some (.ofClass "A\\U") ∧
      (ofClasses .standard namesakes ["B\\Post", "A\\U"]).components.schema? (shortName "A\\U") =
        some (.ofFields (statelessFields .standard namesakes "B\\U")) := by
  obtain ⟨-, owner, schema, found, place, -, stateless, -⟩ := response_owner responds_namesakes
  have same : owner = "B\\U" := Option.some.inj (found.symm.trans owner?_namesakes)
  have alone : constructed .standard namesakes "B\\U" = [] := by decide +kernel
  refine ⟨responds_namesakes, ?_⟩
  rw [same, alone] at stateless
  rw [place, stateless (List.forall_mem_nil _)]

theorem reads_literal {fullName key value : String} {scope : Scope} {r r' : Registry}
    {schema : Schema}
    (found : array? config w fullName =
      some (scope, [.mk (some (.string key)) (.string value) false]))
    (reads : ReadsArray config w fullName r r' schema) :
    schema = .object [⟨key, .string, true⟩] := by
  obtain ⟨scope', items, found', -, rfl⟩ := reads
  rw [found] at found'
  cases found'
  have read : config.read? (.string value) = some ⟨.literal, false⟩ := by
    rw [Config.read?]
  have outline : config.outline [.mk (some (.string key)) (.string value) false] =
      [.field (some key) .literal false] := by
    rw [Config.outline, Config.outline]
    grind [Expr.literal?]
  unfold fieldsOf
  rw [outline]
  rfl

theorem not_documentsOwnArrays :
    ["B\\Post", "A\\U"].Nodup ∧
      ¬DocumentsOwnArrays .standard namesakes ["B\\Post", "A\\U"] := by
  refine ⟨by decide, fun own => ?_⟩
  obtain ⟨name, schema, s, s', refers, place, ours⟩ := own _ _ responds_namesakes
  have short : name = "U" := (Schema.reference.inj refers).symm
  obtain ⟨-, -, known⟩ := (survey_response responds_namesakes).resolve_left nofun
  obtain ⟨owner, schema', found, place', ⟨t, t', theirs, -⟩, -⟩ := component_owner known
  have other : owner = "B\\U" := Option.some.inj (found.symm.trans owner?_namesakes)
  have same : schema = schema' := by
    rw [short] at place
    exact Option.some.inj (place.symm.trans place')
  rw [other] at theirs
  -- one schema cannot come from both arrays, as their keys differ
  have here := reads_literal rfl ours
  have there := reads_literal rfl theirs
  rw [same, there] at here
  simp at here

end ResponseShape.Document

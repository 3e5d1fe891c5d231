import ResponseShape.Inference.Survey
import ResponseShape.Proofs.Visit

/-! The document of a list of classes. Its components are those of visits to the classes in turn;
its responses refer to them. -/
namespace ResponseShape

/-- The response of a class that has one: a reference to the schema under its short name. -/
def Response.ofClass (fullName : String) : Response :=
  .json 200 (.reference (shortName fullName))

namespace Document

open Inference

variable (config : Config) (w : Workspace)

theorem addClass_run (fullName : String) (d : Document) :
    (d.addClass config w fullName).2 =
      ⟨(inferClass config w fullName d.components).2,
        if shortName fullName ∈ d.components.names ∨ (array? config w fullName).isSome then
          d.responses.insert fullName (.ofClass fullName)
        else d.responses⟩ := by
  have answer := inferClass_answer config w fullName d.components
  have run : (respond? config w fullName).run d.components =
      ((inferClass config w fullName d.components).1.map fun r => Response.json 200 r.toSchema,
        (inferClass config w fullName d.components).2) := rfl
  unfold addClass
  rw [run, answer]
  by_cases answered : shortName fullName ∈ d.components.names ∨ (array? config w fullName).isSome
  · rw [if_pos answered, if_pos answered]
    rfl
  · rw [if_neg answered, if_neg answered]
    rfl

theorem survey_cons (fullName : String) (rest : List String) (d : Document) :
    (survey config w (fullName :: rest) d).2 =
      (survey config w rest (d.addClass config w fullName).2).2 := rfl

theorem survey_components (fullNames : List String) (d : Document) :
    (survey config w fullNames d).2.components = visitAll config w fullNames d.components := by
  induction fullNames generalizing d with
  | nil => rfl
  | cons fullName rest ih =>
    rw [survey_cons, ih, addClass_run]
    rfl

theorem ofClasses_adds (fullNames : List String) : ∃ added,
    added.map Prod.fst = preorder config w shortName [] fullNames ∧
      Adds config w .empty (ofClasses config w fullNames).components added := by
  have run : (ofClasses config w fullNames).components = visitAll config w fullNames .empty :=
    survey_components config w fullNames empty
  rw [run]
  exact visitAll_adds config w fullNames .empty

variable {config w}

theorem survey_response {fullNames : List String} {d : Document} {fullName : String}
    {response : Response}
    (h : (survey config w fullNames d).2.responses.find? fullName = some response) :
    d.responses.find? fullName = some response ∨
      fullName ∈ fullNames ∧ response = .ofClass fullName ∧
        shortName fullName ∈ (survey config w fullNames d).2.components.names := by
  induction fullNames generalizing d with
  | nil => exact Or.inl h
  | cons first rest ih =>
    rw [survey_cons] at h ⊢
    rcases ih h with old | ⟨requested, same, known⟩
    · rw [addClass_run] at old
      dsimp only at old
      split at old
      next answered =>
        rw [Table.find?_insert] at old
        split at old
        next here =>
          subst here
          cases old
          refine Or.inr ⟨List.mem_cons_self, rfl, ?_⟩
          -- the visit took the name, and the later ones leave it taken
          rw [survey_components, addClass_run]
          exact names_subset_visitAll config w rest _ (mem_names_inferClass config w first _ answered)
        · exact Or.inl old
      · exact Or.inl old
    · exact Or.inr ⟨List.mem_cons_of_mem _ requested, same, known⟩

theorem survey_responds {fullNames : List String} {fullName : String} {d : Document}
    (hasArray : (array? config w fullName).isSome)
    (h : d.responses.find? fullName = some (.ofClass fullName) ∨ fullName ∈ fullNames) :
    (survey config w fullNames d).2.responses.find? fullName = some (.ofClass fullName) := by
  induction fullNames generalizing d with
  | nil => exact h.resolve_right List.not_mem_nil
  | cons first rest ih =>
    rw [survey_cons]
    apply ih
    rw [List.mem_cons, ← or_assoc] at h
    apply h.imp_left
    intro here
    rw [addClass_run]
    by_cases same : first = fullName
    · rw [same, if_pos (Or.inr hasArray), Table.find?_insert, if_pos rfl]
    · have known := here.resolve_right fun h => same h.symm
      dsimp only
      split
      · rw [Table.find?_insert, if_neg same, known]
      · exact known

end Document

end ResponseShape

import ResponseShape.Proofs.Survey

/-! References that are handed out while their schema is still to come. The invariant is that a
reference is to a name of the registry, reserved or not; since no reservation outlives the visit
that made it, the document is closed in the end. -/
namespace ResponseShape

namespace Inference

variable (config : Config) (w : Workspace)

def Known (r : Registry) (shape : Shape) : Prop :=
  ∀ name ∈ (Schema.ofShape shape).references, name ∈ r.names

variable {config w}

theorem Known.later {r r' : Registry} {shape : Shape} (h : Known r shape)
    (grown : r.names ⊆ r'.names) : Known r' shape :=
  fun name hn => grown (h name hn)

theorem construct_known (reader : Reader) (owner : Name) (r : Registry) :
    Known (reader.construct w (inferClass config w) owner r).2
      (reader.construct w (inferClass config w) owner r).1 := by
  rw [construct_run]
  split
  · rw [inferClass_answer]
    split
    next answered =>
      intro name hn
      rw [List.mem_singleton.1 hn]
      exact mem_names_inferClass config w _ r answered
    · exact fun _ hn => absurd hn List.not_mem_nil
  · exact fun _ hn => absurd hn List.not_mem_nil

variable (config w)

theorem kept_known (reader : Reader) :
    OutlineEntry.Kept (reader.construct w (inferClass config w)) Known
      fun r fields => ∀ f ∈ fields, Known r f.shape where
  literal _ _ hn := absurd hn List.not_mem_nil
  scalar _ _ hn := absurd hn List.not_mem_nil
  record h name hn := by
    obtain ⟨f, hf, hn⟩ := Schema.mem_references_ofFields hn
    exact h f hf name hn
  nil _ _ hf := absurd hf List.not_mem_nil
  write known h f hf := by
    rcases Field.mem_write hf with rfl | hf
    · exact known
    · exact h f hf
  splice inner h f hf := by
    rcases Field.mem_splice hf with ⟨g, hg, same⟩ | hf
    · exact same ▸ inner g hg
    · exact h f hf
  answer owner r := construct_known reader owner r
  later owner h f hf :=
    (h f hf).later (names_subset_construct (names_subset_inferClass config w) _ owner _)

variable {config w}

theorem ReadsArray.references_known {fullName : String} {r r' : Registry} {schema : Schema}
    (h : ReadsArray config w fullName r r' schema) : ∀ name ∈ schema.references, name ∈ r'.names := by
  obtain ⟨scope, items, -, rfl, rfl⟩ := h
  intro name hn
  obtain ⟨f, hf, hn⟩ := Schema.mem_references_ofFields hn
  have kept := kept_known config w ⟨scope, some fullName⟩
  exact kept.lists_fieldsAfter (config.outline items) (kept.nil r) f hf name hn

end Inference

namespace Document

open Inference

/-- Every reference leads to a schema of the same document, and nothing is still to come. -/
structure Closed (d : Document) : Prop where
  responses : ∀ fullName response, d.responses.find? fullName = some response →
    ∀ name ∈ response.schema.references, name ∈ d.components.names
  components : ∀ name schema, d.components.schema? name = some schema →
    ∀ other ∈ schema.references, other ∈ d.components.names
  ready : ∀ name ∈ d.components.names, ∃ schema, d.components.entry? name = some (.ready schema)
  printed : ∀ members, d.components.toJson = .object members →
    ∀ m ∈ members, m.2 ≠ .object [("type", .string "object")]

theorem ofClasses_closed (config : Config) (w : Workspace) (fullNames : List String) :
    (ofClasses config w fullNames).Closed := by
  obtain ⟨added, -, adds⟩ := ofClasses_adds config w fullNames
  refine ⟨?_, ?_, ?_, ?_⟩
  · intro fullName response h name hn
    rcases survey_response h with h | ⟨-, rfl, known⟩
    · cases h
    · rw [List.mem_singleton.1 hn]
      exact known
  · intro name schema h other hn
    unfold Registry.schema? at h
    split at h
    next found =>
      obtain ⟨a, ha, -, same⟩ := adds.entry_of_empty found
      obtain ⟨s, s', reads, -, later⟩ := adds.built a ha
      cases h
      cases same
      exact later (reads.references_known other hn)
    · cases h
  · intro name known
    obtain ⟨entry, found⟩ := Option.isSome_iff_exists.1 (Table.contains_iff.2 known)
    obtain ⟨a, -, -, rfl⟩ := adds.entry_of_empty found
    exact ⟨a.2, found⟩
  · intro members printed m hm bare
    cases printed
    obtain ⟨e, he, rfl⟩ := List.mem_map.1 hm
    obtain ⟨a, -, -, same⟩ := adds.entry_of_empty (Table.find?_eq_some_iff.2 he)
    rw [Registry.entryJson_eq_bare_iff, same] at bare
    cases bare

end Document

end ResponseShape

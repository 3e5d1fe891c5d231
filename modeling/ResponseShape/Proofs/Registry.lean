import ResponseShape.Proofs.Fields
import ResponseShape.Proofs.Table

/-! The names that a registry holds, in order, and the references inside a schema. A reservation
adds its name at the end; the schema then goes to the place of its reservation. -/
namespace ResponseShape

mutual

def Schema.references : Schema → List String
  | .string => []
  | .object properties => referencesIn properties
  | .reference name => [name]

def referencesIn : List Property → List String
  | [] => []
  | .mk _ schema _ :: rest => schema.references ++ referencesIn rest

end

theorem mem_referencesIn {name : String} : ∀ {properties : List Property},
    name ∈ referencesIn properties ↔ ∃ p ∈ properties, name ∈ p.schema.references
  | [] => by simp [referencesIn]
  | .mk _ schema _ :: rest => by
    rw [referencesIn, List.mem_append, mem_referencesIn]
    simp [Property.schema]

theorem Schema.mem_references_ofFields {name : String} {fields : List Field}
    (h : name ∈ (ofFields fields).references) :
    ∃ f ∈ fields, name ∈ (ofShape f.shape).references := by
  obtain ⟨p, hp, hn⟩ := mem_referencesIn.1 h
  obtain ⟨f, hf, -, same, -⟩ := mem_propertiesOf.1 hp
  exact ⟨f, hf, same ▸ hn⟩

namespace Registry

def names (r : Registry) : List String := r.entries.keys

@[simp] theorem has_iff {r : Registry} {name : String} : r.has name ↔ name ∈ r.names :=
  Table.contains_iff

@[simp] theorem names_empty : empty.names = [] := rfl

theorem names_eq (r : Registry) : r.names = r.entries.entries.map Prod.fst := rfl

theorem entries_reserve {r : Registry} {name : String} (h : name ∉ r.names) :
    (r.reserve name).entries.entries = r.entries.entries ++ [(name, .reserved)] := by
  have free : ¬r.has name := fun taken => h (has_iff.1 taken)
  rw [reserve, if_neg free]
  exact Table.entries_insert_of_not_mem _ h

theorem names_reserve {r : Registry} {name : String} (h : name ∉ r.names) :
    (r.reserve name).names = r.names ++ [name] := by
  rw [names_eq, entries_reserve h, List.map_append, ← names_eq]
  rfl

theorem entries_build {r : Registry} {name : String} {fields : List Field}
    {before after : List (String × Entry)} {old : Entry}
    (distinct : (Field.keysOf fields).Nodup)
    (place : r.entries.entries = before ++ (name, old) :: after)
    (h : name ∉ before.map Prod.fst) :
    (r.build name (.ofFields fields)).entries.entries =
      before ++ (name, .ready (Schema.ofFields fields)) :: after := by
  rw [build, Schema.ofInferred_ofFields distinct]
  change Association.write name _ r.entries.entries = _
  rw [place]
  exact Association.write_append_cons _ old after h

theorem names_subset_build (r : Registry) (name : String) (inferred : Inferred) :
    r.names ⊆ (r.build name inferred).names := by
  intro other h
  change other ∈ (r.entries.insert name _).keys
  rw [Table.keys_insert]
  split
  · exact h
  · exact List.mem_append_left _ h

theorem entryJson_eq_bare_iff {e : Entry} :
    entryJson e = .object [("type", .string "object")] ↔ e = .reserved := by
  constructor
  · intro h
    cases e with
    | reserved => rfl
    | ready schema => cases schema <;> simp [entryJson, Schema.toJson] at h
  · rintro rfl
    rfl

end Registry

end ResponseShape

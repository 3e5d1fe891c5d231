import ResponseShape.Proofs.Extension

/-! Inferred structures hold every key once, at any depth, and so do the schemas that they give rise
to. Their JSON has the properties in the order of the fields, and the list of required names is left
out or says in the same order which of them are required. -/
namespace ResponseShape

mutual

/-- No key stands twice in a record, at any depth. -/
def Shape.Distinct : Shape → Prop
  | .literal | .scalar | .reference _ => True
  | .record fields => (Field.keysOf fields).Nodup ∧ DistinctWithin fields

def DistinctWithin : List Field → Prop
  | [] => True
  | .mk _ shape _ :: rest => shape.Distinct ∧ DistinctWithin rest

end

theorem distinctWithin_iff : ∀ {fields : List Field},
    DistinctWithin fields ↔ ∀ f ∈ fields, f.shape.Distinct
  | [] => by simp [DistinctWithin]
  | .mk _ shape _ :: rest => by
    rw [DistinctWithin, distinctWithin_iff, List.forall_mem_cons]
    rfl

namespace Field

/-- The keys of the required fields, in order. -/
def requiredKeys (fields : List Field) : List String := keysOf (fields.filter required)

theorem requiredKeys_sublist (fields : List Field) :
    (requiredKeys fields).Sublist (keysOf fields) :=
  List.filter_sublist.filterMap key

theorem distinct_write {key : Option String} {shape : Shape} {required : Bool}
    {fields : List Field} (new : shape.Distinct) (h : Shape.Distinct (.record fields)) :
    Shape.Distinct (.record (write ⟨key, shape, required⟩ fields)) := by
  refine ⟨nodup_keysOf_write _ h.1, distinctWithin_iff.2 fun g hg => ?_⟩
  rcases mem_write hg with rfl | old
  · exact new
  · exact distinctWithin_iff.1 h.2 g old

theorem distinct_splice {inner fields : List Field} {optional : Bool}
    (new : Shape.Distinct (.record inner)) (h : Shape.Distinct (.record fields)) :
    Shape.Distinct (.record (splice inner optional fields)) := by
  refine ⟨nodup_keysOf_splice _ _ h.1, distinctWithin_iff.2 fun g hg => ?_⟩
  rcases mem_splice hg with ⟨f, hf, same⟩ | old
  · rw [same]
    exact distinctWithin_iff.1 new.2 f hf
  · exact distinctWithin_iff.1 h.2 g old

end Field

/-- Keys are distinct at every depth, and the list of required keys is that of the required
fields. -/
structure Inferred.WellFormed (r : Inferred) : Prop where
  distinct : Shape.Distinct (.record r.fields)
  required : r.required = Field.requiredKeys r.fields

theorem eraseDups_of_nodup {names : List String} (h : names.Nodup) : names.eraseDups = names := by
  induction names with
  | nil => rfl
  | cons name rest ih =>
    rw [List.nodup_cons] at h
    have others : (rest.filter fun other => !other == name) = rest := by
      apply List.filter_eq_self.2
      intro other here
      have : other ≠ name := fun same => h.1 (same ▸ here)
      simp [this]
    rw [List.eraseDups_cons, others, ih h.2]

theorem Inferred.wellFormed_ofFields {fields : List Field}
    (h : Shape.Distinct (.record fields)) : (ofFields fields).WellFormed where
  distinct := h
  required := eraseDups_of_nodup (h.1.sublist (Field.requiredKeys_sublist fields))

theorem Inferred.WellFormed.ofInferred_eq {r : Inferred} (h : r.WellFormed) :
    Schema.ofInferred r = .ofFields r.fields := by
  obtain ⟨fields, required⟩ := r
  have same : Inferred.mk fields required = .ofFields fields := by
    have told := (wellFormed_ofFields h.distinct).required
    exact congrArg (Inferred.mk fields) (h.required.trans told.symm)
  rw [same]
  exact Schema.ofInferred_ofFields h.distinct.1

mutual

/-- The JSON schemas of a shape in which every property stands once, in the order of the fields,
and the required ones are told in this order or, if there are none, left out. -/
inductive Shape.DocumentedBy : Shape → Json → Prop
  | literal : Shape.DocumentedBy .literal (.object [("type", .string "string")])
  | scalar : Shape.DocumentedBy .scalar (.object [("type", .string "string")])
  | reference (name : String) :
      Shape.DocumentedBy (.reference name) (.object [("$ref", .string (Schema.pointer name))])
  | optional {fields : List Field} {members : List (String × Json)} :
      ListedBy fields members → (members.map Prod.fst).Nodup → Field.requiredKeys fields = [] →
      Shape.DocumentedBy (.record fields)
        (.object [("type", .string "object"), ("properties", .object members)])
  | required {fields : List Field} {members : List (String × Json)} {names : List String} :
      ListedBy fields members → (members.map Prod.fst).Nodup →
      names = Field.requiredKeys fields → names ≠ [] → names.Nodup →
      names.Sublist (members.map Prod.fst) →
      Shape.DocumentedBy (.record fields)
        (.object [("type", .string "object"), ("properties", .object members),
          ("required", .strings names)])

inductive ListedBy : List Field → List (String × Json) → Prop
  | nil : ListedBy [] []
  | keyless {shape : Shape} {required : Bool} {rest : List Field}
      {members : List (String × Json)} :
      ListedBy rest members → ListedBy (.mk none shape required :: rest) members
  | field {key : String} {shape : Shape} {required : Bool} {rest : List Field} {json : Json}
      {members : List (String × Json)} :
      shape.DocumentedBy json → ListedBy rest members →
      ListedBy (.mk (some key) shape required :: rest) ((key, json) :: members)

end

namespace Schema

theorem requiredNames_propertiesOf : ∀ fields : List Field,
    requiredNames (propertiesOf fields) = Field.requiredKeys fields
  | [] => rfl
  | .mk none shape required :: rest => by
    rw [propertiesOf, requiredNames_propertiesOf]
    cases required <;> rfl
  | .mk (some key) shape required :: rest => by
    have later := requiredNames_propertiesOf rest
    unfold requiredNames at later
    cases required with
    | true => exact congrArg (key :: ·) later
    | false => exact later

theorem map_fst_membersJson : ∀ fields : List Field,
    (membersJson (propertiesOf fields)).map Prod.fst = Field.keysOf fields
  | [] => rfl
  | .mk none shape required :: rest => by
    rw [propertiesOf, map_fst_membersJson]
    rfl
  | .mk (some key) shape required :: rest => by
    rw [propertiesOf, membersJson, List.map_cons, map_fst_membersJson]
    rfl

end Schema

theorem Json.ofMembers_of_nodup {members : List (String × Json)}
    (distinct : (members.map Prod.fst).Nodup) : ofMembers members = .object members := by
  have entered (before later : List (String × Json))
      (apart : ((before ++ later).map Prod.fst).Nodup) :
      later.foldl (fun seen m => Association.write m.1 m.2 seen) before = before ++ later := by
    induction later generalizing before with
    | nil => exact (List.append_nil before).symm
    | cons member rest ih =>
      have new : member.1 ∉ before.map Prod.fst := by
        rw [List.map_append, List.map_cons] at apart
        intro old
        exact List.disjoint_of_nodup_append apart old List.mem_cons_self
      rw [List.append_cons] at apart ⊢
      rw [List.foldl_cons, Association.write_of_not_mem _ new]
      exact ih _ apart
  exact congrArg Json.object (entered [] members distinct)

mutual

theorem Shape.Distinct.documentedBy : ∀ {shape : Shape}, shape.Distinct →
    shape.DocumentedBy (Schema.ofShape shape).toJson
  | .literal, _ => .literal
  | .scalar, _ => .scalar
  | .reference name, _ => .reference name
  | .record fields, h => by
    have names := Schema.map_fst_membersJson fields
    have once : ((Schema.membersJson (Schema.propertiesOf fields)).map Prod.fst).Nodup :=
      names ▸ h.1
    rw [Schema.ofShape, Schema.toJson, Json.ofMembers_of_nodup once,
      Schema.requiredNames_propertiesOf]
    have listed := DistinctWithin.listedBy h.2
    have among := Field.requiredKeys_sublist fields
    cases hr : Field.requiredKeys fields with
    | nil => exact .optional listed once hr
    | cons name rest =>
      rw [hr] at among
      refine .required listed once hr.symm (List.cons_ne_nil _ _) (h.1.sublist among) ?_
      rwa [names]

theorem DistinctWithin.listedBy : ∀ {fields : List Field}, DistinctWithin fields →
    ListedBy fields (Schema.membersJson (Schema.propertiesOf fields))
  | [], _ => .nil
  | .mk none _ _ :: _, h => .keyless (DistinctWithin.listedBy h.2)
  | .mk (some _) _ _ :: _, h =>
    .field (Shape.Distinct.documentedBy h.1) (DistinctWithin.listedBy h.2)

end

theorem OutlineEntry.distinct_kept {σ : Type} {construct : Name → StateM σ Shape}
    (answer : ∀ owner s, (construct owner s).1.Distinct) :
    Kept construct (fun _ => Shape.Distinct) fun _ fields => Shape.Distinct (.record fields) where
  literal _ := trivial
  scalar _ := trivial
  record h := h
  nil _ := ⟨List.nodup_nil, trivial⟩
  write := Field.distinct_write
  splice := Field.distinct_splice
  answer := answer
  later _ h := h

namespace Inference

variable (config : Config) (w : Workspace)

theorem distinct_construct (visit : String → StateM Registry (Option SchemaRef)) (reader : Reader)
    (owner : Name) (r : Registry) : (reader.construct w visit owner r).1.Distinct := by
  rw [construct_run]
  split
  · cases (visit (reader.className w owner) r).1 <;> trivial
  · trivial

theorem distinct_fieldsOf (visit : String → StateM Registry (Option SchemaRef)) (reader : Reader)
    (items : List ArrayItem) (r : Registry) :
    Shape.Distinct (.record (fieldsOf config w visit reader items r).1) := by
  have kept := OutlineEntry.distinct_kept (distinct_construct w visit reader)
  exact kept.lists_fieldsAfter _ (kept.nil r)

variable {config w} in
theorem wellFormed_infer? {reader : Reader} {e : Expr} {r : Registry} {result : Inferred}
    (h : (infer? config w reader e r).1 = some result) : result.WellFormed := by
  cases e with
  | array items =>
    cases h
    exact Inferred.wellFormed_ofFields (distinct_fieldsOf config w _ reader items r)
  | _ => cases h

end Inference

def Entry.IsDistinct (e : Entry) : Prop :=
  ∃ fields, Shape.Distinct (.record fields) ∧ e = .ready (Schema.ofFields fields)

/-- The second registry has the entries of the first, and all others are schemas of records with
distinct keys. -/
def Registry.Gains (r r' : Registry) : Prop :=
  ∃ added, r'.entries.entries = r.entries.entries ++ added ∧ ∀ a ∈ added, a.2.IsDistinct

namespace Registry.Gains

theorem refl (r : Registry) : r.Gains r :=
  ⟨[], by simp, by simp⟩

theorem trans {r₁ r₂ r₃ : Registry} (h : r₁.Gains r₂) (h' : r₂.Gains r₃) : r₁.Gains r₃ := by
  obtain ⟨added, entries, distinct⟩ := h
  obtain ⟨more, entries', distinct'⟩ := h'
  refine ⟨added ++ more, ?_, List.forall_mem_append.2 ⟨distinct, distinct'⟩⟩
  rw [entries', entries, List.append_assoc]

end Registry.Gains

namespace Inference

variable (config : Config) (w : Workspace)

theorem growth_gains : Growth config w Registry.Gains where
  refl := .refl
  trans := .trans
  inferClass fullName r := by
    obtain ⟨added, -, adds⟩ := inferClass_adds config w fullName r
    refine ⟨_, adds.entries, fun entry here => ?_⟩
    obtain ⟨a, ha, rfl⟩ := List.mem_map.1 here
    obtain ⟨s, _, ⟨scope, items, -, -, schema⟩, -⟩ := adds.built a ha
    exact ⟨_, distinct_fieldsOf config w _ _ items s, congrArg Entry.ready schema⟩
  array {fullName r} scope items free inner := by
    have distinct := distinct_fieldsOf config w (inferClass config w) ⟨scope, some fullName⟩ items
      (r.reserve (shortName fullName))
    obtain ⟨added, entries, kept⟩ := inner
    rw [Registry.entries_reserve free, List.append_assoc] at entries
    refine ⟨_, Registry.entries_build distinct.1 entries free, List.forall_mem_cons.2 ⟨?_, kept⟩⟩
    exact ⟨_, distinct, rfl⟩

/-- Inferred structures are well-formed, so that the list of required keys adds nothing to their
fields; and whatever a call adds to the registry is the schema of such a structure and is printed
with every property once, in order, at every depth. -/
theorem inferred_wellFormed :
    (∀ reader e r result, (infer? config w reader e r).1 = some result →
      result.WellFormed ∧ Schema.ofInferred result = .ofFields result.fields) ∧
    ∀ c s, ∃ added,
      (settle config w c s).2.registry.entries.entries = s.registry.entries.entries ++ added ∧
      ∀ a ∈ added, ∃ fields, Shape.Distinct (.record fields) ∧
        a.2 = .ready (Schema.ofFields fields) ∧
        Shape.DocumentedBy (.record fields) (Registry.entryJson a.2) := by
  constructor
  · intro reader e r result found
    have wellFormed := wellFormed_infer? found
    exact ⟨wellFormed, wellFormed.ofInferred_eq⟩
  · intro c s
    obtain ⟨added, entries, distinct⟩ := (growth_gains config w).settle c s
    refine ⟨added, entries, fun a ha => ?_⟩
    obtain ⟨fields, once, schema⟩ := distinct a ha
    refine ⟨fields, once, schema, ?_⟩
    rw [schema]
    exact once.documentedBy

end Inference

end ResponseShape

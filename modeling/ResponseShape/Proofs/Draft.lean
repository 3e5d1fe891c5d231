import ResponseShape.Proofs.Settled

/-! Drafts of responses: what their fields are and how they stand in an array. What is inferred from
the array of a draft is the schema of the draft, at any depth. Main statement:
`Inference.inferClass_items`. -/
namespace ResponseShape

mutual

/-- What a resource class shows under a key. -/
inductive Draft where
  | text
  | property
  | nested (fields : List DraftField)

inductive DraftField where
  | mk (key : String) (required : Bool) (content : Draft)

end

def DraftField.key : DraftField → String
  | mk key _ _ => key

namespace Draft

mutual

/-- The keys are distinct on every level, and no nested level is empty. -/
def IsProper : Draft → Prop
  | text | property => True
  | nested fields => fields ≠ [] ∧ AreProper fields

def AreProper : List DraftField → Prop
  | [] => True
  | .mk key _ content :: rest => key ∉ rest.map DraftField.key ∧ content.IsProper ∧ AreProper rest

end

mutual

def schema : Draft → Schema
  | text | property => .string
  | nested fields => .object (properties fields)

def properties : List DraftField → List Property
  | [] => []
  | .mk key required content :: rest => .mk key content.schema required :: properties rest

end

def conditional (required : Bool) (value : Expr) : Expr :=
  if required then value else .methodCall (.var "this") "when" [.var "c", value] false

mutual

def expr : Draft → Expr
  | text => .string "x"
  | property => .property (.var "this") "p" false
  | nested fields => .array (items fields)

def items : List DraftField → List ArrayItem
  | [] => []
  | .mk key required content :: rest =>
    .mk (some (.string key)) (conditional required content.expr) false :: items rest

end

/-- A class whose only method returns the array of a draft. -/
def file (fields : List DraftField) : SourceFile :=
  ⟨none, [], [⟨"R", none, none, [], [⟨"toArray", [], some [.ret (some (.array (items fields)))]⟩]⟩]⟩

def contribution : Draft → Contribution
  | text => .literal
  | property => .scalar
  | nested fields => .record (items fields)

theorem read?_expr (content : Draft) :
    Config.standard.read? content.expr = some ⟨content.contribution, false⟩ := by
  cases content with
  | text => rw [expr, Config.read?]; rfl
  | property => rw [expr, Config.read?]; rfl
  | nested fields => rw [expr, Config.read?]; rfl

theorem argument?_expr (content : Draft) :
    Config.argument? [.var "c", content.expr] 1 = some content.expr := by
  cases content <;> rfl

theorem read?_conditional (required : Bool) (content : Draft) :
    Config.standard.read? (conditional required content.expr) =
      some ⟨content.contribution, !required⟩ := by
  cases required with
  | true => exact read?_expr content
  | false =>
    have field : Config.standard.isConditionalField "when" = true := by with_unfolding_all rfl
    have whose : (Expr.var "this").isVar Config.standard.instanceVar = true := rfl
    unfold conditional
    rw [if_neg Bool.false_ne_true, Config.read?]
    rw [whose, Bool.not_true, if_neg Bool.false_ne_true, if_pos field]
    split
    · next none =>
      rw [argument?_expr] at none
      cases none
    · next value found =>
      rw [argument?_expr] at found
      cases found
      rw [read?_expr]
      rfl

mutual

def outline : Draft → Outline
  | text => .literal
  | property => .scalar
  | nested fields => .record (outlines fields)

def outlines : List DraftField → List OutlineEntry
  | [] => []
  | .mk key required content :: rest =>
    .field (some key) content.outline (!required) :: outlines rest

end

theorem outline_items : ∀ fields : List DraftField,
    Config.standard.outline (items fields) = outlines fields
  | [] => by rw [items, outlines, Config.outline]
  | .mk key required content :: rest => by
    rw [items, outlines, Inference.outline_cons, read?_conditional, outline_items rest]
    cases content with
    | text => rfl
    | property => rfl
    | nested fields =>
      dsimp only [contribution, Option.bind_some, Expr.literal?]
      rw [outline_items fields]
      rfl

mutual

def shape : Draft → Shape
  | text => .literal
  | property => .scalar
  | nested fields => .record (shapes fields)

def shapes : List DraftField → List Field
  | [] => []
  | .mk key required content :: rest => .mk (some key) content.shape required :: shapes rest

end

theorem keysOf_shapes : ∀ fields : List DraftField,
    Field.keysOf (shapes fields) = fields.map DraftField.key
  | [] => rfl
  | .mk key _ _ :: rest => congrArg (key :: ·) (keysOf_shapes rest)

theorem write_fresh {f : Field} {key : String} (named : f.key = some key) {fields : List Field}
    (fresh : key ∉ Field.keysOf fields) : f.write fields = fields ++ [f] := by
  induction fields with
  | nil => rfl
  | cons g rest ih =>
    have other : g.key ≠ some key := by
      intro same
      exact fresh (List.mem_filterMap.2 ⟨g, List.mem_cons_self, same⟩)
    have later : key ∉ Field.keysOf rest := by
      intro known
      obtain ⟨h, mem, same⟩ := List.mem_filterMap.1 known
      exact fresh (List.mem_filterMap.2 ⟨h, List.mem_cons_of_mem _ mem, same⟩)
    rw [Field.write, if_neg fun same => other (same.2.trans named), ih later, List.cons_append]

theorem all_unkeyed {fields : List DraftField} (some : fields ≠ []) :
    ((shapes fields).all fun f => f.key.isNone) = false := by
  cases fields with
  | nil => exact absurd rfl some
  | cons f rest => obtain ⟨key, required, content⟩ := f; rfl

section Fields

variable {m : Type → Type} [Monad m] [LawfulMonad m] (construct : Name → m Shape)

mutual

theorem shape?_outline : ∀ {content : Draft}, content.IsProper →
    OutlineEntry.shape? construct content.outline = pure (some content.shape)
  | text, _ => rfl
  | property, _ => rfl
  | nested fields, proper => by
    rw [outline, OutlineEntry.shape?, fieldsAfter_outlines fields [] proper.2 fun _ _ => nofun,
      pure_bind, List.nil_append, all_unkeyed proper.1]
    rfl

theorem fieldsAfter_outlines : ∀ (fields : List DraftField) (before : List Field),
    AreProper fields → (∀ f ∈ fields, f.key ∉ Field.keysOf before) →
    OutlineEntry.fieldsAfter construct before (outlines fields) = pure (before ++ shapes fields)
  | [], before, _, _ => by
    rw [outlines, shapes, List.append_nil]
    rfl
  | .mk key required content :: rest, before, proper, fresh => by
    obtain ⟨apart, proper, later⟩ := proper
    have here : key ∉ Field.keysOf before := fresh _ List.mem_cons_self
    rw [outlines, OutlineEntry.fieldsAfter, shape?_outline proper, pure_bind]
    dsimp only
    rw [Bool.not_not, write_fresh (f := .mk (some key) content.shape required) rfl here,
      fieldsAfter_outlines rest _ later ?_, List.append_assoc]
    · rfl
    · intro f mem known
      rw [Field.keysOf, List.filterMap_append, List.mem_append] at known
      rcases known with known | same
      · exact fresh f (List.mem_cons_of_mem _ mem) known
      · refine apart (List.mem_map.2 ⟨f, mem, ?_⟩)
        simpa [Field.key] using same

end

end Fields

theorem nodup_keys : ∀ {fields : List DraftField}, AreProper fields →
    (fields.map DraftField.key).Nodup
  | [], _ => List.nodup_nil
  | .mk _ _ _ :: _, proper => List.nodup_cons.2 ⟨proper.1, nodup_keys proper.2.2⟩

mutual

theorem ofShape_shape : ∀ content : Draft, Schema.ofShape content.shape = content.schema
  | text => rfl
  | property => rfl
  | nested fields => congrArg Schema.object (propertiesOf_shapes fields)

theorem propertiesOf_shapes : ∀ fields : List DraftField,
    Schema.propertiesOf (shapes fields) = properties fields
  | [] => rfl
  | .mk key required content :: rest => by
    rw [shapes, properties, Schema.propertiesOf, ofShape_shape content, propertiesOf_shapes rest]

end

end Draft

namespace Inference

open Draft

theorem fieldsOf_items {w : Workspace} (visit : String → StateM Registry (Option SchemaRef))
    (reader : Reader) {fields : List DraftField} (proper : AreProper fields) :
    fieldsOf .standard w visit reader (items fields) = pure (shapes fields) := by
  unfold fieldsOf
  rw [outline_items, fieldsAfter_outlines _ fields [] proper fun _ _ => nofun, List.nil_append]

/-- A class whose array is that of a draft gets the schema of the draft and nothing else. -/
theorem inferClass_items {w : Workspace} {scope : Scope} {fields : List DraftField}
    (array : array? .standard w "R" = some (scope, items fields)) (proper : AreProper fields) :
    inferClass .standard w "R" .empty =
      (some ⟨"R"⟩, Registry.empty.store "R" (.object (properties fields))) := by
  have free : shortName "R" ∉ Registry.empty.names := by simp [Registry.names, Registry.empty]
  have name : shortName "R" = "R" := by with_unfolding_all rfl
  have build : Schema.ofInferred (.ofFields (shapes fields)) = .object (properties fields) := by
    have distinct : (Field.keysOf (shapes fields)).Nodup := by
      rw [keysOf_shapes]
      exact nodup_keys proper
    rw [Schema.ofInferred_ofFields distinct, Schema.ofFields, propertiesOf_shapes]
  have stored : (Registry.empty.reserve "R").build "R" (.ofFields (shapes fields)) =
      Registry.empty.store "R" (.object (properties fields)) := by
    rw [Registry.build, build]
    rfl
  rw [inferClass_run, if_neg free, array]
  dsimp only
  rw [afterArray, fieldsOf_items _ _ proper, name, ← stored]
  rfl

end Inference

end ResponseShape

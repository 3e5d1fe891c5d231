import ResponseShape.Proofs.Settled

/-! A call adds to the registry and changes nothing in it. The one place that overwrites an entry is
the end of a body, and the entry is the reservation that its beginning put behind all others. -/
namespace ResponseShape

/-- The second registry has the entries of the first in their places, and what is new behind
them. -/
def Registry.IsPrefix (r r' : Registry) : Prop := r.entries.entries <+: r'.entries.entries

namespace Registry.IsPrefix

theorem refl (r : Registry) : r.IsPrefix r := List.prefix_refl _

theorem trans {r₁ r₂ r₃ : Registry} (h : r₁.IsPrefix r₂) (h' : r₂.IsPrefix r₃) : r₁.IsPrefix r₃ :=
  List.IsPrefix.trans h h'

theorem names_subset {r r' : Registry} (h : r.IsPrefix r') : r.names ⊆ r'.names :=
  (h.map Prod.fst).subset

end Registry.IsPrefix

namespace Inference

variable (config : Config) (w : Workspace)

/-- A relation between the registries before and after a visit to a class that also leads from the
reservation of a free name to the schema of an array. -/
structure Growth (R : Registry → Registry → Prop) : Prop where
  refl : ∀ r, R r r
  trans : ∀ {r₁ r₂ r₃}, R r₁ r₂ → R r₂ r₃ → R r₁ r₃
  inferClass : ∀ fullName r, R r (inferClass config w fullName r).2
  array : ∀ {fullName r} scope items, shortName fullName ∉ r.names →
    R (r.reserve (shortName fullName))
      (fieldsOf config w (Inference.inferClass config w) ⟨scope, some fullName⟩ items
        (r.reserve (shortName fullName))).2 →
    R r (afterArray config w (Inference.inferClass config w) fullName scope items r)

namespace Growth

variable {config w} {R : Registry → Registry → Prop}

theorem foldl (growth : Growth config w R) {α : Type} {step : Registry → α → Registry}
    (grows : ∀ r a, R r (step r a)) (steps : List α) (r : Registry) :
    R r (steps.foldl step r) := by
  induction steps generalizing r with
  | nil => exact growth.refl r
  | cons a rest ih => exact growth.trans (grows r a) (ih (step r a))

theorem construct (growth : Growth config w R) (reader : Reader) (owner : Name) (r : Registry) :
    R r (reader.construct w (Inference.inferClass config w) owner r).2 := by
  rw [construct_state]
  exact growth.inferClass _ r

theorem fieldsOf (growth : Growth config w R) (reader : Reader) (items : List ArrayItem)
    (r : Registry) :
    R r (Inference.fieldsOf config w (Inference.inferClass config w) reader items r).2 := by
  unfold Inference.fieldsOf
  rw [OutlineEntry.fieldsAfter_state]
  exact growth.foldl (fun r owner => growth.construct reader owner r) _ r

theorem inferBody (growth : Growth config w R) (fullName : String) (body : List Stmt)
    (scope : Scope) (r : Registry) :
    R r (Inference.inferBody config w fullName body scope r).2 := by
  unfold Inference.inferBody
  rw [inferBodyWith_run]
  split
  · exact growth.refl r
  next free =>
    split
    · exact growth.array scope _ free (growth.fieldsOf _ _ _)
    · exact growth.refl r

theorem infer? (growth : Growth config w R) (reader : Reader) (e : Expr) (r : Registry) :
    R r (Inference.infer? config w reader e r).2 := by
  cases e with
  | array items => exact growth.fieldsOf reader items r
  | _ => exact growth.refl r

theorem contributed? (growth : Growth config w R) (reader : Reader) (e : Expr) (r : Registry) :
    R r (Inference.contributed? config w reader e r).2 := by
  rw [contributed?_eq]
  cases config.read? e with
  | none => exact growth.refl r
  | some reading =>
    obtain ⟨content, optional⟩ := reading
    cases content with
    | construct owner => exact growth.construct reader owner r
    | record items => exact growth.fieldsOf reader items r
    | _ => exact growth.refl r

theorem sample? (growth : Growth config w R) (fullName : String) (r : Registry) :
    R r (Inference.sample? config w fullName r).2 := by
  rw [sample?_eq]
  cases returned? config w fullName with
  | none => exact growth.refl r
  | some found => exact growth.infer? _ _ r

theorem settle (growth : Growth config w R) (c : Call) (s : Session) :
    R s.registry (Inference.settle config w c s).2.registry := by
  cases c with
  | inferClass fullName => exact growth.inferClass fullName _
  | inferBody fullName body scope => exact growth.inferBody fullName body scope _
  | inferWithin fullName e scope => exact growth.infer? _ e _
  | infer e scope => exact growth.infer? _ e _
  | classify e scope => exact growth.contributed? _ e _
  | idiom method args scope => exact growth.contributed? _ _ _
  | construct owner scope => exact growth.construct _ owner _
  | respond fullName => exact growth.inferClass fullName _
  | sample fullName => exact growth.sample? fullName _

end Growth

theorem growth_isPrefix : Growth config w Registry.IsPrefix where
  refl := .refl
  trans := .trans
  inferClass fullName r := by
    obtain ⟨added, -, adds⟩ := inferClass_adds config w fullName r
    exact ⟨_, adds.entries.symm⟩
  array {fullName r} scope items free inner := by
    -- the schema goes to the reservation, and what stood before it stays
    obtain ⟨later, inner⟩ := inner
    rw [Registry.entries_reserve free, List.append_assoc] at inner
    refine ⟨_, (Registry.entries_build ?_ inner.symm free).symm⟩
    exact OutlineEntry.nodup_keysOf_fieldsAfter _ _ _

/-- The registry has only grown, and the stack is as it was. -/
structure Session.Extends (s s' : Session) : Prop where
  registry : s.registry.IsPrefix s'.registry
  enclosing : s'.enclosing = s.enclosing

theorem settle_stack (c : Call) (s : Session) :
    (settle config w c s).2.enclosing = s.enclosing := by
  cases c <;> rfl

theorem settle_extends (c : Call) (s : Session) : s.Extends (settle config w c s).2 :=
  ⟨(growth_isPrefix config w).settle c s, settle_stack config w c s⟩

end Inference

end ResponseShape

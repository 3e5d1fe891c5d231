import Mathlib.Data.List.Nodup
import ResponseShape.Proofs.Traversal

/-! Lists of fields, in which every key stands once: reading an outline gives no others. For them
the list of required keys says nothing that the fields do not say. -/
namespace ResponseShape

namespace Field

def keysOf (fields : List Field) : List String := fields.filterMap Field.key

theorem mem_write {f g : Field} {fields : List Field} (h : g ∈ f.write fields) :
    g = f ∨ g ∈ fields := by
  induction fields with
  | nil => simpa [write] using h
  | cons first rest ih =>
    rw [write] at h
    split at h
    · rcases List.mem_cons.1 h with h | h
      · exact Or.inl h
      · exact Or.inr (List.mem_cons_of_mem _ h)
    · rcases List.mem_cons.1 h with h | h
      · exact Or.inr (h ▸ List.mem_cons_self)
      · exact (ih h).imp_right (List.mem_cons_of_mem _)

theorem mem_splice {inner fields : List Field} {optional : Bool} {g : Field}
    (h : g ∈ splice inner optional fields) : (∃ f ∈ inner, g.shape = f.shape) ∨ g ∈ fields := by
  unfold splice at h
  induction inner generalizing fields with
  | nil => exact Or.inr h
  | cons f rest ih =>
    rcases ih h with ⟨f', hf, same⟩ | h
    · exact Or.inl ⟨f', List.mem_cons_of_mem _ hf, same⟩
    · refine (mem_write h).imp_left fun here => ⟨f, List.mem_cons_self, ?_⟩
      rw [here]
      split
      · cases f
        rfl
      · rfl

theorem keysOf_write_of_none {f : Field} (h : f.key = none) (fields : List Field) :
    keysOf (f.write fields) = keysOf fields := by
  induction fields with
  | nil => simp [write, keysOf, h]
  | cons first rest ih =>
    simp only [keysOf] at ih
    simp [write, keysOf, h, ih, List.filterMap_cons]

theorem keysOf_write_of_some {f : Field} {key : String} (h : f.key = some key)
    (fields : List Field) :
    keysOf (f.write fields) =
      if key ∈ keysOf fields then keysOf fields else keysOf fields ++ [key] := by
  induction fields with
  | nil => simp [write, keysOf, h]
  | cons first rest ih =>
    simp only [keysOf] at ih ⊢
    by_cases same : first.key = some key
    · simp [write, h, same]
    · cases hk : first.key with
      | none => simp [write, h, hk, ih]
      | some k =>
        have hne : key ≠ k := fun e => same (by rw [hk, e])
        have hne' : k ≠ key := fun e => hne e.symm
        by_cases hm : key ∈ rest.filterMap Field.key
        · simp [write, h, hk, hne', ih, hm]
        · simp [write, h, hk, hne, hne', ih, hm]

theorem nodup_keysOf_write (f : Field) {fields : List Field} (h : (keysOf fields).Nodup) :
    (keysOf (f.write fields)).Nodup := by
  cases hk : f.key with
  | none => rwa [keysOf_write_of_none hk]
  | some key =>
    rw [keysOf_write_of_some hk]
    split
    · exact h
    · next hm =>
      rw [← List.concat_eq_append]
      exact h.concat hm

theorem nodup_keysOf_splice (inner : List Field) (optional : Bool) {fields : List Field}
    (h : (keysOf fields).Nodup) : (keysOf (splice inner optional fields)).Nodup := by
  unfold splice
  induction inner generalizing fields with
  | nil => exact h
  | cons f rest ih => exact ih (nodup_keysOf_write _ h)

theorem eq_of_key {fields : List Field} (distinct : (keysOf fields).Nodup) {f g : Field}
    {key : String} (hf : f ∈ fields) (hg : g ∈ fields) (fk : f.key = some key)
    (gk : g.key = some key) : f = g := by
  induction fields with
  | nil => cases hf
  | cons first rest ih =>
    have known {h : Field} (hm : h ∈ rest) (hk : h.key = some key) : key ∈ keysOf rest :=
      List.mem_filterMap.2 ⟨h, hm, hk⟩
    have apart : first.key = some key → key ∉ keysOf rest := by
      intro hk
      rw [keysOf, List.filterMap_cons_some hk, List.nodup_cons] at distinct
      exact distinct.1
    have later : (keysOf rest).Nodup := by
      apply List.Nodup.sublist _ distinct
      exact (List.sublist_cons_self first rest).filterMap Field.key
    rcases List.mem_cons.1 hf with hf | hf <;> rcases List.mem_cons.1 hg with hg | hg
    · rw [hf, hg]
    · exact absurd (known hg gk) (apart (hf ▸ fk))
    · exact absurd (known hf fk) (apart (hg ▸ gk))
    · exact ih later hf hg

end Field

namespace Schema

theorem mem_propertiesOf {p : Property} : ∀ {fields : List Field},
    p ∈ propertiesOf fields ↔ ∃ f ∈ fields,
      f.key = some p.name ∧ p.schema = ofShape f.shape ∧ p.required = f.required
  | [] => by simp [propertiesOf]
  | .mk none shape required :: rest => by
    rw [propertiesOf, mem_propertiesOf]
    simp [Field.key]
  | .mk (some key) shape required :: rest => by
    obtain ⟨name, schema, flag⟩ := p
    rw [propertiesOf, List.mem_cons, mem_propertiesOf]
    simp only [List.mem_cons, or_and_right, exists_or, exists_eq_left]
    refine or_congr ?_ Iff.rfl
    simp [Field.key, Field.shape, Field.required, Property.name, Property.schema,
      Property.required, eq_comm]

theorem ofInferred_ofFields {fields : List Field} (distinct : (Field.keysOf fields).Nodup) :
    ofInferred (.ofFields fields) = ofFields fields := by
  unfold ofInferred ofFields Inferred.ofFields
  congr 1
  apply Eq.trans _ (List.map_id (propertiesOf fields))
  apply List.map_congr_left
  intro p hp
  obtain ⟨f, hf, name, -, flag⟩ := mem_propertiesOf.1 hp
  obtain ⟨key, schema, required⟩ := p
  have known : key ∈ ((fields.filter Field.required).filterMap Field.key).eraseDups ↔
      required = true := by
    rw [List.mem_eraseDups, List.mem_filterMap]
    constructor
    · rintro ⟨g, hg, gk⟩
      rw [List.mem_filter] at hg
      rw [Field.eq_of_key distinct hg.1 hf gk name] at hg
      exact flag.trans hg.2
    · intro h
      exact ⟨f, List.mem_filter.2 ⟨hf, flag.symm.trans h⟩, name⟩
  simp only [Property.name, Property.schema, List.contains_eq_mem, known, id, Bool.decide_eq_true]

end Schema

theorem OutlineEntry.nodup_keysOf_fieldsAfter {σ : Type} (construct : Name → StateM σ Shape)
    (entries : List OutlineEntry) (s : σ) :
    (Field.keysOf (fieldsAfter construct [] entries s).1).Nodup := by
  have kept : Kept construct (fun _ _ => True) fun _ fields => (Field.keysOf fields).Nodup :=
    { literal := fun _ => trivial
      scalar := fun _ => trivial
      record := fun _ => trivial
      nil := fun _ => List.nodup_nil
      write := fun _ h => Field.nodup_keysOf_write _ h
      splice := fun _ h => Field.nodup_keysOf_splice _ _ h
      answer := fun _ _ => trivial
      later := fun _ h => h }
  exact kept.lists_fieldsAfter entries (kept.nil s)

end ResponseShape

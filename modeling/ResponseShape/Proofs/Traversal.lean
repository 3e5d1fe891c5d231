import ResponseShape.Inference.Infer

/-! Reading an outline from left to right, whatever it means to construct a class. The classes are
constructed in source order, the state afterwards is the one these constructions lead to, and
computations that agree on constructions agree on outlines. -/
namespace ResponseShape

mutual

def Outline.owners : Outline → List Name
  | .literal | .scalar => []
  | .construct owner => [owner]
  | .record entries => ownersOf entries

def ownersOf : List OutlineEntry → List Name
  | [] => []
  | .field _ outline _ :: rest => outline.owners ++ ownersOf rest
  | .splice entries _ :: rest => ownersOf entries ++ ownersOf rest

end

namespace OutlineEntry

/-- A relation between computations that sequences respect. -/
structure Agreement (m₁ m₂ : Type → Type) [Monad m₁] [Monad m₂] where
  Agree : {α : Type} → m₁ α → m₂ α → Prop
  pure : ∀ {α : Type} (a : α), Agree (pure a) (pure a)
  bind : ∀ {α β : Type} {x : m₁ α} {y : m₂ α} {f : α → m₁ β} {g : α → m₂ β},
    Agree x y → (∀ a, Agree (f a) (g a)) → Agree (x >>= f) (y >>= g)

section Agreement

variable {m₁ m₂ : Type → Type} [Monad m₁] [Monad m₂] (A : Agreement m₁ m₂)
  {left : Name → m₁ Shape} {right : Name → m₂ Shape}

mutual

theorem shape?_agree : ∀ {outline : Outline},
    (∀ owner ∈ outline.owners, A.Agree (left owner) (right owner)) →
      A.Agree (shape? left outline) (shape? right outline)
  | .literal, _ => A.pure _
  | .scalar, _ => A.pure _
  | .construct owner, h => by
    rw [shape?, shape?]
    exact A.bind (h owner (by simp [Outline.owners])) fun _ => A.pure _
  | .record entries, h => by
    rw [shape?, shape?]
    exact A.bind (fieldsAfter_agree [] h) fun _ => A.pure _

theorem fieldsAfter_agree : ∀ {entries : List OutlineEntry} (fields : List Field),
    (∀ owner ∈ ownersOf entries, A.Agree (left owner) (right owner)) →
      A.Agree (fieldsAfter left fields entries) (fieldsAfter right fields entries)
  | [], fields, _ => A.pure _
  | .field key outline optional :: rest, fields, h => by
    rw [ownersOf, List.forall_mem_append] at h
    rw [fieldsAfter, fieldsAfter]
    refine A.bind (shape?_agree h.1) fun shape => ?_
    cases shape with
    | none => exact fieldsAfter_agree fields h.2
    | some shape => exact fieldsAfter_agree _ h.2
  | .splice entries optional :: rest, fields, h => by
    rw [ownersOf, List.forall_mem_append] at h
    rw [fieldsAfter, fieldsAfter]
    exact A.bind (fieldsAfter_agree [] h.1) fun inner => fieldsAfter_agree _ h.2

end

end Agreement

section State

variable {σ : Type}

theorem bind_run {α β : Type} (x : StateM σ α) (f : α → StateM σ β) (s : σ) :
    (x >>= f) s = f (x s).1 (x s).2 := rfl

theorem pure_run {α : Type} (a : α) (s : σ) : (pure a : StateM σ α) s = (a, s) := rfl

theorem get_run (s : σ) : (get : StateM σ σ) s = (s, s) := rfl

/-- Equal results and equal states, from states with an invariant that is kept. -/
def Agreement.under (invariant : σ → Prop) : Agreement (StateM σ) (StateM σ) where
  Agree x y := ∀ s, invariant s → x s = y s ∧ invariant (x s).2
  pure _ _ hs := ⟨rfl, hs⟩
  bind := by
    intro α β x y f g hx hf s hs
    obtain ⟨same, kept⟩ := hx s hs
    rw [bind_run, bind_run, ← same]
    exact hf (x s).1 (x s).2 kept

/-- Results that do not depend on the state, as long as it has an invariant that is kept. -/
def Agreement.stateless (invariant : σ → Prop) : Agreement (StateM σ) Id where
  Agree x y := ∀ s, invariant s → (x s).1 = y ∧ invariant (x s).2
  pure _ _ hs := ⟨rfl, hs⟩
  bind := by
    intro α β x y f g hx hf s hs
    obtain ⟨same, kept⟩ := hx s hs
    rw [bind_run, ← same]
    exact hf (x s).1 (x s).2 kept

variable (construct : Name → StateM σ Shape)

mutual

theorem shape?_state : ∀ (outline : Outline) (s : σ),
    (shape? construct outline s).2 =
      outline.owners.foldl (fun s owner => (construct owner s).2) s
  | .literal, _ => rfl
  | .scalar, _ => rfl
  | .construct owner, _ => rfl
  | .record entries, s => by
    rw [shape?, bind_run, Outline.owners]
    exact fieldsAfter_state entries [] s

theorem fieldsAfter_state : ∀ (entries : List OutlineEntry) (fields : List Field) (s : σ),
    (fieldsAfter construct fields entries s).2 =
      (ownersOf entries).foldl (fun s owner => (construct owner s).2) s
  | [], _, _ => rfl
  | .field key outline optional :: rest, fields, s => by
    rw [fieldsAfter, bind_run, ownersOf, List.foldl_append, ← shape?_state outline s]
    cases (shape? construct outline s).1 with
    | none => exact fieldsAfter_state rest fields _
    | some shape => exact fieldsAfter_state rest _ _
  | .splice entries optional :: rest, fields, s => by
    rw [fieldsAfter, bind_run, ownersOf, List.foldl_append, ← fieldsAfter_state entries [] s]
    exact fieldsAfter_state rest _ _

end

/-- Properties of shapes and of lists of fields that reading an outline keeps. They may speak of
the state, and then they must survive constructions. -/
structure Kept (shapes : σ → Shape → Prop) (lists : σ → List Field → Prop) : Prop where
  literal : ∀ s, shapes s .literal
  scalar : ∀ s, shapes s .scalar
  record : ∀ {s fields}, lists s fields → shapes s (.record fields)
  nil : ∀ s, lists s []
  write : ∀ {s key shape required fields}, shapes s shape → lists s fields →
    lists s (Field.write ⟨key, shape, required⟩ fields)
  splice : ∀ {s inner optional fields}, lists s inner → lists s fields →
    lists s (Field.splice inner optional fields)
  answer : ∀ owner s, shapes (construct owner s).2 (construct owner s).1
  later : ∀ {s fields} owner, lists s fields → lists (construct owner s).2 fields

namespace Kept

variable {construct} {shapes : σ → Shape → Prop} {lists : σ → List Field → Prop}

theorem later_foldl (kept : Kept construct shapes lists) {fields : List Field} :
    ∀ (owners : List Name) {s : σ}, lists s fields →
      lists (owners.foldl (fun s owner => (construct owner s).2) s) fields
  | [], _, h => h
  | owner :: rest, _, h => kept.later_foldl rest (kept.later owner h)

mutual

theorem shapes_shape? (kept : Kept construct shapes lists) :
    ∀ (outline : Outline) (s : σ) (shape : Shape),
    (OutlineEntry.shape? construct outline s).1 = some shape →
      shapes (OutlineEntry.shape? construct outline s).2 shape
  | .literal, s, _, h => by
    cases h
    exact kept.literal s
  | .scalar, s, _, h => by
    cases h
    exact kept.scalar s
  | .construct owner, s, _, h => by
    cases h
    exact kept.answer owner s
  | .record entries, s, shape, h => by
    rw [OutlineEntry.shape?, bind_run] at h ⊢
    have inner := kept.lists_fieldsAfter entries (kept.nil s)
    revert h
    split
    · intro h
      cases h
    · intro h
      cases h
      exact kept.record inner

theorem lists_fieldsAfter (kept : Kept construct shapes lists) :
    ∀ (entries : List OutlineEntry) {fields : List Field} {s : σ}, lists s fields →
      lists (OutlineEntry.fieldsAfter construct fields entries s).2
        (OutlineEntry.fieldsAfter construct fields entries s).1
  | [], _, _, h => h
  | .field key outline optional :: rest, fields, s, h => by
    rw [OutlineEntry.fieldsAfter, bind_run]
    have before : lists (OutlineEntry.shape? construct outline s).2 fields := by
      rw [shape?_state]
      exact kept.later_foldl _ h
    have new := kept.shapes_shape? outline s
    cases hs : (OutlineEntry.shape? construct outline s).1 with
    | none => exact kept.lists_fieldsAfter rest before
    | some shape => exact kept.lists_fieldsAfter rest (kept.write (new _ hs) before)
  | .splice entries optional :: rest, fields, s, h => by
    rw [OutlineEntry.fieldsAfter, bind_run]
    have inner := kept.lists_fieldsAfter entries (kept.nil s)
    have before : lists (OutlineEntry.fieldsAfter construct [] entries s).2 fields := by
      rw [fieldsAfter_state]
      exact kept.later_foldl _ h
    exact kept.lists_fieldsAfter rest (kept.splice inner before)

end

end Kept

end State

end OutlineEntry

section Names

variable (f : Name → Name)

mutual

def Outline.mapOwners : Outline → Outline
  | .literal => .literal
  | .scalar => .scalar
  | .construct owner => .construct (f owner)
  | .record entries => .record (mapOwnersOf entries)

def mapOwnersOf : List OutlineEntry → List OutlineEntry
  | [] => []
  | .field key outline optional :: rest =>
    .field key outline.mapOwners optional :: mapOwnersOf rest
  | .splice entries optional :: rest => .splice (mapOwnersOf entries) optional :: mapOwnersOf rest

end

mutual

theorem Outline.mapOwners_mapOwners (g : Name → Name) : ∀ outline : Outline,
    (outline.mapOwners f).mapOwners g = outline.mapOwners fun owner => g (f owner)
  | .literal | .scalar | .construct _ => rfl
  | .record entries => by
    rw [Outline.mapOwners, Outline.mapOwners, Outline.mapOwners, mapOwnersOf_mapOwnersOf g entries]

theorem mapOwnersOf_mapOwnersOf (g : Name → Name) : ∀ entries : List OutlineEntry,
    mapOwnersOf g (mapOwnersOf f entries) = mapOwnersOf (fun owner => g (f owner)) entries
  | [] => rfl
  | .field _ outline _ :: rest => by
    rw [mapOwnersOf, mapOwnersOf, mapOwnersOf, outline.mapOwners_mapOwners g,
      mapOwnersOf_mapOwnersOf g rest]
  | .splice entries _ :: rest => by
    rw [mapOwnersOf, mapOwnersOf, mapOwnersOf, mapOwnersOf_mapOwnersOf g entries,
      mapOwnersOf_mapOwnersOf g rest]

end

namespace OutlineEntry

variable {m : Type → Type} [Monad m] (construct : Name → m Shape)

mutual

theorem shape?_mapOwners : ∀ outline : Outline,
    shape? construct (outline.mapOwners f) = shape? (fun owner => construct (f owner)) outline
  | .literal | .scalar | .construct _ => rfl
  | .record entries => by
    rw [Outline.mapOwners, shape?, shape?, fieldsAfter_mapOwnersOf entries]

theorem fieldsAfter_mapOwnersOf : ∀ (entries : List OutlineEntry) (fields : List Field),
    fieldsAfter construct fields (mapOwnersOf f entries) =
      fieldsAfter (fun owner => construct (f owner)) fields entries
  | [], _ => rfl
  | .field key outline optional :: rest, fields => by
    rw [mapOwnersOf, fieldsAfter, fieldsAfter, shape?_mapOwners outline]
    apply congrArg
    funext shape
    cases shape <;> exact fieldsAfter_mapOwnersOf rest _
  | .splice entries optional :: rest, fields => by
    rw [mapOwnersOf, fieldsAfter, fieldsAfter, fieldsAfter_mapOwnersOf entries]
    apply congrArg
    funext inner
    exact fieldsAfter_mapOwnersOf rest _

end

end OutlineEntry

end Names

end ResponseShape

import ResponseShape.Proofs.Preorder

/-! What a visit to a class does to the registry. Every name it finds stays where it is; behind
these it adds, in depth-first order, the classes whose short names were free, each with the schema
of its own array. Main statement: `inferClass_adds`. -/
namespace ResponseShape.Inference

variable (config : Config) (w : Workspace)

section Step

variable (visit : String → StateM Registry (Option SchemaRef))

/-- The registry after the array of a class is read and its schema is stored. -/
def afterArray (fullName : String) (scope : Scope) (items : List ArrayItem) (r : Registry) :
    Registry :=
  let found := fieldsOf config w visit ⟨scope, some fullName⟩ items
    (r.reserve (shortName fullName))
  found.2.build (shortName fullName) (.ofFields found.1)

theorem inferBodyWith_run (fullName : String) (body : List Stmt) (scope : Scope) (r : Registry) :
    inferBodyWith config w visit fullName body scope r =
      if shortName fullName ∈ r.names then (some ⟨shortName fullName⟩, r)
      else match returnValue? body with
        | some (.array items) =>
          (some ⟨shortName fullName⟩, afterArray config w visit fullName scope items r)
        | _ => (none, r) := by
  unfold inferBodyWith
  rw [OutlineEntry.bind_run, OutlineEntry.get_run]
  simp only [Registry.has_iff]
  by_cases taken : shortName fullName ∈ r.names
  · rw [if_pos taken, if_pos taken]
    rfl
  · rw [if_neg taken, if_neg taken]
    cases returnValue? body with
    | none => rfl
    | some e => cases e <;> rfl

theorem inferClassWith_run (fullName : String) (r : Registry) :
    inferClassWith config w visit fullName r =
      if shortName fullName ∈ r.names then (some ⟨shortName fullName⟩, r)
      else match array? config w fullName with
        | none => (none, r)
        | some (scope, items) =>
          (some ⟨shortName fullName⟩, afterArray config w visit fullName scope items r) := by
  unfold inferClassWith array?
  rw [OutlineEntry.bind_run, OutlineEntry.get_run]
  simp only [Registry.has_iff]
  by_cases taken : shortName fullName ∈ r.names
  · rw [if_pos taken, if_pos taken]
    rfl
  rw [if_neg taken, if_neg taken]
  cases w.find? fullName with
  | none => rfl
  | some t =>
    dsimp only [Option.bind_eq_bind, Option.bind_some]
    cases t.body? config.method with
    | none => rfl
    | some body =>
      dsimp only [Option.bind_some]
      rw [inferBodyWith_run, if_neg taken]
      cases returnValue? body with
      | none => rfl
      | some e => cases e <;> rfl

theorem construct_run (reader : Reader) (owner : Name) (r : Registry) :
    reader.construct w visit owner r =
      if w.declares (reader.className w owner) then
        ((visit (reader.className w owner) r).1.elim .scalar fun ref => .reference ref.name,
          (visit (reader.className w owner) r).2)
      else (.scalar, r) := by
  unfold Reader.construct
  by_cases declared : w.declares (reader.className w owner)
  · rw [if_pos declared, if_pos declared, OutlineEntry.bind_run]
    cases (visit (reader.className w owner) r).1 <;> rfl
  · rw [if_neg declared, if_neg declared]
    rfl

variable {config w visit}

theorem names_subset_foldl {α : Type} {step : Registry → α → Registry}
    (grows : ∀ r a, r.names ⊆ (step r a).names) (steps : List α) (r : Registry) :
    r.names ⊆ (steps.foldl step r).names := by
  induction steps generalizing r with
  | nil => exact fun _ h => h
  | cons a rest ih => exact List.Subset.trans (grows r a) (ih (step r a))

theorem names_subset_construct (grows : ∀ x r, r.names ⊆ (visit x r).2.names) (reader : Reader)
    (owner : Name) (r : Registry) : r.names ⊆ (reader.construct w visit owner r).2.names := by
  rw [construct_run]
  split
  · exact grows _ r
  · exact fun _ h => h

theorem names_subset_fieldsOf (grows : ∀ x r, r.names ⊆ (visit x r).2.names) (reader : Reader)
    (items : List ArrayItem) (r : Registry) :
    r.names ⊆ (fieldsOf config w visit reader items r).2.names := by
  unfold fieldsOf
  rw [OutlineEntry.fieldsAfter_state]
  exact names_subset_foldl (fun s owner => names_subset_construct grows reader owner s) _ r

theorem names_subset_inferClassWith (grows : ∀ x r, r.names ⊆ (visit x r).2.names)
    (fullName : String) (r : Registry) :
    r.names ⊆ (inferClassWith config w visit fullName r).2.names := by
  rw [inferClassWith_run]
  split
  · exact fun _ h => h
  next free =>
    cases array? config w fullName with
    | none => exact fun _ h => h
    | some found =>
      intro name h
      apply Registry.names_subset_build
      apply names_subset_fieldsOf grows
      rw [Registry.names_reserve free]
      exact List.mem_append_left _ h

end Step

variable {config w}

theorem pending_eq (r : Registry) : pending w r = untaken w shortName r.names := by
  unfold pending untaken
  rw [List.countP_eq_length_filter]
  congr 1
  apply List.filter_congr
  intro fullName _
  rw [Bool.eq_iff_iff, Bool.not_eq_true', ← Bool.not_eq_true, Registry.has_iff, decide_eq_true_eq]

theorem pending_anti {r r' : Registry} (h : r.names ⊆ r'.names) : pending w r' ≤ pending w r := by
  rw [pending_eq, pending_eq]
  exact untaken_anti h

theorem pending_reserve_lt {fullName : String} {r : Registry}
    (hasArray : (array? config w fullName).isSome) (free : shortName fullName ∉ r.names) :
    pending w (r.reserve (shortName fullName)) < pending w r := by
  rw [pending_eq, pending_eq, Registry.names_reserve free]
  exact untaken_lt (List.subset_append_left _ _) (mem_classNames_of_array? config w hasArray) free
    (by simp)

variable (config w)

theorem names_subset_inferClass (fullName : String) (r : Registry) :
    r.names ⊆ (inferClass config w fullName r).2.names := by
  -- a visit that is let through starts with fewer classes pending
  induction hn : pending w r using Nat.strongRecOn generalizing fullName r with
  | _ n ih =>
    rw [inferClass]
    apply names_subset_inferClassWith
    intro other s
    by_cases less : pending w s < pending w r
    · rw [dif_pos less]
      exact ih _ (hn ▸ less) other s rfl
    · rw [dif_neg less]
      exact fun _ h => h

/-- The bound on the classes that are still to be read never stops a visit. -/
theorem inferClass_eq (fullName : String) (r : Registry) :
    inferClass config w fullName r =
      inferClassWith config w (inferClass config w) fullName r := by
  rw [inferClass, inferClassWith_run, inferClassWith_run]
  by_cases taken : shortName fullName ∈ r.names
  · rw [if_pos taken, if_pos taken]
  rw [if_neg taken, if_neg taken]
  cases ha : array? config w fullName with
  | none => rfl
  | some found =>
    obtain ⟨scope, items⟩ := found
    -- no registry from here on has more classes pending than the one with the reservation
    have start := pending_reserve_lt (r := r) (by rw [ha]; rfl) taken
    dsimp only
    congr 1
    unfold afterArray fieldsOf
    rw [(OutlineEntry.fieldsAfter_agree
      (OutlineEntry.Agreement.under fun s => pending w s < pending w r) [] ?_ _ start).1]
    intro owner _ s less
    rw [construct_run, construct_run, dif_pos less]
    refine ⟨rfl, ?_⟩
    split
    · exact Nat.lt_of_le_of_lt (pending_anti (names_subset_inferClass config w _ s)) less
    · exact less

theorem inferClass_run (fullName : String) (r : Registry) :
    inferClass config w fullName r =
      if shortName fullName ∈ r.names then (some ⟨shortName fullName⟩, r)
      else match array? config w fullName with
        | none => (none, r)
        | some (scope, items) =>
          (some ⟨shortName fullName⟩,
            afterArray config w (inferClass config w) fullName scope items r) := by
  rw [inferClass_eq, inferClassWith_run]

theorem inferClass_answer (fullName : String) (r : Registry) :
    (inferClass config w fullName r).1 =
      if shortName fullName ∈ r.names ∨ (array? config w fullName).isSome then
        some ⟨shortName fullName⟩
      else none := by
  rw [inferClass_run]
  by_cases taken : shortName fullName ∈ r.names
  · rw [if_pos taken, if_pos (Or.inl taken)]
  · rw [if_neg taken]
    cases array? config w fullName with
    | none => simp [taken]
    | some found => simp

theorem inferClass_of_no_array {fullName : String} (h : array? config w fullName = none)
    (r : Registry) : (inferClass config w fullName r).2 = r := by
  rw [inferClass_run, h]
  split <;> rfl

def visitAll (fullNames : List String) (r : Registry) : Registry :=
  fullNames.foldl (fun r fullName => (inferClass config w fullName r).2) r

theorem names_subset_visitAll (fullNames : List String) (r : Registry) :
    r.names ⊆ (visitAll config w fullNames r).names :=
  names_subset_foldl (fun s fullName => names_subset_inferClass config w fullName s) fullNames r

theorem construct_state (reader : Reader) (owner : Name) (r : Registry) :
    (reader.construct w (inferClass config w) owner r).2 =
      (inferClass config w (reader.className w owner) r).2 := by
  rw [construct_run]
  by_cases declared : w.declares (reader.className w owner)
  · rw [if_pos declared]
  · have noArray : array? config w (reader.className w owner) = none := by
      rw [← Option.not_isSome_iff_eq_none]
      exact fun h => declared (find?_of_array? config w h)
    rw [if_neg declared, inferClass_of_no_array config w noArray]

theorem fieldsOf_state {fullName : String} {scope : Scope} {items : List ArrayItem}
    (h : array? config w fullName = some (scope, items)) (r : Registry) :
    (fieldsOf config w (inferClass config w) ⟨scope, some fullName⟩ items r).2 =
      visitAll config w (constructed config w fullName) r := by
  unfold fieldsOf visitAll constructed
  rw [OutlineEntry.fieldsAfter_state, h, List.foldl_map]
  simp only [construct_state]

/-- Reading the array of a class from one registry gives its schema and another registry. -/
def ReadsArray (fullName : String) (r r' : Registry) (schema : Schema) : Prop :=
  ∃ scope items, array? config w fullName = some (scope, items) ∧
    r' = (fieldsOf config w (inferClass config w) ⟨scope, some fullName⟩ items r).2 ∧
    schema = .ofFields (fieldsOf config w (inferClass config w) ⟨scope, some fullName⟩ items r).1

variable {config w} in
theorem ReadsArray.names_subset {fullName : String} {r r' : Registry} {schema : Schema}
    (h : ReadsArray config w fullName r r' schema) : r.names ⊆ r'.names := by
  obtain ⟨scope, items, -, rfl, -⟩ := h
  exact names_subset_fieldsOf (names_subset_inferClass config w) _ items r

/-- One registry extends another by the schemas of some classes: each was read, under its name,
from a registry on the way. -/
structure Adds (r r' : Registry) (added : List (String × Schema)) : Prop where
  entries : r'.entries.entries =
    r.entries.entries ++ added.map fun a => (shortName a.1, .ready a.2)
  built : ∀ a ∈ added, ∃ s s', ReadsArray config w a.1 s s' a.2 ∧
    shortName a.1 ∈ s.names ∧ s'.names ⊆ r'.names

variable {config w}

theorem Adds.names {r r' : Registry} {added : List (String × Schema)}
    (h : Adds config w r r' added) :
    r'.names = r.names ++ (added.map Prod.fst).map shortName := by
  rw [Registry.names_eq, h.entries, List.map_append, List.map_map, List.map_map]
  rfl

theorem Adds.entry_of_empty {r : Registry} {added : List (String × Schema)}
    (h : Adds config w .empty r added) {name : String} {entry : Entry}
    (found : r.entry? name = some entry) :
    ∃ a ∈ added, name = shortName a.1 ∧ entry = .ready a.2 := by
  have place := Table.find?_eq_some_iff.1 found
  rw [h.entries] at place
  obtain ⟨a, ha, same⟩ := List.mem_map.1 place
  cases same
  exact ⟨a, ha, rfl, rfl⟩

theorem Adds.refl (r : Registry) : Adds config w r r [] where
  entries := by simp
  built := by simp

theorem Adds.trans {r r' r'' : Registry} {added more : List (String × Schema)}
    (first : Adds config w r r' added) (last : Adds config w r' r'' more) :
    Adds config w r r'' (added ++ more) where
  entries := by
    rw [last.entries, first.entries, List.map_append, List.append_assoc]
  built := by
    intro a ha
    rcases List.mem_append.1 ha with ha | ha
    · obtain ⟨s, s', reads, here, later⟩ := first.built a ha
      refine ⟨s, s', reads, here, fun name h => ?_⟩
      rw [last.names]
      exact List.mem_append_left _ (later h)
    · exact last.built a ha

/-- The schema of a class goes to the place that was reserved before its array was read. -/
theorem Adds.build {fullName : String} {scope : Scope} {items : List ArrayItem} {r : Registry}
    {added : List (String × Schema)} (h : array? config w fullName = some (scope, items))
    (free : shortName fullName ∉ r.names)
    (inner : Adds config w (r.reserve (shortName fullName))
      (fieldsOf config w (inferClass config w) ⟨scope, some fullName⟩ items
        (r.reserve (shortName fullName))).2 added) :
    ∃ schema, Adds config w r
      (afterArray config w (inferClass config w) fullName scope items r)
      ((fullName, schema) :: added) := by
  unfold afterArray
  generalize hf : fieldsOf config w (inferClass config w) ⟨scope, some fullName⟩ items
    (r.reserve (shortName fullName)) = found at inner ⊢
  have distinct : (Field.keysOf found.1).Nodup := by
    rw [← hf]
    exact OutlineEntry.nodup_keysOf_fieldsAfter _ _ _
  -- what was added meanwhile stands behind the reservation
  have place := inner.entries
  rw [Registry.entries_reserve free, List.append_assoc] at place
  refine ⟨.ofFields found.1, Registry.entries_build distinct place free, ?_⟩
  have later := Registry.names_subset_build found.2 (shortName fullName) (.ofFields found.1)
  intro a ha
  rcases List.mem_cons.1 ha with rfl | ha
  · refine ⟨r.reserve (shortName fullName), found.2, ⟨scope, items, h, ?_, ?_⟩, ?_, later⟩
    · rw [hf]
    · rw [hf]
    · rw [Registry.names_reserve free]
      simp
  · obtain ⟨s, s', reads, here, known⟩ := inner.built a ha
    exact ⟨s, s', reads, here, List.Subset.trans known later⟩

theorem visitAll_adds_of {bound : Nat}
    (visit : ∀ fullName r, pending w r < bound → ∃ added,
      added.map Prod.fst = preorder config w shortName r.names [fullName] ∧
        Adds config w r (inferClass config w fullName r).2 added) :
    ∀ (fullNames : List String) (r : Registry), pending w r < bound → ∃ added,
      added.map Prod.fst = preorder config w shortName r.names fullNames ∧
        Adds config w r (visitAll config w fullNames r) added
  | [], r, _ => ⟨[], by rw [preorder, List.map_nil], Adds.refl r⟩
  | fullName :: rest, r, less => by
    obtain ⟨added, order, first⟩ := visit fullName r less
    have grown := pending_anti (w := w) (names_subset_inferClass config w fullName r)
    obtain ⟨more, order', last⟩ := visitAll_adds_of visit rest
      (inferClass config w fullName r).2 (Nat.lt_of_le_of_lt grown less)
    refine ⟨added ++ more, ?_, first.trans last⟩
    rw [List.map_append, order', first.names, order, ← preorder_append]
    rfl

variable (config w)

theorem inferClass_adds (fullName : String) (r : Registry) : ∃ added,
    added.map Prod.fst = preorder config w shortName r.names [fullName] ∧
      Adds config w r (inferClass config w fullName r).2 added := by
  induction hn : pending w r using Nat.strongRecOn generalizing fullName r with
  | _ n ih =>
    rw [inferClass_run, preorder, preorder]
    by_cases taken : shortName fullName ∈ r.names
    · rw [if_pos taken, dif_neg (fun h => h.1 taken)]
      exact ⟨[], rfl, Adds.refl r⟩
    rw [if_neg taken]
    cases ha : array? config w fullName with
    | none => exact ⟨[], by simp, Adds.refl r⟩
    | some found =>
      obtain ⟨scope, items⟩ := found
      -- behind the reservation fewer classes are pending
      have start : pending w (r.reserve (shortName fullName)) < n :=
        hn ▸ pending_reserve_lt (by rw [ha]; rfl) taken
      obtain ⟨added, order, inner⟩ := visitAll_adds_of
        (fun other s less => ih _ less other s rfl) (constructed config w fullName) _ start
      rw [← fieldsOf_state config w ha] at inner
      obtain ⟨schema, all⟩ := Adds.build ha taken inner
      refine ⟨(fullName, schema) :: added, ?_, all⟩
      rw [dif_pos ⟨taken, rfl⟩, List.map_cons, order, Registry.names_reserve taken,
        List.append_nil]

theorem mem_names_inferClass (fullName : String) (r : Registry)
    (h : shortName fullName ∈ r.names ∨ (array? config w fullName).isSome) :
    shortName fullName ∈ (inferClass config w fullName r).2.names := by
  rcases h with known | hasArray
  · exact names_subset_inferClass config w fullName r known
  · obtain ⟨added, order, adds⟩ := inferClass_adds config w fullName r
    rw [adds.names, order]
    exact taken_of_preorder r.names [fullName] (Or.inl (List.mem_singleton_self fullName)) hasArray

theorem visitAll_adds (fullNames : List String) (r : Registry) : ∃ added,
    added.map Prod.fst = preorder config w shortName r.names fullNames ∧
      Adds config w r (visitAll config w fullNames r) added :=
  visitAll_adds_of (fun fullName s _ => inferClass_adds config w fullName s) fullNames r
    (Nat.lt_succ_self _)

end ResponseShape.Inference

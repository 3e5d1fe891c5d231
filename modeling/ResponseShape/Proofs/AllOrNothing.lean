import ResponseShape.Proofs.Distinct

/-! A class is read to the end or not at all. Where no array is found nothing is reserved; where
one is, no reservation is left behind; and once is enough. Main statement: `readings_settle`. -/
namespace ResponseShape

def Registry.IsReady (r : Registry) (name : String) : Prop :=
  ∃ schema, r.entry? name = some (.ready schema)

theorem Registry.Gains.isReady {r r' : Registry} (h : r.Gains r') {name : String}
    (known : name ∈ r'.names) (new : name ∉ r.names) : r'.IsReady name := by
  obtain ⟨added, entries, distinct⟩ := h
  rw [Registry.names_eq, entries, List.map_append, List.mem_append] at known
  obtain ⟨a, ha, rfl⟩ := List.mem_map.1 (known.resolve_left new)
  obtain ⟨fields, -, ready⟩ := distinct a ha
  refine ⟨Schema.ofFields fields, Table.find?_eq_some_iff.2 ?_⟩
  rw [entries, ← ready]
  exact List.mem_append_right _ ha

namespace Inference

/-- A run that reads the class with this short name either comes to its end or does nothing, where
`hasArray` tells whether there is an array to read. -/
structure AllOrNothing {α : Type} (run : StateM Registry (Option α)) (name : String)
    (hasArray : Prop) (r : Registry) : Prop where
  answers : (run r).1.isSome ↔ name ∈ r.names ∨ hasArray
  nothing : (run r).1 = none → (run r).2 = r
  all : (run r).1.isSome → name ∉ r.names →
    (run r).2.IsReady name ∧ ∀ other ∈ (run r).2.names, other ∉ r.names → (run r).2.IsReady other
  again : run (run r).2 = run r

section

variable {α : Type} {run : StateM Registry (Option α)} {name : String} {hasArray : Prop}
  {r : Registry}

/-- A run that answers for a taken name at once, and otherwise only if there is an array. -/
theorem AllOrNothing.of_answer (ref : α) (taken : ∀ s, name ∈ s.names → run s = (some ref, s))
    (missing : name ∉ r.names → ¬hasArray → run r = (none, r))
    (found : name ∉ r.names → hasArray →
      (run r).1 = some ref ∧ name ∈ (run r).2.names ∧ r.Gains (run r).2) :
    AllOrNothing run name hasArray r := by
  by_cases known : name ∈ r.names
  · have same := taken r known
    refine ⟨?_, ?_, fun _ new => absurd known new, ?_⟩
    · simp [same, known]
    · simp [same]
    · rw [same, same]
  by_cases array : hasArray
  · obtain ⟨answer, later, gains⟩ := found known array
    refine ⟨?_, ?_, fun _ _ => ⟨gains.isReady later known, fun _ => gains.isReady⟩, ?_⟩
    · simp [answer, array]
    · simp [answer]
    · rw [taken _ later, ← answer]
      rfl
  · have none := missing known array
    refine ⟨?_, fun _ => by rw [none], ?_, ?_⟩
    · simp [none, known, array]
    · simp [none]
    · rw [none]
      exact none

/-- The answer may be put in another form. -/
theorem AllOrNothing.map {β : Type} (f : α → β) (h : AllOrNothing run name hasArray r) :
    AllOrNothing (fun s => ((run s).1.map f, (run s).2)) name hasArray r where
  answers := by simpa using h.answers
  nothing := by simpa using h.nothing
  all := by simpa using h.all
  again := by rw [h.again]

end

variable (config : Config) (w : Workspace)

def ReturnsArray (body : List Stmt) : Prop := ∃ items, returnValue? body = some (.array items)

def HasArray (fullName : String) : Prop :=
  ∃ t body, w.find? fullName = some t ∧ t.body? config.method = some body ∧ ReturnsArray body

variable {config w}

theorem isSome_array?_iff {fullName : String} :
    (array? config w fullName).isSome ↔ HasArray config w fullName := by
  unfold array? HasArray ReturnsArray
  cases w.find? fullName with
  | none => simp
  | some t =>
    cases hb : t.body? config.method with
    | none => simp [hb]
    | some body =>
      cases hv : returnValue? body with
      | none => simp [hb, hv]
      | some e => cases e <;> simp [hb, hv]

variable (config w)

theorem inferClass_allOrNothing (fullName : String) (r : Registry) :
    AllOrNothing (inferClass config w fullName) (shortName fullName) (HasArray config w fullName)
      r := by
  apply AllOrNothing.of_answer ⟨shortName fullName⟩
  · intro s taken
    rw [inferClass_run, if_pos taken]
  · intro free noArray
    rw [← isSome_array?_iff, Option.not_isSome_iff_eq_none] at noArray
    rw [inferClass_run, if_neg free, noArray]
  · intro free hasArray
    have known := Or.inr (a := shortName fullName ∈ r.names) (isSome_array?_iff.2 hasArray)
    refine ⟨?_, mem_names_inferClass config w fullName r known, ?_⟩
    · rw [inferClass_answer, if_pos known]
    · exact (growth_gains config w).inferClass fullName r

theorem mem_names_afterArray (fullName : String) (scope : Scope) (items : List ArrayItem)
    {r : Registry} (free : shortName fullName ∉ r.names) :
    shortName fullName ∈
      (afterArray config w (inferClass config w) fullName scope items r).names := by
  apply Registry.names_subset_build
  apply names_subset_fieldsOf (names_subset_inferClass config w)
  rw [Registry.names_reserve free]
  simp

theorem inferBody_allOrNothing (fullName : String) (body : List Stmt) (scope : Scope)
    (r : Registry) :
    AllOrNothing (inferBody config w fullName body scope) (shortName fullName) (ReturnsArray body)
      r := by
  apply AllOrNothing.of_answer ⟨shortName fullName⟩
  · intro s taken
    rw [inferBody, inferBodyWith_run, if_pos taken]
  · intro free noArray
    rw [inferBody, inferBodyWith_run, if_neg free]
    split
    · next items value => exact absurd ⟨items, value⟩ noArray
    · rfl
  · rintro free ⟨items, value⟩
    have gains := (growth_gains config w).inferBody fullName body scope r
    rw [inferBody, inferBodyWith_run, if_neg free, value] at gains ⊢
    exact ⟨rfl, mem_names_afterArray config w fullName scope items free, gains⟩

/-- A request for a class, for its response, or for the schema of a given body is answered exactly
where the short name is taken or there is an array. Without an answer the registry is as before;
with one, the class and all that came with it are ready; and the same request answers the same
and adds nothing. -/
theorem readings_settle (fullName : String) (r : Registry) :
    AllOrNothing (inferClass config w fullName) (shortName fullName) (HasArray config w fullName)
      r ∧
    AllOrNothing (respond? config w fullName) (shortName fullName) (HasArray config w fullName) r ∧
    ∀ body scope, AllOrNothing (inferBody config w fullName body scope) (shortName fullName)
      (ReturnsArray body) r := by
  have class_ := inferClass_allOrNothing config w fullName r
  refine ⟨class_, ?_, fun body scope => inferBody_allOrNothing config w fullName body scope r⟩
  exact class_.map fun ref => Response.json 200 ref.toSchema

end Inference

end ResponseShape

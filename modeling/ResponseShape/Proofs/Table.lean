import Mathlib.Data.List.Induction
import ResponseShape.Table

/-! A table as a function from names to values, and as a list without repeated names. A write
changes the value at one name; a new name comes last, a known one keeps its place. -/
namespace ResponseShape

namespace Association

variable {α : Type u}

theorem find?_eq_none_iff {key : String} {entries : List (String × α)} :
    find? key entries = none ↔ key ∉ entries.map Prod.fst := by
  induction entries with
  | nil => simp [find?]
  | cons e rest ih =>
    obtain ⟨k, v⟩ := e
    by_cases h : k = key
    · subst h
      simp [find?]
    · have h' : key ≠ k := fun same => h same.symm
      simp only [find?, h, if_false, ih, List.map_cons, List.mem_cons, h', false_or]

theorem mem_of_find? {key : String} {value : α} {entries : List (String × α)}
    (h : find? key entries = some value) : (key, value) ∈ entries := by
  induction entries with
  | nil => cases h
  | cons e rest ih =>
    obtain ⟨k, v⟩ := e
    by_cases hk : k = key
    · subst hk
      simp only [find?, if_true, Option.some.injEq] at h
      simp [h]
    · simp only [find?, hk, if_false] at h
      exact List.mem_cons_of_mem _ (ih h)

theorem find?_of_mem {key : String} {value : α} {entries : List (String × α)}
    (distinct : (entries.map Prod.fst).Nodup) (h : (key, value) ∈ entries) :
    find? key entries = some value := by
  induction entries with
  | nil => cases h
  | cons e rest ih =>
    obtain ⟨k, v⟩ := e
    rw [List.map_cons, List.nodup_cons] at distinct
    rcases List.mem_cons.1 h with h | h
    · cases h
      simp [find?]
    · have hk : k ≠ key := by
        intro same
        subst same
        exact distinct.1 (List.mem_map.2 ⟨_, h, rfl⟩)
      simp only [find?, hk, if_false]
      exact ih distinct.2 h

theorem find?_write (key k : String) (value : α) (entries : List (String × α)) :
    find? k (write key value entries) = if key = k then some value else find? k entries := by
  induction entries with
  | nil => simp [write, find?]
  | cons e rest ih =>
    obtain ⟨k', v⟩ := e
    by_cases h : k' = key
    · subst h
      by_cases hk : k' = k <;> simp [write, find?, hk]
    · by_cases hk : k' = k
      · subst hk
        have hne : key ≠ k' := fun same => h same.symm
        simp [write, find?, h, hne]
      · simp [write, find?, h, hk, ih]

theorem write_of_not_mem {key : String} (value : α) {entries : List (String × α)}
    (h : key ∉ entries.map Prod.fst) : write key value entries = entries ++ [(key, value)] := by
  induction entries with
  | nil => rfl
  | cons e rest ih =>
    obtain ⟨k, v⟩ := e
    rw [List.map_cons, List.mem_cons, not_or] at h
    have hk : k ≠ key := fun same => h.1 same.symm
    simp [write, hk, ih h.2]

theorem write_append_cons {key : String} (value old : α) {before : List (String × α)}
    (after : List (String × α)) (h : key ∉ before.map Prod.fst) :
    write key value (before ++ (key, old) :: after) = before ++ (key, value) :: after := by
  induction before with
  | nil => simp [write]
  | cons e rest ih =>
    obtain ⟨k, v⟩ := e
    rw [List.map_cons, List.mem_cons, not_or] at h
    have hk : k ≠ key := fun same => h.1 same.symm
    simp [write, hk, ih h.2]

end Association

namespace Table

variable {α : Type u}

theorem find?_eq_some_iff {t : Table α} {key : String} {value : α} :
    t.find? key = some value ↔ (key, value) ∈ t.entries :=
  ⟨Association.mem_of_find?, Association.find?_of_mem t.distinct⟩

@[simp] theorem contains_iff {t : Table α} {key : String} : t.contains key ↔ key ∈ t.keys := by
  unfold contains
  rw [Option.isSome_iff_ne_none, Ne, find?, Association.find?_eq_none_iff, Decidable.not_not]
  rfl

@[simp] theorem find?_empty (key : String) : (empty : Table α).find? key = none := rfl

@[simp] theorem keys_empty : (empty : Table α).keys = [] := rfl

theorem find?_insert (t : Table α) (key k : String) (value : α) :
    (t.insert key value).find? k = if key = k then some value else t.find? k :=
  Association.find?_write key k value t.entries

theorem keys_insert (t : Table α) (key : String) (value : α) :
    (t.insert key value).keys = if key ∈ t.keys then t.keys else t.keys ++ [key] :=
  Association.map_fst_write key value t.entries

theorem entries_insert_of_not_mem {t : Table α} {key : String} (value : α) (h : key ∉ t.keys) :
    (t.insert key value).entries = t.entries ++ [(key, value)] :=
  Association.write_of_not_mem value h

theorem find?_ofList (pairs : List (String × α)) (key : String) :
    (ofList pairs).find? key = (pairs.reverse.find? fun p => p.1 == key).map Prod.snd := by
  induction pairs using List.reverseRecOn with
  | nil => rfl
  | append_singleton pairs p ih =>
    have last : ofList (pairs ++ [p]) = (ofList pairs).insert p.1 p.2 := by
      rw [ofList, List.foldl_append]
      rfl
    rw [last, find?_insert, ih, List.reverse_concat]
    by_cases same : p.1 = key
    · rw [if_pos same, List.find?_cons_of_pos (by simpa using same)]
      rfl
    · rw [if_neg same, List.find?_cons_of_neg (by simpa using same)]

end Table

end ResponseShape

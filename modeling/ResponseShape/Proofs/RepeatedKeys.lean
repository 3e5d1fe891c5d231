import ResponseShape.Proofs.Writes

/-! Which entry decides on a key that an array holds more than once. With merges spliced in place it
is the last entry of the key that is understood; entries behind it that are not leave its field as
it is. Main statement: `infer?_repeatedKey`. -/
namespace ResponseShape

namespace Field

variable {fields : List Field}

def hasKey (key : String) (f : Field) : Bool := f.key == some key

theorem hasKey_iff {key : String} {f : Field} : f.hasKey key ↔ f.key = some key := beq_iff_eq

theorem find?_write (key : String) (f : Field) (fields : List Field) :
    (f.write fields).find? (hasKey key) =
      if f.hasKey key then some f else fields.find? (hasKey key) := by
  induction fields with
  | nil => cases here : f.hasKey key <;> simp [write, here]
  | cons g rest ih =>
    rw [write_cons]
    by_cases same : f.SamePlace g
    · have one : g.hasKey key = f.hasKey key := by rw [hasKey, hasKey, same.2]
      rw [if_pos same, List.find?_cons, List.find?_cons, one]
      cases f.hasKey key <;> rfl
    · rw [if_neg same, List.find?_cons, List.find?_cons, ih]
      cases hg : g.hasKey key with
      | false => rfl
      | true =>
        have other : ¬f.hasKey key := by
          intro hf
          rw [hasKey_iff] at hf hg
          exact same ⟨by rw [hf]; rfl, hf.trans hg.symm⟩
        simp only [if_neg other]

theorem find?_writeAll (key : String) (writes : List Field) :
    (writeAll fields writes).find? (hasKey key) =
      (writes.reverse.find? (hasKey key)).or (fields.find? (hasKey key)) := by
  induction writes generalizing fields with
  | nil => rfl
  | cons f rest ih =>
    rw [writeAll_cons, ih, find?_write, List.reverse_cons, List.find?_append, Option.or_assoc]
    apply congrArg
    by_cases here : f.hasKey key <;> simp [here]

end Field

/-- An entry of an array whose merges have been spliced in place. -/
structure SplicedEntry where
  key : Option String
  value : Expr
  /-- A conditional merge has brought it in. -/
  optional : Bool

def SplicedEntry.under (optional : Bool) (e : SplicedEntry) : SplicedEntry :=
  { e with optional := e.optional || optional }

/-- The entries of an array with the entries of its merges, at any depth, in their place. Under a
key a merge is an entry like others, and spreads are no entries. -/
def Config.splicedEntries (config : Config) (items : List ArrayItem) : List SplicedEntry :=
  match items with
  | [] => []
  | .mk key value unpacked :: rest =>
    if unpacked then config.splicedEntries rest
    else
      match _h : config.read? value with
      | some ⟨.splice (.array inner), optional⟩ =>
        if key.isSome then ⟨key.bind Expr.literal?, value, false⟩ :: config.splicedEntries rest
        else
          (config.splicedEntries inner).map (SplicedEntry.under optional) ++
            config.splicedEntries rest
      | _ => ⟨key.bind Expr.literal?, value, false⟩ :: config.splicedEntries rest
termination_by nodesOfItems items
decreasing_by
  all_goals
    first
    | cases key <;> simp only [nodesOfItems] <;> omega
    | have := Config.nodes_lt_of_read? _h
      cases key <;> simp only [nodesOfItems, Config.Contribution.nodes, Expr.nodes] at this ⊢ <;>
        omega

namespace Inference

variable (config : Config) (w : Workspace) (reader : Reader)

/-- The field of an entry; none if its value is not understood. -/
def entryField? (e : SplicedEntry) (r : Registry) : Option Field × Registry :=
  match contributed? config w reader e.value r with
  | (some (.field shape required), r) => (some ⟨e.key, shape, required && !e.optional⟩, r)
  | (_, r) => (none, r)

def readEntries : List SplicedEntry → Registry → List (SplicedEntry × Option Field) × Registry
  | [], r => ([], r)
  | e :: rest, r =>
    let here := entryField? config w reader e r
    let later := readEntries rest here.2
    ((e, here.1) :: later.1, later.2)

theorem readEntries_append (front back : List SplicedEntry) (r : Registry) :
    readEntries config w reader (front ++ back) r =
      ((readEntries config w reader front r).1 ++
          (readEntries config w reader back (readEntries config w reader front r).2).1,
        (readEntries config w reader back (readEntries config w reader front r).2).2) := by
  induction front generalizing r with
  | nil => rfl
  | cons e rest ih =>
    rw [List.cons_append, readEntries, readEntries, ih]
    rfl

theorem entryField?_under (optional : Bool) (e : SplicedEntry) (r : Registry) :
    entryField? config w reader (e.under optional) r =
      (entryField? config w reader e r).map
        (Option.map fun f => if optional then f.asOptional else f) id := by
  unfold entryField?
  rw [SplicedEntry.under]
  dsimp only
  obtain ⟨found, r'⟩ := contributed? config w reader e.value r
  cases found with
  | none => rfl
  | some contributed =>
    cases contributed with
    | expand content optional => rfl
    | field shape required => cases optional <;> simp [Field.asOptional]

theorem key_entryField? {e : SplicedEntry} {f : Field} {r : Registry}
    (h : (entryField? config w reader e r).1 = some f) : f.key = e.key := by
  unfold entryField? at h
  split at h
  · cases h
    rfl
  · cases h

def fieldsRead (read : List (SplicedEntry × Option Field)) : List Field := read.filterMap Prod.snd

theorem fieldsRead_under (optional : Bool) (entries : List SplicedEntry) (r : Registry) :
    fieldsRead (readEntries config w reader (entries.map (SplicedEntry.under optional)) r).1 =
        Field.spliced optional (fieldsRead (readEntries config w reader entries r).1) ∧
      (readEntries config w reader (entries.map (SplicedEntry.under optional)) r).2 =
        (readEntries config w reader entries r).2 := by
  induction entries generalizing r with
  | nil => exact ⟨rfl, rfl⟩
  | cons e rest ih =>
    rw [List.map_cons, readEntries, readEntries, entryField?_under]
    obtain ⟨f, r'⟩ := entryField? config w reader e r
    obtain ⟨later, kept⟩ := ih r'
    refine ⟨?_, kept⟩
    cases f with
    | none => exact later
    | some f => exact congrArg _ later

theorem read?_of_expand {value content : Expr} {optional : Bool} {r : Registry}
    (h : (contributed? config w reader value r).1 = some (.expand content optional)) :
    config.read? value = some ⟨.splice content, optional⟩ := by
  rw [contributed?_eq] at h
  cases reading : config.read? value with
  | none =>
    rw [reading] at h
    cases h
  | some found =>
    rw [reading] at h
    obtain ⟨content', flag⟩ := found
    cases content' with
    | splice inner =>
      cases h
      rfl
    | record items =>
      simp only [ofReading, OutlineEntry.bind_run, OutlineEntry.pure_run] at h
      split at h <;> cases h
    | _ => cases h

theorem entryWrites_of_entry {key : Option Expr} {value : Expr}
    (entry : ∀ inner optional, config.read? value = some ⟨.splice (.array inner), optional⟩ →
      key.isSome) (r : Registry) :
    entryWrites config w reader key value r =
      (entryField? config w reader ⟨key.bind Expr.literal?, value, false⟩ r).map
        Option.toList id := by
  have expanded : ∀ content optional,
      (contributed? config w reader value r).1 = some (.expand content optional) →
        config.read? value = some ⟨.splice content, optional⟩ :=
    fun _ _ => read?_of_expand config w reader
  unfold entryWrites entryField?
  dsimp only
  generalize contributed? config w reader value r = answer at expanded ⊢
  obtain ⟨found, r'⟩ := answer
  cases found with
  | none => rfl
  | some contributed =>
    cases contributed with
    | field shape required =>
      simp only [Bool.not_false, Bool.and_true]
      rfl
    | expand content optional =>
      cases content with
      | array inner => exact if_pos (entry inner optional (expanded _ _ rfl))
      | _ => rfl

theorem writesOf_of_entry {key : Option Expr} {value : Expr}
    (entry : ∀ inner optional, config.read? value = some ⟨.splice (.array inner), optional⟩ →
      key.isSome) (rest : List ArrayItem)
    (ih : ∀ r, writesOf config w reader rest r =
      (fieldsRead (readEntries config w reader (config.splicedEntries rest) r).1,
        (readEntries config w reader (config.splicedEntries rest) r).2)) (r : Registry) :
    writesOf config w reader (.mk key value false :: rest) r =
      let read := readEntries config w reader
        (⟨key.bind Expr.literal?, value, false⟩ :: config.splicedEntries rest) r
      (fieldsRead read.1, read.2) := by
  rw [writesOf_entry, entryWrites_of_entry config w reader entry, readEntries]
  obtain ⟨found, r'⟩ := entryField? config w reader ⟨key.bind Expr.literal?, value, false⟩ r
  dsimp only [Prod.map, id]
  rw [ih]
  cases found <;> rfl

theorem writesOf_eq_fieldsRead (items : List ArrayItem) (r : Registry) :
    writesOf config w reader items r =
      (fieldsRead (readEntries config w reader (config.splicedEntries items) r).1,
        (readEntries config w reader (config.splicedEntries items) r).2) := by
  fun_induction Config.splicedEntries config items generalizing r with
  | case1 => rw [writesOf_nil]; rfl
  | case2 key value rest ih => rw [writesOf_spread, ih]
  | case3 key value unpacked rest entry inner optional reading keyed ih =>
    rw [Bool.not_eq_true] at entry
    rw [entry]
    exact writesOf_of_entry config w reader (fun _ _ _ => keyed) rest ih r
  | case4 key value unpacked rest entry inner optional reading keyed ih ih' =>
    rw [Bool.not_eq_true] at entry
    have merged : entryWrites config w reader key value r =
        (writesOf config w reader inner r).map (Field.spliced optional) id := by
      unfold entryWrites
      rw [contributed?_eq, reading]
      exact if_neg keyed
    obtain ⟨front, kept⟩ := fieldsRead_under config w reader optional
      (config.splicedEntries inner) r
    rw [entry, writesOf_entry, merged, ih, readEntries_append, kept]
    dsimp only [Prod.map, id]
    rw [ih', ← front]
    unfold fieldsRead
    rw [List.filterMap_append]
  | case5 key value unpacked rest entry other ih =>
    rw [Bool.not_eq_true] at entry
    rw [entry]
    exact writesOf_of_entry config w reader (fun inner optional h => (other inner optional h).elim)
      rest ih r

/-- Among entries with their fields the last one of a key that has a field has this one. -/
def Decides (key : String) (f : Field) (read : List (SplicedEntry × Option Field)) : Prop :=
  ∃ before e after, read = before ++ (e, some f) :: after ∧ e.key = some key ∧
    ∀ x ∈ after, x.1.key = some key → x.2 = none

def fieldUnder (key : String) (x : SplicedEntry × Option Field) : Option Field :=
  if x.1.key = some key then x.2 else none

theorem decides_iff (key : String) (f : Field) (read : List (SplicedEntry × Option Field)) :
    Decides key f read ↔ read.reverse.findSome? (fieldUnder key) = some f := by
  rw [List.findSome?_eq_some_iff]
  constructor
  · rintro ⟨before, e, after, rfl, named, later⟩
    refine ⟨after.reverse, (e, some f), before.reverse, by simp, if_pos named, ?_⟩
    intro x mem
    unfold fieldUnder
    split
    · next same => exact later x (List.mem_reverse.1 mem) same
    · rfl
  · rintro ⟨after, ⟨e, g⟩, before, whole, found, later⟩
    unfold fieldUnder at found later
    obtain ⟨named, rfl⟩ := Option.ite_none_right_eq_some.1 found
    refine ⟨before.reverse, e, after.reverse, ?_, named, ?_⟩
    · rw [← List.reverse_inj, whole]
      simp
    · intro x mem same
      have unread := later x (List.mem_reverse.1 mem)
      rwa [if_pos same] at unread

/-- Each field has the key of its entry. -/
def KeysKept (read : List (SplicedEntry × Option Field)) : Prop :=
  ∀ x ∈ read, ∀ f, x.2 = some f → f.key = x.1.key

theorem keysKept_readEntries (entries : List SplicedEntry) (r : Registry) :
    KeysKept (readEntries config w reader entries r).1 := by
  induction entries generalizing r with
  | nil => exact fun _ mem => nomatch mem
  | cons e rest ih =>
    intro x mem f found
    rcases List.mem_cons.1 mem with rfl | mem
    · exact key_entryField? config w reader found
    · exact ih _ x mem f found

theorem find?_fieldsRead {read : List (SplicedEntry × Option Field)} (kept : KeysKept read)
    (key : String) :
    (fieldsRead read).find? (Field.hasKey key) = read.findSome? (fieldUnder key) := by
  induction read with
  | nil => rfl
  | cons x rest ih =>
    obtain ⟨here, later⟩ := List.forall_mem_cons.1 kept
    obtain ⟨e, found⟩ := x
    have ih := ih later
    unfold fieldsRead fieldUnder at ih ⊢
    cases found with
    | none => simp [ih]
    | some f =>
      have named : f.hasKey key ↔ e.key = some key := by rw [Field.hasKey_iff, here f rfl]
      by_cases same : e.key = some key
      · simp [same, named.2 same]
      · have other : f.hasKey key = false := by rw [← Bool.not_eq_true, named]; exact same
        simp [same, other, ih]

theorem keysKept_reverse {read : List (SplicedEntry × Option Field)} (kept : KeysKept read) :
    KeysKept read.reverse :=
  fun x mem => kept x (List.mem_reverse.1 mem)

/-- Under every key inference answers the field of the last entry of the key that is understood, and
no other: with merges spliced in place at any depth, and the entries read in their order. -/
theorem infer?_repeatedKey (items : List ArrayItem) (r : Registry) :
    ∃ result, infer? config w reader (.array items) r =
        (some result, (readEntries config w reader (config.splicedEntries items) r).2) ∧
      ∀ key f,
        (result.field? key = some f ↔
          Decides key f (readEntries config w reader (config.splicedEntries items) r).1) ∧
        (f ∈ result.fields ∧ f.key = some key ↔ result.field? key = some f) := by
  have written := writesOf_eq_fieldsRead config w reader items r
  have kept := keysKept_readEntries config w reader (config.splicedEntries items) r
  have nothing : (Field.keysOf []).Nodup := List.nodup_nil
  have distinct := Field.nodup_keysOf_writeAll nothing (writesOf config w reader items r).1
  refine ⟨_, by rw [infer?_array, readItems_writes, written], fun key f => ⟨?_, ?_⟩⟩
  · have last := @Field.find?_writeAll [] key (writesOf config w reader items r).1
    rw [decides_iff, ← find?_fieldsRead (keysKept_reverse kept)]
    unfold fieldsRead
    rw [List.filterMap_reverse]
    rw [written, List.find?_nil, Option.or_none] at last
    exact Eq.congr_left last
  · rw [written] at distinct
    constructor
    · rintro ⟨mem, named⟩
      cases found : Inferred.field? _ key with
      | none => exact absurd (Field.hasKey_iff.2 named) (List.find?_eq_none.1 found f mem)
      | some g =>
        have same := Field.hasKey_iff.1 (List.find?_some found)
        rw [Field.eq_of_key distinct (List.mem_of_find?_eq_some found) mem same named]
    · intro found
      exact ⟨List.mem_of_find?_eq_some found, Field.hasKey_iff.1 (List.find?_some found)⟩

/-- `['a' => 'x', 'a' => null]` -/
def overwrittenItems : List ArrayItem :=
  [.mk (some (.string "a")) (.string "x") false, .mk (some (.string "a")) .null false]

/-- Where the last entry of a key is not understood, nothing stands under the key. -/
def OverwrittenLeavesNothing : Prop :=
  ∀ items r key before e after result,
    (readEntries config w reader (config.splicedEntries items) r).1 =
        before ++ (e, none) :: after →
      e.key = some key → (∀ x ∈ after, x.1.key ≠ some key) →
        (infer? config w reader (.array items) r).1 = some result → result.field? key = none

/-- The field of an entry survives a later entry of its key that is not understood. -/
theorem overwritten_survives :
    ¬OverwrittenLeavesNothing .standard .empty ⟨.global, none⟩ := by
  intro claimed
  let reader : Reader := ⟨.global, none⟩
  let written : Field := ⟨some "a", .literal, true⟩
  let first : SplicedEntry := ⟨some "a", .string "x", false⟩
  let last : SplicedEntry := ⟨some "a", .null, false⟩
  have entries : Config.standard.splicedEntries overwrittenItems = [first, last] := by
    with_unfolding_all rfl
  have read : (readEntries .standard .empty reader [first, last] .empty).1 =
      [(first, some written)] ++ (last, none) :: [] := by
    with_unfolding_all rfl
  have answer : (infer? .standard .empty reader (.array overwrittenItems) .empty).1 =
      some (.ofFields [written]) := by
    with_unfolding_all rfl
  have gone := claimed overwrittenItems .empty "a" _ last [] _ (entries ▸ read) rfl nofun answer
  cases gone

end Inference

end ResponseShape

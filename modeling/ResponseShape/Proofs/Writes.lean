import ResponseShape.Proofs.Termination

/-! The fields of an array as the outcome of its writes. Splices are flattened first, so that their
writes stand in their place; then every key has the place of its first write and the value of its
last. Main statement: `infer?_writes`. -/
namespace ResponseShape

namespace Field

variable {f g : Field} {fields : List Field}

def writeAll (fields writes : List Field) : List Field :=
  writes.foldl (fun fields f => f.write fields) fields

/-- The writes of a splice; an optional one makes them optional. -/
def spliced (optional : Bool) (writes : List Field) : List Field :=
  writes.map fun f => if optional then f.asOptional else f

def SamePlace (f g : Field) : Prop := f.key.isSome ∧ f.key = g.key

instance (f g : Field) : Decidable (f.SamePlace g) := inferInstanceAs (Decidable (_ ∧ _))

/-- The writes that take a place: those without a key, and the first of each key. -/
def openings : List Field → List Field
  | [] => []
  | f :: rest => f :: (openings rest).filter fun g => ¬f.SamePlace g

/-- The last of some writes to the place of a field, or else the field. -/
def latest (writes : List Field) (f : Field) : Field :=
  (writes.reverse.find? fun g => f.SamePlace g).getD f

/-- What writes leave: one field for each place, with its last write. -/
def settled (writes : List Field) : List Field := (openings writes).map (latest writes)

theorem SamePlace.symm (h : f.SamePlace g) : g.SamePlace f := ⟨h.2 ▸ h.1, h.2.symm⟩

theorem write_cons (f g : Field) (rest : List Field) :
    f.write (g :: rest) = if f.SamePlace g then f :: rest else g :: f.write rest := by
  rw [write]
  simp only [SamePlace, eq_comm]

theorem write_of_apart (apart : ∀ g ∈ fields, ¬f.SamePlace g) : f.write fields = fields ++ [f] := by
  induction fields with
  | nil => rfl
  | cons g rest ih =>
    rw [List.forall_mem_cons] at apart
    rw [write_cons, if_neg apart.1, ih apart.2, List.cons_append]

theorem apart_of_nodup (distinct : (keysOf (f :: fields)).Nodup) :
    ∀ g ∈ fields, ¬f.SamePlace g := by
  rintro g here ⟨named, same⟩
  obtain ⟨key, hk⟩ := Option.isSome_iff_exists.1 named
  rw [keysOf, List.filterMap_cons_some hk, List.nodup_cons] at distinct
  exact distinct.1 (List.mem_filterMap.2 ⟨g, here, same ▸ hk⟩)

theorem nodup_of_cons (distinct : (keysOf (f :: fields)).Nodup) : (keysOf fields).Nodup :=
  distinct.sublist ((List.sublist_cons_self f fields).filterMap key)

theorem write_of_known (distinct : (keysOf fields).Nodup) (known : ∃ g ∈ fields, f.SamePlace g) :
    f.write fields = fields.map fun g => if f.SamePlace g then f else g := by
  induction fields with
  | nil =>
    obtain ⟨g, here, -⟩ := known
    cases here
  | cons g rest ih =>
    rw [write_cons, List.map_cons]
    by_cases same : f.SamePlace g
    · have others : ∀ h ∈ rest, (if f.SamePlace h then f else h) = h := by
        intro h here
        apply if_neg
        intro same'
        exact apart_of_nodup distinct h here ⟨same.2 ▸ same.1, same.2.symm.trans same'.2⟩
      rw [if_pos same, if_pos same, List.map_congr_left others, List.map_id']
    · have later : ∃ h ∈ rest, f.SamePlace h :=
        ((List.exists_mem_cons_iff ..).1 known).resolve_left same
      rw [if_neg same, if_neg same, ih (nodup_of_cons distinct) later]

theorem write_write (same : f.SamePlace g) (fields : List Field) :
    f.write (g.write fields) = f.write fields := by
  induction fields with
  | nil => simp [write, write_cons, same]
  | cons h rest ih =>
    have one : g.SamePlace h ↔ f.SamePlace h := by
      unfold SamePlace
      rw [← same.2]
    rw [write_cons g, write_cons f h]
    by_cases here : f.SamePlace h
    · rw [if_pos (one.2 here), if_pos here, write_cons, if_pos same]
    · rw [if_neg (mt one.1 here), if_neg here, write_cons, if_neg here, ih]

theorem write_comm (known : ∃ h ∈ fields, f.SamePlace h) (apart : ¬f.SamePlace g) :
    f.write (g.write fields) = g.write (f.write fields) := by
  induction fields with
  | nil =>
    obtain ⟨h, here, -⟩ := known
    cases here
  | cons h rest ih =>
    rw [write_cons g, write_cons f h]
    by_cases fh : f.SamePlace h
    · have gh : ¬g.SamePlace h := fun same => apart ⟨fh.1, fh.2.trans same.2.symm⟩
      have gf : ¬g.SamePlace f := fun same => apart same.symm
      rw [if_pos fh, if_neg gh, write_cons, if_pos fh, write_cons, if_neg gf]
    · have later : ∃ h ∈ rest, f.SamePlace h :=
        ((List.exists_mem_cons_iff ..).1 known).resolve_left fh
      rw [if_neg fh]
      by_cases gh : g.SamePlace h
      · rw [if_pos gh, write_cons, if_neg apart, write_cons, if_pos gh]
      · rw [if_neg gh, write_cons, if_neg fh, write_cons, if_neg gh, ih later]

theorem known_iff :
    (∃ g ∈ fields, f.SamePlace g) ↔ ∃ key ∈ keysOf fields, f.key = some key := by
  constructor
  · rintro ⟨g, here, named, same⟩
    obtain ⟨key, hk⟩ := Option.isSome_iff_exists.1 named
    exact ⟨key, List.mem_filterMap.2 ⟨g, here, same ▸ hk⟩, hk⟩
  · rintro ⟨key, known, hk⟩
    obtain ⟨g, here, gk⟩ := List.mem_filterMap.1 known
    exact ⟨g, here, by rw [hk]; rfl, hk.trans gk.symm⟩

theorem writeAll_cons (fields : List Field) (f : Field) (rest : List Field) :
    writeAll fields (f :: rest) = writeAll (f.write fields) rest := rfl

theorem writeAll_append (fields front back : List Field) :
    writeAll fields (front ++ back) = writeAll (writeAll fields front) back :=
  List.foldl_append

theorem nodup_keysOf_writeAll (distinct : (keysOf fields).Nodup) (writes : List Field) :
    (keysOf (writeAll fields writes)).Nodup := by
  induction writes generalizing fields with
  | nil => exact distinct
  | cons f rest ih => exact ih (nodup_keysOf_write f distinct)

theorem mem_keysOf_write {key : String} :
    key ∈ keysOf (f.write fields) ↔ key ∈ keysOf fields ∨ f.key = some key := by
  cases hk : f.key with
  | none => simp [keysOf_write_of_none hk]
  | some k =>
    rw [keysOf_write_of_some hk]
    split <;> grind

theorem mem_keysOf_writeAll {key : String} {writes : List Field} :
    key ∈ keysOf (writeAll fields writes) ↔ key ∈ keysOf fields ∨ key ∈ keysOf writes := by
  induction writes generalizing fields with
  | nil => simp [writeAll, keysOf]
  | cons f rest ih =>
    rw [writeAll_cons, ih, mem_keysOf_write, or_assoc]
    simp [keysOf, List.filterMap_cons]
    grind

theorem write_writeAll {writes : List Field} (known : ∃ g ∈ fields, f.SamePlace g)
    (apart : ∀ g ∈ writes, ¬f.SamePlace g) :
    f.write (writeAll fields writes) = writeAll (f.write fields) writes := by
  induction writes generalizing fields with
  | nil => rfl
  | cons g rest ih =>
    rw [List.forall_mem_cons] at apart
    have kept : ∃ h ∈ g.write fields, f.SamePlace h := by
      obtain ⟨key, here, hk⟩ := known_iff.1 known
      exact known_iff.2 ⟨key, mem_keysOf_write.2 (Or.inl here), hk⟩
    rw [writeAll_cons, writeAll_cons, ih kept apart.2, write_comm known apart.1]

theorem writeAll_write {writes : List Field} (distinct : (keysOf writes).Nodup) :
    writeAll fields (f.write writes) = f.write (writeAll fields writes) := by
  induction writes generalizing fields with
  | nil => rfl
  | cons g rest ih =>
    rw [write_cons]
    by_cases same : f.SamePlace g
    · -- the earlier write of the key keeps the place while the later one moves behind the rest
      rw [if_pos same, writeAll_cons, writeAll_cons, ← write_write same fields]
      refine (write_writeAll ?_ fun h here same' => ?_).symm
      · obtain ⟨key, hk⟩ := Option.isSome_iff_exists.1 same.1
        exact known_iff.2 ⟨key, mem_keysOf_write.2 (Or.inr (same.2 ▸ hk)), hk⟩
      · exact apart_of_nodup distinct h here ⟨same.2 ▸ same.1, same.2.symm.trans same'.2⟩
    · rw [if_neg same, writeAll_cons, writeAll_cons, ih (nodup_of_cons distinct)]

theorem writeAll_writeAll {inner : List Field} (distinct : (keysOf inner).Nodup)
    (writes : List Field) :
    writeAll fields (writeAll inner writes) = writeAll (writeAll fields inner) writes := by
  induction writes generalizing inner with
  | nil => rfl
  | cons f rest ih =>
    rw [writeAll_cons, ih (nodup_keysOf_write f distinct), writeAll_write distinct, writeAll_cons]

theorem key_asOptional (f : Field) : f.asOptional.key = f.key := by
  cases f
  rfl

theorem spliced_write (optional : Bool) (f : Field) (fields : List Field) :
    spliced optional (f.write fields) =
      (if optional then f.asOptional else f).write (spliced optional fields) := by
  have same : ∀ g : Field, (if optional then g.asOptional else g).key = g.key := by
    intro g
    cases optional
    · rfl
    · exact key_asOptional g
  induction fields with
  | nil => rfl
  | cons g rest ih =>
    have one : SamePlace (if optional then f.asOptional else f)
        (if optional then g.asOptional else g) ↔ f.SamePlace g := by
      unfold SamePlace
      rw [same, same]
    unfold spliced at ih ⊢
    rw [write_cons, List.map_cons, write_cons]
    by_cases here : f.SamePlace g
    · rw [if_pos here, if_pos (one.2 here), List.map_cons]
    · rw [if_neg here, if_neg (mt one.1 here), List.map_cons, ih]

theorem spliced_writeAll (optional : Bool) (fields writes : List Field) :
    spliced optional (writeAll fields writes) =
      writeAll (spliced optional fields) (spliced optional writes) := by
  induction writes generalizing fields with
  | nil => rfl
  | cons f rest ih => rw [writeAll_cons, ih, spliced_write]; rfl

theorem splice_eq (inner : List Field) (optional : Bool) (fields : List Field) :
    splice inner optional fields = writeAll fields (spliced optional inner) := by
  rw [writeAll, spliced, List.foldl_map, splice]

theorem spliced_false (writes : List Field) : spliced false writes = writes := List.map_id' writes

/-- It makes no difference whether a splice writes its own fields or all its writes again. -/
theorem splice_writeAll (writes : List Field) (optional : Bool) (fields : List Field) :
    splice (writeAll [] writes) optional fields = writeAll fields (spliced optional writes) := by
  have distinct : (keysOf (spliced optional [])).Nodup := List.nodup_nil
  rw [splice_eq, spliced_writeAll]
  exact writeAll_writeAll distinct _

theorem latest_concat (writes : List Field) (f g : Field) :
    latest (writes ++ [f]) g = if g.SamePlace f then f else latest writes g := by
  unfold latest
  rw [List.reverse_append, List.reverse_singleton, List.singleton_append, List.find?_cons]
  by_cases same : g.SamePlace f <;> simp [same]

theorem key_latest (writes : List Field) (f : Field) : (latest writes f).key = f.key := by
  unfold latest
  cases h : writes.reverse.find? fun g => f.SamePlace g with
  | none => rfl
  | some g =>
    have same := List.find?_some h
    exact (of_decide_eq_true same).2.symm

theorem latest_of_apart {writes : List Field} (apart : ∀ g ∈ writes, ¬f.SamePlace g) :
    latest writes f = f := by
  unfold latest
  rw [List.find?_eq_none.2, Option.getD_none]
  intro g here
  simpa using apart g (List.mem_reverse.1 here)

theorem openings_concat (writes : List Field) (f : Field) :
    openings (writes ++ [f]) =
      if ∃ g ∈ writes, f.SamePlace g then openings writes else openings writes ++ [f] := by
  induction writes with
  | nil => rfl
  | cons g rest ih =>
    rw [List.cons_append, openings, ih, openings]
    by_cases later : ∃ h ∈ rest, f.SamePlace h
    · have known : ∃ h ∈ g :: rest, f.SamePlace h :=
        (List.exists_mem_cons_iff ..).2 (Or.inr later)
      rw [if_pos later, if_pos known]
    · rw [if_neg later, List.filter_append]
      by_cases same : f.SamePlace g
      · rw [if_pos ⟨g, List.mem_cons_self, same⟩, List.filter_cons_of_neg, List.filter_nil,
          List.append_nil]
        simpa using same.symm
      · have unknown : ¬∃ h ∈ g :: rest, f.SamePlace h :=
          fun known => ((List.exists_mem_cons_iff ..).1 known).elim same later
        rw [if_neg unknown, List.filter_cons_of_pos, List.filter_nil, List.cons_append]
        simpa using mt SamePlace.symm same

/-- Writes leave one field for each place, in the order of their first, with the value of their
last. -/
theorem writeAll_eq_settled (writes : List Field) : writeAll [] writes = settled writes := by
  -- from the end, since the last write decides on values and the earlier ones on places
  induction writes using List.reverseRecOn with
  | nil => rfl
  | append_singleton writes f ih =>
    have nothing : (keysOf []).Nodup := List.nodup_nil
    have distinct : (keysOf (settled writes)).Nodup := ih ▸ nodup_keysOf_writeAll nothing writes
    have known : (∃ g ∈ settled writes, f.SamePlace g) ↔ ∃ g ∈ writes, f.SamePlace g := by
      rw [known_iff, known_iff, ← ih]
      simp only [mem_keysOf_writeAll]
      simp only [keysOf, List.filterMap_nil, List.not_mem_nil, false_or]
    have last : writeAll [] (writes ++ [f]) = f.write (settled writes) := by
      rw [writeAll_append, ih]
      rfl
    have values : (openings writes).map (latest (writes ++ [f])) =
        (settled writes).map fun g => if f.SamePlace g then f else g := by
      unfold settled
      rw [List.map_map]
      apply List.map_congr_left
      intro g _
      have one : f.SamePlace (latest writes g) ↔ g.SamePlace f := by
        have same := key_latest writes g
        exact ⟨fun h => ⟨by rw [← same, ← h.2]; exact h.1, by rw [← same, h.2]⟩,
          fun h => ⟨h.2 ▸ h.1, by rw [same, h.2]⟩⟩
      rw [latest_concat, Function.comp, if_congr one rfl rfl]
    rw [last]
    unfold settled
    rw [openings_concat]
    by_cases here : ∃ g ∈ writes, f.SamePlace g
    · rw [if_pos here, values]
      exact write_of_known distinct (known.2 here)
    · have apart : ∀ g ∈ settled writes, ¬f.SamePlace g :=
        fun g mem same => here (known.1 ⟨g, mem, same⟩)
      have unchanged : (settled writes).map (fun g => if f.SamePlace g then f else g) =
          settled writes := by
        rw [List.map_congr_left fun g mem => if_neg (apart g mem), List.map_id']
      have new : latest (writes ++ [f]) f = f := by
        rw [latest_concat, latest_of_apart fun g mem same => here ⟨g, mem, same⟩, ite_self]
      rw [if_neg here, List.map_append, values, unchanged, List.map_singleton, new]
      exact write_of_apart apart

example : settled [⟨some "a", .literal, true⟩, ⟨none, .scalar, true⟩, ⟨some "a", .scalar, false⟩] =
    [⟨some "a", .scalar, false⟩, ⟨none, .scalar, true⟩] := rfl

end Field

namespace Inference

variable (config : Config) (w : Workspace) (reader : Reader)

/-- The writes of an array in source order, and the registry that they lead to. A value that is not
understood writes nothing, and a splice without a key the writes of its content. -/
def writesOf (items : List ArrayItem) (r : Registry) : List Field × Registry :=
  match items with
  | [] => ([], r)
  | .mk key value unpacked :: rest =>
    if unpacked then writesOf rest r
    else
      match _h : contributed? config w reader value r with
      | (none, r) => writesOf rest r
      | (some (.field shape required), r) =>
        let (later, r) := writesOf rest r
        (⟨key.bind Expr.literal?, shape, required⟩ :: later, r)
      | (some (.expand (.array inner) optional), r) =>
        if key.isSome then writesOf rest r
        else
          let (front, r) := writesOf inner r
          let (later, r) := writesOf rest r
          (Field.spliced optional front ++ later, r)
      | (some (.expand _ _), r) => writesOf rest r
termination_by nodesOfItems items
decreasing_by
  all_goals
    first
    | cases key <;> simp only [nodesOfItems] <;> omega
    | have := nodes_lt_of_expand (congrArg Prod.fst _h)
      cases key <;> simp only [nodesOfItems, Expr.nodes] at this ⊢ <;> omega

def entryWrites (key : Option Expr) (value : Expr) (r : Registry) : List Field × Registry :=
  match contributed? config w reader value r with
  | (some (.field shape required), r) => ([⟨key.bind Expr.literal?, shape, required⟩], r)
  | (some (.expand (.array inner) optional), r) =>
    if key.isSome then ([], r)
    else (writesOf config w reader inner r).map (Field.spliced optional) id
  | (_, r) => ([], r)

theorem writesOf_nil (r : Registry) : writesOf config w reader [] r = ([], r) := by
  rw [writesOf]

theorem writesOf_spread (key : Option Expr) (value : Expr) (rest : List ArrayItem) (r : Registry) :
    writesOf config w reader (.mk key value true :: rest) r = writesOf config w reader rest r := by
  rw [writesOf, if_pos rfl]

theorem writesOf_entry (key : Option Expr) (value : Expr) (rest : List ArrayItem) (r : Registry) :
    writesOf config w reader (.mk key value false :: rest) r =
      ((entryWrites config w reader key value r).1 ++
          (writesOf config w reader rest (entryWrites config w reader key value r).2).1,
        (writesOf config w reader rest (entryWrites config w reader key value r).2).2) := by
  rw [writesOf, if_neg Bool.false_ne_true]
  unfold entryWrites
  split
  · next h => rw [h]; rfl
  · next h => rw [h]; rfl
  · next h =>
    rw [h]
    dsimp only
    split <;> rfl
  · next noArray h =>
    rw [h]
    split
    · next same => cases same
    · next same => cases same; exact absurd rfl (noArray _)
    · next same => cases same; rfl

def readItems (fields : List Field) (items : List ArrayItem) : StateM Registry (List Field) :=
  OutlineEntry.fieldsAfter (reader.construct w (inferClass config w)) fields (config.outline items)

open Routine

def Session.ofReader (r : Registry) : Session := ⟨r, reader.enclosing.toList⟩

theorem readItems_eq (fields : List Field) (items : List ArrayItem) (r : Registry) :
    readItems config w reader fields items r =
      let found := (itemsRoutine reader.scope fields items).run (settle config w)
        (.ofReader reader r)
      (found.1, found.2.registry) := by
  rw [itemsRoutine_run]
  obtain ⟨scope, enclosing⟩ := reader
  cases enclosing <;> rfl

theorem readItems_item (fields : List Field) (key : Option Expr) (value : Expr)
    (rest : List ArrayItem) (r : Registry) :
    readItems config w reader fields (.mk key value false :: rest) r =
      match contributed? config w reader value r with
      | (none, r) => readItems config w reader fields rest r
      | (some (.field shape required), r) =>
        readItems config w reader (Field.write ⟨key.bind Expr.literal?, shape, required⟩ fields)
          rest r
      | (some (.expand content optional), r) =>
        if key.isSome then readItems config w reader fields rest r
        else
          match infer? config w reader content r with
          | (none, r) => readItems config w reader fields rest r
          | (some inner, r) =>
            readItems config w reader (Field.splice inner.fields optional fields) rest r := by
  have classified (e : Expr) (r : Registry) :
      settle config w (.classify e reader.scope) (.ofReader reader r) =
        ((contributed? config w reader e r).1,
          .ofReader reader (contributed? config w reader e r).2) := by
    obtain ⟨scope, enclosing⟩ := reader
    cases enclosing <;> rfl
  have inferred (e : Expr) (r : Registry) :
      settle config w (.infer e reader.scope) (.ofReader reader r) =
        ((infer? config w reader e r).1, .ofReader reader (infer? config w reader e r).2) := by
    obtain ⟨scope, enclosing⟩ := reader
    cases enclosing <;> rfl
  rw [readItems_eq, itemsRoutine, if_neg Bool.false_ne_true, run_bind, run_ask, classified]
  obtain ⟨found, r'⟩ := contributed? config w reader value r
  dsimp only
  rw [run_bind]
  cases found with
  | none => exact (readItems_eq config w reader fields rest r').symm
  | some contributed =>
    cases contributed with
    | field shape required => exact (readItems_eq config w reader _ rest r').symm
    | expand content optional =>
      dsimp only [itemRoutine]
      by_cases keyed : key.isSome
      · rw [if_pos keyed, if_pos keyed]
        exact (readItems_eq config w reader fields rest r').symm
      · rw [if_neg keyed, if_neg keyed, run_bind, run_ask, inferred]
        obtain ⟨inner, r''⟩ := infer? config w reader content r'
        cases inner <;> exact (readItems_eq config w reader _ rest r'').symm

theorem readItems_spread (fields : List Field) (key : Option Expr) (value : Expr)
    (rest : List ArrayItem) (r : Registry) :
    readItems config w reader fields (.mk key value true :: rest) r =
      readItems config w reader fields rest r := by
  unfold readItems
  rw [Config.outline, if_pos rfl]

theorem infer?_array (items : List ArrayItem) (r : Registry) :
    infer? config w reader (.array items) r =
      (some (.ofFields (readItems config w reader [] items r).1),
        (readItems config w reader [] items r).2) := rfl

theorem infer?_of_no_array {e : Expr} (noArray : ∀ items, e ≠ .array items) (r : Registry) :
    infer? config w reader e r = (none, r) := by
  cases e with
  | array items => exact absurd rfl (noArray items)
  | _ => rfl

theorem readItems_writes (items : List ArrayItem) (fields : List Field) (r : Registry) :
    readItems config w reader fields items r =
      (Field.writeAll fields (writesOf config w reader items r).1,
        (writesOf config w reader items r).2) := by
  fun_induction writesOf config w reader items r generalizing fields with
  | case1 r =>
    unfold readItems
    rw [Config.outline]
    rfl
  | case2 r key value rest ih => rw [readItems_spread, ih]
  | case3 r key value unpacked rest h r' contributed ih =>
    rw [Bool.not_eq_true] at h
    rw [h, readItems_item, contributed]
    exact ih fields
  | case4 r key value unpacked rest h shape required r' contributed later r'' written ih =>
    rw [Bool.not_eq_true] at h
    rw [written] at ih
    rw [h, readItems_item, contributed]
    exact ih _
  | case5 r key value unpacked rest h inner optional r' contributed keyed ih =>
    rw [Bool.not_eq_true] at h
    rw [h, readItems_item, contributed]
    exact (if_pos keyed).trans (ih fields)
  | case6 r key value unpacked rest h inner optional r' contributed keyed front r₁ spliced later
      r₂ written ih ih' =>
    rw [Bool.not_eq_true] at h
    rw [spliced] at ih
    rw [written] at ih'
    rw [h, readItems_item, contributed]
    dsimp only
    rw [if_neg keyed, infer?_array, ih]
    dsimp only [Inferred.ofFields]
    rw [ih', Field.splice_writeAll, Field.writeAll_append]
  | case7 r key value unpacked rest h content optional r' noArray contributed ih =>
    rw [Bool.not_eq_true] at h
    rw [h, readItems_item, contributed]
    dsimp only
    rw [infer?_of_no_array _ _ _ noArray]
    exact (ite_self _).trans (ih fields)

theorem readItems_append (front back : List ArrayItem) (fields : List Field) (r : Registry) :
    readItems config w reader fields (front ++ back) r =
      readItems config w reader (readItems config w reader fields front r).1 back
        (readItems config w reader fields front r).2 := by
  induction front generalizing fields r with
  | nil =>
    have nothing : readItems config w reader fields [] r = (fields, r) := by
      unfold readItems
      rw [Config.outline]
      rfl
    rw [nothing, List.nil_append]
  | cons item rest ih =>
    obtain ⟨key, value, unpacked⟩ := item
    rw [List.cons_append]
    cases unpacked with
    | true => rw [readItems_spread, readItems_spread, ih]
    | false =>
      rw [readItems_item, readItems_item]
      obtain ⟨found, r'⟩ := contributed? config w reader value r
      cases found with
      | none => exact ih fields r'
      | some contributed =>
        cases contributed with
        | field shape required => exact ih _ r'
        | expand content optional =>
          dsimp only
          by_cases keyed : key.isSome
          · rw [if_pos keyed, if_pos keyed, ih]
          · rw [if_neg keyed, if_neg keyed]
            obtain ⟨inner, r''⟩ := infer? config w reader content r'
            cases inner <;> exact ih _ r''

/-- `$this->merge([...])` without a key. -/
def mergeItem (items : List ArrayItem) (nullsafe : Bool) : ArrayItem :=
  .mk none (.methodCall (.var "this") "merge" [.array items] nullsafe) false

theorem contributed?_merge (items : List ArrayItem) (nullsafe : Bool) (r : Registry) :
    contributed? .standard w reader (.methodCall (.var "this") "merge" [.array items] nullsafe) r =
      (some (.expand (.array items) false), r) := by
  have reading : Config.read? .standard
      (.methodCall (.var "this") "merge" [.array items] nullsafe) =
        some ⟨.splice (.array items), false⟩ := by
    rw [Config.read?]
    rfl
  rw [contributed?_eq, reading]
  rfl

theorem readItems_merge (items : List ArrayItem) (nullsafe : Bool) (after : List ArrayItem)
    (fields : List Field) (r : Registry) :
    readItems .standard w reader fields (mergeItem items nullsafe :: after) r =
      readItems .standard w reader fields (items ++ after) r := by
  have inline := readItems_writes .standard w reader items
  rw [mergeItem, readItems_item, contributed?_merge, readItems_append, inline fields r]
  dsimp only
  rw [infer?_array, inline [] r]
  dsimp only [Inferred.ofFields]
  rw [Field.splice_writeAll, Field.spliced_false]
  rfl

/-- Inference writes the flattened writes of an array one after another, so it answers one field for
each place, in the order of first writes, with the last write of each key. A merge without a key
might as well be replaced by its entries. -/
theorem infer?_writes (items : List ArrayItem) (r : Registry) :
    infer? config w reader (.array items) r =
        (some (.ofFields (Field.writeAll [] (writesOf config w reader items r).1)),
          (writesOf config w reader items r).2) ∧
      Field.writeAll [] (writesOf config w reader items r).1 =
        Field.settled (writesOf config w reader items r).1 ∧
      ∀ before inner after nullsafe,
        infer? .standard w reader (.array (before ++ mergeItem inner nullsafe :: after)) r =
          infer? .standard w reader (.array (before ++ inner ++ after)) r := by
  refine ⟨?_, Field.writeAll_eq_settled _, fun before inner after nullsafe => ?_⟩
  · rw [infer?_array, readItems_writes]
  · rw [infer?_array, infer?_array, List.append_assoc, readItems_append _ _ _ before,
      readItems_append _ _ _ before, readItems_merge]

end Inference

end ResponseShape

import ResponseShape.Proofs.Writes

/-! A conditional merge distributes over its entries: each of them might as well be made conditional
by itself. Main statement: `infer?_mergeWhen`. -/
namespace ResponseShape

/-- An arrow function or a closure. As an argument it stands for what it answers. -/
def Expr.isCallable : Expr → Bool
  | .arrowFunction _ _ | .closure _ _ => true
  | _ => false

theorem Expr.callResult?_of_not_callable {e : Expr} (plain : e.isCallable = false) :
    e.callResult? = some e := by
  cases e with
  | arrowFunction _ _ | closure _ _ => cases plain
  | _ => rfl

namespace Field

theorem asOptional_asOptional (f : Field) : f.asOptional.asOptional = f.asOptional := by
  cases f
  rfl

theorem spliced_append (optional : Bool) (front back : List Field) :
    spliced optional (front ++ back) = spliced optional front ++ spliced optional back :=
  List.map_append

theorem spliced_spliced (optional : Bool) (writes : List Field) :
    spliced true (spliced optional writes) = spliced true writes := by
  unfold spliced
  rw [List.map_map]
  apply List.map_congr_left
  intro f _
  cases optional
  · rfl
  · exact f.asOptional_asOptional

end Field

namespace Inference

/-- `$this->when(condition, value)` -/
def whenCall (condition value : Expr) : Expr :=
  .methodCall (.var "this") "when" [condition, value] false

/-- An entry with its value made conditional. A spread stays as it is. -/
def whenItem (condition : Expr) : ArrayItem → ArrayItem
  | .mk key value true => .mk key value true
  | .mk key value false => .mk key (whenCall condition value) false

/-- `$this->mergeWhen(condition, [...])` without a key. -/
def mergeWhenItem (condition : Expr) (items : List ArrayItem) : ArrayItem :=
  .mk none (.methodCall (.var "this") "mergeWhen" [condition, .array items] false) false

theorem read?_when (condition : Expr) {value : Expr} (plain : value.isCallable = false) :
    Config.standard.read? (whenCall condition value) =
      (Config.standard.read? value).map fun r => { r with optional := true } := by
  have whose : (Expr.var "this").isVar Config.standard.instanceVar = true := rfl
  have known : Config.standard.isConditionalField "when" = true := by with_unfolding_all rfl
  have second : Config.argument? [condition, value] 1 = some value :=
    Expr.callResult?_of_not_callable plain
  rw [whenCall, Config.read?, whose, Bool.not_true, if_neg Bool.false_ne_true, if_pos known]
  split
  · next missing => rw [second] at missing; cases missing
  · next found => rw [second] at found; cases found; rfl

theorem read?_mergeWhen (condition : Expr) (items : List ArrayItem) :
    Config.standard.read? (.methodCall (.var "this") "mergeWhen" [condition, .array items] false) =
      some ⟨.splice (.array items), true⟩ := by
  rw [Config.read?]
  rfl

variable (w : Workspace) (reader : Reader)

theorem contributed?_when (condition : Expr) {value : Expr} (plain : value.isCallable = false)
    (r : Registry) :
    contributed? .standard w reader (whenCall condition value) r =
      (contributed? .standard w reader value r).map (Option.map Contributed.asOptional) id := by
  rw [contributed?_eq, read?_when condition plain, ofReading_optional, ← contributed?_eq]
  rfl

/-- An entry that is made conditional makes the same writes, all of them optional. -/
theorem entryWrites_when (condition : Expr) (key : Option Expr) {value : Expr}
    (plain : value.isCallable = false) (r : Registry) :
    entryWrites .standard w reader key (whenCall condition value) r =
      (entryWrites .standard w reader key value r).map (Field.spliced true) id := by
  unfold entryWrites
  rw [contributed?_when w reader condition plain]
  obtain ⟨found, r'⟩ := contributed? .standard w reader value r
  cases found with
  | none => rfl
  | some contributed =>
    cases contributed with
    | field shape required => rfl
    | expand content optional =>
      cases content with
      | array inner =>
        simp only [Prod.map, Option.map_some, Contributed.asOptional, id]
        split
        · rfl
        · simp only [Field.spliced_spliced]
      | _ => rfl

theorem writesOf_when (condition : Expr) {items : List ArrayItem}
    (plain : ∀ item ∈ items, item.value.isCallable = false) (r : Registry) :
    writesOf .standard w reader (items.map (whenItem condition)) r =
      (writesOf .standard w reader items r).map (Field.spliced true) id := by
  induction items generalizing r with
  | nil =>
    rw [List.map_nil, writesOf_nil]
    rfl
  | cons item rest ih =>
    obtain ⟨key, value, unpacked⟩ := item
    obtain ⟨here, later⟩ := List.forall_mem_cons.1 plain
    rw [ArrayItem.value] at here
    rw [List.map_cons]
    cases unpacked with
    | true => rw [whenItem, writesOf_spread, writesOf_spread, ih later]
    | false =>
      rw [whenItem, writesOf_entry, writesOf_entry, entryWrites_when w reader condition key here]
      simp only [Prod.map, id, ih later, Field.spliced_append]

theorem writesOf_mergeWhen (condition : Expr) (items after : List ArrayItem) (r : Registry) :
    writesOf .standard w reader (mergeWhenItem condition items :: after) r =
      (Field.spliced true (writesOf .standard w reader items r).1 ++
          (writesOf .standard w reader after (writesOf .standard w reader items r).2).1,
        (writesOf .standard w reader after (writesOf .standard w reader items r).2).2) := by
  have merged : entryWrites .standard w reader none
      (.methodCall (.var "this") "mergeWhen" [condition, .array items] false) r =
        (writesOf .standard w reader items r).map (Field.spliced true) id := by
    unfold entryWrites
    rw [contributed?_eq, read?_mergeWhen]
    rfl
  rw [mergeWhenItem, writesOf_entry, merged]
  rfl

/-- An array in which entries are merged under a condition is read as one in which each of them is
conditional. -/
theorem infer?_mergeWhen (condition : Expr) (before items after : List ArrayItem)
    (plain : ∀ item ∈ items, item.value.isCallable = false) (r : Registry) :
    infer? .standard w reader (.array (before ++ mergeWhenItem condition items :: after)) r =
      infer? .standard w reader (.array (before ++ items.map (whenItem condition) ++ after)) r := by
  have tail (fields : List Field) (r : Registry) :
      readItems .standard w reader fields (mergeWhenItem condition items :: after) r =
        readItems .standard w reader fields (items.map (whenItem condition) ++ after) r := by
    rw [readItems_append, readItems_writes, writesOf_mergeWhen, Field.writeAll_append]
    simp only [readItems_writes, writesOf_when w reader condition plain, Prod.map, id]
  rw [infer?_array, infer?_array, List.append_assoc, readItems_append _ _ _ before,
    readItems_append _ _ _ before, tail]

/-- `['id' => 'x', $this->merge(['id' => $this->id, 'tag' => new Tag]), ...$rest]` -/
def overridingItems : List ArrayItem :=
  let inner : List ArrayItem :=
    [.mk (some (.string "id")) (.property (.var "this") "id" false) false,
      .mk (some (.string "tag")) (.new ⟨"Tag", .unqualified⟩ []) false]
  [.mk (some (.string "id")) (.string "x") false,
    .mk none (.methodCall (.var "this") "merge" [.array inner] false) false,
    .mk none (.var "rest") true]

theorem infer?_mergeWhen_overriding :
    let before : List ArrayItem := [.mk (some (.string "tag")) (.string "none") false]
    let reader : Reader := ⟨.global, none⟩
    let merged := Expr.array (before ++ [mergeWhenItem (.var "open") overridingItems])
    (∀ item ∈ overridingItems, item.value.isCallable = false) ∧
      (infer? .standard .empty reader merged .empty).1.map (fun r => (r.keys, r.required)) =
        some (["tag", "id"], []) ∧
      infer? .standard .empty reader merged .empty =
        infer? .standard .empty reader
          (.array (before ++ overridingItems.map (whenItem (.var "open")) ++ [])) .empty := by
  intro before reader merged
  have plain : ∀ item ∈ overridingItems, item.value.isCallable = false := by
    decide
  refine ⟨plain, by with_unfolding_all rfl, ?_⟩
  exact infer?_mergeWhen .empty reader (.var "open") before overridingItems [] plain .empty

end Inference

end ResponseShape

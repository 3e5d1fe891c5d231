import ResponseShape.Proofs.Distinct

/-! Schemas read back from their JSON. The three forms of a schema and the bare object of a
reservation are told apart by the members they have, at any depth and whatever the properties are
called. Main statement: `Registry.toJson_determines`. -/
namespace ResponseShape

def Json.texts (items : List Json) : List String :=
  items.filterMap fun
    | .string text => some text
    | _ => none

theorem Json.texts_strings (names : List String) : texts (names.map .string) = names := by
  induction names with
  | nil => rfl
  | cons name rest ih => exact congrArg (name :: ·) ih

namespace Schema

/-- The name that a pointer to a named schema ends in. -/
def named? (target : String) : Option String :=
  let front := (pointer "").toList
  if front.isPrefixOf target.toList then some (String.ofList (target.toList.drop front.length))
  else none

theorem toList_pointer (name : String) :
    (pointer name).toList = (pointer "").toList ++ name.toList := by
  unfold pointer
  rw [String.append_empty, String.toList_append]

theorem named?_pointer (name : String) : named? (pointer name) = some name := by
  unfold named?
  rw [toList_pointer name, if_pos (List.isPrefixOf_iff_prefix.2 (List.prefix_append _ _)),
    List.drop_left, String.ofList_toList]

mutual

def ofJson? : Json → Option Schema
  | .object [("type", .string "string")] => some .string
  | .object [("$ref", .string target)] => (named? target).map .reference
  | .object [("type", .string "object"), ("properties", .object members)] =>
    (propertiesOfJson? [] members).map .object
  | .object [("type", .string "object"), ("properties", .object members),
      ("required", .array names)] =>
    (propertiesOfJson? (Json.texts names) members).map .object
  | _ => none

def propertiesOfJson? (required : List String) : List (String × Json) → Option (List Property)
  | [] => some []
  | (name, json) :: rest => do
    let schema ← ofJson? json
    return ⟨name, schema, required.contains name⟩ :: (← propertiesOfJson? required rest)

end

mutual

/-- No object has two properties of one name, at any depth. -/
def Distinct : Schema → Prop
  | .string | .reference _ => True
  | .object properties => (properties.map Property.name).Nodup ∧ DistinctProperties properties

def DistinctProperties : List Property → Prop
  | [] => True
  | .mk _ schema _ :: rest => schema.Distinct ∧ DistinctProperties rest

end

theorem names_membersJson : ∀ properties : List Property,
    (membersJson properties).map Prod.fst = properties.map Property.name
  | [] => rfl
  | .mk name _ _ :: rest => congrArg (name :: ·) (names_membersJson rest)

/-- With distinct names, the list of required names says of every property whether it is one. -/
theorem contains_requiredNames {properties : List Property}
    (distinct : (properties.map Property.name).Nodup) {p : Property} (here : p ∈ properties) :
    (requiredNames properties).contains p.name = p.required := by
  have listed : p.name ∈ requiredNames properties ↔ p.required = true := by
    unfold requiredNames
    rw [List.mem_map]
    constructor
    · rintro ⟨q, hq, same⟩
      rw [List.mem_filter] at hq
      rw [← List.inj_on_of_nodup_map distinct hq.1 here same]
      exact hq.2
    · intro required
      exact ⟨p, List.mem_filter.2 ⟨here, required⟩, rfl⟩
  rw [List.contains_eq_mem, Bool.eq_iff_iff, decide_eq_true_iff, listed]

mutual

theorem ofJson?_toJson : ∀ {schema : Schema}, schema.Distinct →
    ofJson? schema.toJson = some schema
  | .string, _ => rfl
  | .reference name, _ => by
    rw [toJson, ofJson?, named?_pointer]
    rfl
  | .object properties, distinct => by
    have members : ((membersJson properties).map Prod.fst).Nodup :=
      names_membersJson properties ▸ distinct.1
    have back : propertiesOfJson? (requiredNames properties) (membersJson properties) =
        some properties :=
      propertiesOfJson?_membersJson distinct.2 fun p => contains_requiredNames distinct.1
    rw [toJson, Json.ofMembers_of_nodup members]
    cases flags : requiredNames properties with
    | nil =>
      rw [flags] at back
      rw [List.isEmpty_nil, if_pos rfl, List.append_nil, ofJson?, back]
      rfl
    | cons name rest =>
      rw [flags] at back
      rw [List.isEmpty_cons, if_neg Bool.false_ne_true, List.cons_append, List.cons_append,
        List.nil_append, Json.strings, ofJson?, Json.texts_strings, back]
      rfl

theorem propertiesOfJson?_membersJson : ∀ {properties : List Property},
    DistinctProperties properties → ∀ {required : List String},
      (∀ p ∈ properties, required.contains p.name = p.required) →
        propertiesOfJson? required (membersJson properties) = some properties
  | [], _, _, _ => rfl
  | .mk name schema flag :: rest, distinct, required, flags => by
    rw [List.forall_mem_cons] at flags
    have here : required.contains name = flag := flags.1
    rw [membersJson, propertiesOfJson?, ofJson?_toJson distinct.1,
      propertiesOfJson?_membersJson distinct.2 flags.2, here]
    rfl

end

end Schema

namespace Entry

def ofJson? : Json → Option Entry
  | .object [("type", .string "object")] => some .reserved
  | json => (Schema.ofJson? json).map .ready

def Distinct : Entry → Prop
  | .reserved => True
  | .ready schema => schema.Distinct

theorem ofJson?_entryJson {e : Entry} (distinct : e.Distinct) :
    ofJson? (Registry.entryJson e) = some e := by
  cases e with
  | reserved => rfl
  | ready schema =>
    have notBare : Registry.entryJson (.ready schema) ≠ .object [("type", .string "object")] :=
      fun bare => nomatch Registry.entryJson_eq_bare_iff.1 bare
    rw [Registry.entryJson] at notBare ⊢
    rw [ofJson?, Schema.ofJson?_toJson distinct]
    · rfl
    · exact notBare

end Entry

namespace Registry

/-- The names and entries of a registry, from its JSON. -/
def ofJson? : Json → Option (List (String × Entry))
  | .object members => members.mapM fun m => (Entry.ofJson? m.2).map (m.1, ·)
  | _ => none

/-- No object in a schema has two properties of one name. -/
def Distinct (r : Registry) : Prop := ∀ e ∈ r.entries.entries, e.2.Distinct

theorem ofJson?_object {entries : List (String × Entry)} (distinct : ∀ e ∈ entries, e.2.Distinct) :
    ofJson? (.object (entries.map fun e => (e.1, entryJson e.2))) = some entries := by
  unfold ofJson?
  dsimp only
  induction entries with
  | nil => rfl
  | cons e rest ih =>
    rw [List.forall_mem_cons] at distinct
    rw [List.map_cons, List.mapM_cons, Entry.ofJson?_entryJson distinct.1, ih distinct.2]
    rfl

/-- The JSON of a registry has all there is to know of it: its entries can be read back, in order,
and no other registry has the same JSON. -/
theorem toJson_determines {r : Registry} (distinct : r.Distinct) :
    ofJson? r.toJson = some r.entries.entries ∧
      ∀ other : Registry, other.Distinct → other.toJson = r.toJson → other = r := by
  refine ⟨ofJson?_object distinct, fun other distinct' same => ?_⟩
  have back : ofJson? other.toJson = some r.entries.entries := by
    rw [same]
    exact ofJson?_object distinct
  have entries : other.entries.entries = r.entries.entries :=
    Option.some.inj ((ofJson?_object distinct').symm.trans back)
  cases other
  cases r
  exact congrArg Registry.mk (Table.ext entries)

/-- A reservation, and properties that are called like the members of schemas. -/
def keywords : Registry :=
  ⟨⟨[("type", .reserved),
    ("$ref", .ready (.object [⟨"$ref", .string, false⟩, ⟨"type", .reference "#", true⟩,
      ⟨"required", .object [⟨"type", .object [], true⟩], false⟩])),
    ("string", .ready .string)], by decide⟩⟩

theorem toJson_determines_keywords :
    keywords.Distinct ∧ ofJson? keywords.toJson = some keywords.entries.entries := by
  have distinct : keywords.Distinct := by
    intro e here
    simp only [keywords, List.mem_cons, List.not_mem_nil, or_false] at here
    rcases here with rfl | rfl | rfl
    · trivial
    · have inner : Schema.Distinct (.object [⟨"type", .object [], true⟩]) :=
        ⟨by decide, ⟨List.nodup_nil, trivial⟩, trivial⟩
      exact ⟨by decide, trivial, trivial, inner, trivial⟩
    · trivial
  exact ⟨distinct, (toJson_determines distinct).1⟩

end Registry

end ResponseShape

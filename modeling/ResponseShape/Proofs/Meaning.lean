import ResponseShape.Proofs.Sample
import ResponseShape.Proofs.Termination

/-! What the array of a class means when every class in it is called by its full name. Inference
knows nothing else of a workspace: where the meanings are the same, so is every answer. Main
statements: `SameMeaning.settleAll`, `SameMeaning.returns_iff`. -/
namespace ResponseShape.Inference

def bareReader : Reader := ⟨.global, none⟩

theorem className_bareReader (w : Workspace) (owner : Name) :
    bareReader.className w owner = owner.text := by
  simp only [bareReader, Reader.className, Scope.fullName, Scope.resolve, Scope.ownName,
    Scope.global, Table.find?_empty]
  cases owner.form with
  | fullyQualified => rfl
  | unqualified | qualified => exact ite_self owner.text

section

variable (config : Config) (w : Workspace)

def fullyNamed (reader : Reader) (owner : Name) : Name :=
  ⟨reader.className w owner, .fullyQualified⟩

/-- The outline of the array of a class, with the full names of the classes in it. -/
def meaning? (fullName : String) : Option (List OutlineEntry) :=
  (array? config w fullName).map fun a =>
    mapOwnersOf (fullyNamed w ⟨a.1, some fullName⟩) (config.outline a.2)

theorem fieldsOf_eq (visit : String → StateM Registry (Option SchemaRef)) (reader : Reader)
    (items : List ArrayItem) :
    fieldsOf config w visit reader items =
      OutlineEntry.fieldsAfter (bareReader.construct w visit) []
        (mapOwnersOf (fullyNamed w reader) (config.outline items)) := by
  rw [OutlineEntry.fieldsAfter_mapOwnersOf]
  rfl

end

/-- The same classes, with arrays of the same meaning. -/
structure SameMeaning (config : Config) (w : Workspace) (config' : Config) (w' : Workspace) :
    Prop where
  declares : ∀ fullName, w'.declares fullName = w.declares fullName
  meaning : ∀ fullName, meaning? config' w' fullName = meaning? config w fullName

namespace SameMeaning

variable {config config' : Config} {w w' : Workspace} (same : SameMeaning config w config' w')

include same

theorem construct {visit visit' : String → StateM Registry (Option SchemaRef)} {owner : Name}
    {r : Registry} (agree : visit' owner.text r = visit owner.text r) :
    bareReader.construct w' visit' owner r = bareReader.construct w visit owner r := by
  rw [construct_run, construct_run, className_bareReader, className_bareReader, same.declares,
    agree]

theorem array?_eq_none {fullName : String} (missing : array? config w fullName = none) :
    array? config' w' fullName = none := by
  have meaning := same.meaning fullName
  simpa [meaning?, missing] using meaning

theorem array?_eq_some {fullName : String} {scope : Scope} {items : List ArrayItem}
    (found : array? config w fullName = some (scope, items)) :
    ∃ scope' items', array? config' w' fullName = some (scope', items') ∧
      mapOwnersOf (fullyNamed w' ⟨scope', some fullName⟩) (config'.outline items') =
        mapOwnersOf (fullyNamed w ⟨scope, some fullName⟩) (config.outline items) := by
  have meaning := same.meaning fullName
  rw [meaning?, meaning?, found, Option.map_some, Option.map_eq_some_iff] at meaning
  obtain ⟨⟨scope', items'⟩, found', entries⟩ := meaning
  exact ⟨scope', items', found', entries⟩

theorem inferClass (fullName : String) (r : Registry) :
    Inference.inferClass config' w' fullName r = Inference.inferClass config w fullName r := by
  -- behind the reservation of a class fewer classes are pending
  induction hn : pending w r using Nat.strongRecOn generalizing fullName r with
  | _ n ih =>
    rw [inferClass_run, inferClass_run]
    by_cases taken : shortName fullName ∈ r.names
    · rw [if_pos taken, if_pos taken]
    rw [if_neg taken, if_neg taken]
    cases found : array? config w fullName with
    | none => rw [same.array?_eq_none found]
    | some a =>
      obtain ⟨scope, items⟩ := a
      obtain ⟨scope', items', found', entries⟩ := same.array?_eq_some found
      have start : pending w (r.reserve (shortName fullName)) < n :=
        hn ▸ pending_reserve_lt (by rw [found]; rfl) taken
      rw [found']
      dsimp only
      unfold afterArray
      rw [fieldsOf_eq, fieldsOf_eq, entries]
      congr 1
      rw [(OutlineEntry.fieldsAfter_agree
        (OutlineEntry.Agreement.under fun s => pending w s < n) [] ?_ _ start).1]
      intro owner _ s less
      have agree := same.construct (ih _ less owner.text s rfl)
      refine ⟨agree, ?_⟩
      rw [agree, construct_state]
      exact Nat.lt_of_le_of_lt (pending_anti (names_subset_inferClass config w _ s)) less

theorem respond? (fullName : String) (r : Registry) :
    Inference.respond? config' w' fullName r = Inference.respond? config w fullName r := by
  unfold Inference.respond?
  rw [OutlineEntry.bind_run, OutlineEntry.bind_run, same.inferClass]

theorem sample? (fullName : String) (r : Registry) :
    Inference.sample? config' w' fullName r = Inference.sample? config w fullName r := by
  have visits : bareReader.construct w' (Inference.inferClass config' w') =
      bareReader.construct w (Inference.inferClass config w) := by
    funext owner s
    exact same.construct (same.inferClass owner.text s)
  rw [sample?_run, sample?_run]
  cases found : array? config w fullName with
  | none => rw [same.array?_eq_none found]
  | some a =>
    obtain ⟨scope, items⟩ := a
    obtain ⟨scope', items', found', entries⟩ := same.array?_eq_some found
    rw [found']
    dsimp only
    rw [fieldsOf_eq, fieldsOf_eq, entries, visits]

end SameMeaning

/-- What is asked of inference from outside. -/
inductive Request where
  | infer (fullName : String)
  | respond (fullName : String)
  | sample (fullName : String)

def Request.call : Request → Call
  | .infer fullName => .inferClass fullName
  | .respond fullName => .respond fullName
  | .sample fullName => .sample fullName

/-- The answers of calls that are made one after the other, and the session they leave. -/
def settleAll (config : Config) (w : Workspace) :
    List Call → Session → List ((c : Call) × c.Answer) × Session
  | [], s => ([], s)
  | c :: rest, s =>
    let first := settle config w c s
    let later := settleAll config w rest first.2
    (⟨c, first.1⟩ :: later.1, later.2)

namespace SameMeaning

variable {config config' : Config} {w w' : Workspace} (same : SameMeaning config w config' w')

include same

theorem settle (q : Request) (s : Session) :
    Inference.settle config' w' q.call s = Inference.settle config w q.call s := by
  cases q with
  | infer fullName => simp only [Request.call, Inference.settle, Session.onRegistry, same.inferClass]
  | respond fullName => simp only [Request.call, Inference.settle, Session.onRegistry, same.respond?]
  | sample fullName => simp only [Request.call, Inference.settle, Session.onRegistry, same.sample?]

theorem settleAll (requests : List Request) (s : Session) :
    Inference.settleAll config' w' (requests.map Request.call) s =
      Inference.settleAll config w (requests.map Request.call) s := by
  induction requests generalizing s with
  | nil => rfl
  | cons q rest ih =>
    rw [List.map_cons, Inference.settleAll, Inference.settleAll, same.settle, ih]

theorem returns_iff (q : Request) (s : Session) (a : q.call.Answer) (s' : Session) :
    Returns config' w' (routine config' w' q.call s) a s' ↔
      Returns config w (routine config w q.call s) a s' := by
  rw [Inference.returns_iff, Inference.returns_iff, same.settle]

end SameMeaning

end ResponseShape.Inference

import ResponseShape.Proofs.Stateless
import ResponseShape.Proofs.Survey
import ResponseShape.Proofs.Workspace

/-! The document does not depend on the order in which files and classes are given. With distinct
short names it can be told without a run: the components are the reachable classes, and nothing in
their schemas depends on the way they were reached. -/
namespace ResponseShape

namespace Inference

variable {config : Config} {w w₁ w₂ : Workspace}

theorem Reachable.mono {requested more : List String} {fullName : String}
    (h : Reachable config w requested fullName) (subset : requested ⊆ more) :
    Reachable config w more fullName := by
  induction h with
  | request hx hasArray => exact .request (subset hx) hasArray
  | construct _ hx hasArray ih => exact ih.construct hx hasArray

theorem declares_of_alike (h : w₁.Alike w₂) : w₁.declares = w₂.declares := by
  funext fullName
  have same := congrArg Option.isSome (h fullName)
  rwa [Option.isSome_map, Option.isSome_map] at same

theorem array?_of_alike (h : w₁.Alike w₂) : array? config w₁ = array? config w₂ := by
  funext fullName
  have same := h fullName
  unfold array?
  cases h₁ : w₁.find? fullName with
  | none =>
    cases h₂ : w₂.find? fullName with
    | none => rfl
    | some t₂ =>
      rw [h₁, h₂] at same
      cases same
  | some t₁ =>
    cases h₂ : w₂.find? fullName with
    | none =>
      rw [h₁, h₂] at same
      cases same
    | some t₂ =>
      rw [h₁, h₂] at same
      have source : t₁.source = t₂.source := Option.some.inj same
      have decls : t₁.decl = t₂.decl := congrArg Prod.fst source
      have scopes : t₁.scope = t₂.scope := congrArg Prod.snd source
      dsimp only [Option.bind_eq_bind, Option.bind_some]
      unfold ResourceClass.body?
      rw [decls, scopes]

theorem className_of_alike (h : w₁.Alike w₂) (reader : Reader) :
    reader.className w₁ = reader.className w₂ := by
  funext name
  unfold Reader.className
  rw [declares_of_alike h]

theorem constructed_of_alike (h : w₁.Alike w₂) :
    constructed config w₁ = constructed config w₂ := by
  funext fullName
  unfold constructed
  rw [array?_of_alike h]
  simp only [className_of_alike h]

theorem statelessFields_of_alike (h : w₁.Alike w₂) :
    statelessFields config w₁ = statelessFields config w₂ := by
  funext fullName
  unfold statelessFields statelessShape
  rw [array?_of_alike h]
  simp only [className_of_alike h]

theorem reachable_of_alike (h : w₁.Alike w₂) : Reachable config w₁ = Reachable config w₂ := by
  funext requested fullName
  have transfer {w w' : Workspace} (h : w.Alike w')
      (reachable : Reachable config w requested fullName) :
      Reachable config w' requested fullName := by
    induction reachable with
    | request hx hasArray => exact .request hx (array?_of_alike h ▸ hasArray)
    | construct _ hx hasArray ih =>
      exact ih.construct (constructed_of_alike h ▸ hx) (array?_of_alike h ▸ hasArray)
  exact propext ⟨transfer h, transfer fun fullName => (h fullName).symm⟩

end Inference

namespace Document

open Inference

variable {config : Config} {w : Workspace} {fullNames : List String}

theorem entry?_ofClasses (distinct : DistinctNames w) {name : String} {entry : Entry} :
    (ofClasses config w fullNames).components.entry? name = some entry ↔
      ∃ x, Reachable config w fullNames x ∧ shortName x = name ∧
        entry = .ready (.ofFields (statelessFields config w x)) := by
  have run : (ofClasses config w fullNames).components = visitAll config w fullNames .empty :=
    survey_components config w fullNames empty
  unfold Registry.entry?
  rw [Table.find?_eq_some_iff, run, distinct.entries_visitAll, List.mem_map]
  simp only [mem_preorder_iff, Prod.mk.injEq, eq_comm (b := entry)]

theorem response?_ofClasses (distinct : DistinctNames w)
    (declared : ∀ x ∈ fullNames, w.declares x) {fullName : String} {response : Response} :
    (ofClasses config w fullNames).responses.find? fullName = some response ↔
      fullName ∈ fullNames ∧ (array? config w fullName).isSome ∧
        response = .ofClass fullName := by
  constructor
  · intro h
    obtain ⟨requested, same, known⟩ := (survey_response h).resolve_left nofun
    obtain ⟨entry, found⟩ := Option.isSome_iff_exists.1 (Table.contains_iff.2 known)
    -- the name was taken by a class that is read, and no other class has it
    obtain ⟨x, reachable, short, -⟩ := (entry?_ofClasses distinct).1 found
    exact ⟨requested, distinct.unmistakable (declared _ requested) x reachable.array? short, same⟩
  · rintro ⟨requested, hasArray, rfl⟩
    exact survey_responds hasArray (Or.inr requested)

theorem distinctNames_ofFiles {files : List (Option String × SourceFile)}
    (distinct : Workspace.DistinctDeclarations (files.map Prod.snd)) :
    DistinctNames (Workspace.ofFiles files) := by
  intro x hx y hy same
  obtain ⟨t, ht⟩ := Option.isSome_iff_exists.1 (Table.contains_iff.2 hx)
  obtain ⟨t', ht'⟩ := Option.isSome_iff_exists.1 (Table.contains_iff.2 hy)
  obtain ⟨u, hu, c, hc, -, here⟩ := Workspace.source_of_find? ht
  obtain ⟨v, hv, d, hd, -, there⟩ := Workspace.source_of_find? ht'
  obtain ⟨decls, scopes⟩ := distinct u hu v hv c hc d hd (by rw [here, there, same])
  rw [← here, ← there, decls, scopes]

/-- The same files and the same classes, in any order and however often, give the same document. -/
theorem ofClasses_order (config : Config) {files₁ files₂ : List (Option String × SourceFile)}
    {fullNames₁ fullNames₂ : List String}
    (distinct : Workspace.DistinctDeclarations (files₁.map Prod.snd))
    (files : ∀ u, u ∈ files₁.map Prod.snd ↔ u ∈ files₂.map Prod.snd)
    (declared : ∀ x ∈ fullNames₁, (Workspace.ofFiles files₁).declares x)
    (names : ∀ x, x ∈ fullNames₁ ↔ x ∈ fullNames₂) :
    (∀ name,
        (ofClasses config (Workspace.ofFiles files₁) fullNames₁).components.entry? name =
          (ofClasses config (Workspace.ofFiles files₂) fullNames₂).components.entry? name) ∧
      ∀ fullName,
        (ofClasses config (Workspace.ofFiles files₁) fullNames₁).responses.find? fullName =
          (ofClasses config (Workspace.ofFiles files₂) fullNames₂).responses.find? fullName := by
  have alike := Workspace.alike_ofFiles distinct files
  have distinct' : Workspace.DistinctDeclarations (files₂.map Prod.snd) :=
    fun u hu v hv => distinct u ((files u).2 hu) v ((files v).2 hv)
  have declared' : ∀ x ∈ fullNames₂, (Workspace.ofFiles files₂).declares x := by
    intro x hx
    rw [← declares_of_alike alike]
    exact declared x ((names x).2 hx)
  constructor
  · intro name
    apply Option.ext
    intro entry
    rw [entry?_ofClasses (distinctNames_ofFiles distinct),
      entry?_ofClasses (distinctNames_ofFiles distinct'), statelessFields_of_alike alike]
    have reachable (x : String) :
        Reachable config (Workspace.ofFiles files₁) fullNames₁ x ↔
          Reachable config (Workspace.ofFiles files₂) fullNames₂ x := by
      rw [reachable_of_alike alike]
      exact ⟨fun h => h.mono fun y hy => (names y).1 hy, fun h => h.mono fun y hy => (names y).2 hy⟩
    simp only [reachable]
  · intro fullName
    apply Option.ext
    intro response
    rw [response?_ofClasses (distinctNames_ofFiles distinct) declared,
      response?_ofClasses (distinctNames_ofFiles distinct') declared', array?_of_alike alike, names]

def postFile : SourceFile :=
  ⟨some ⟨"App", .unqualified⟩, [], [resource "Post" "author" (.new ⟨"User", .unqualified⟩ [])]⟩

def userFile : SourceFile :=
  ⟨some ⟨"App", .unqualified⟩, [], [resource "User" "posts" (.new ⟨"Post", .unqualified⟩ [])]⟩

theorem distinctDeclarations_postFile :
    Workspace.DistinctDeclarations [postFile, userFile] := by
  intro u hu v hv c hc d hd same
  simp only [List.mem_cons, List.not_mem_nil, or_false] at hu hv
  rcases hu with rfl | rfl <;> rcases hv with rfl | rfl <;>
    cases List.mem_singleton.1 hc <;> cases List.mem_singleton.1 hd
  · exact ⟨rfl, rfl⟩
  · exact absurd same (by decide)
  · exact absurd same (by decide)
  · exact ⟨rfl, rfl⟩

theorem ofClasses_order_postFile :
    Workspace.DistinctDeclarations [postFile, userFile] ∧
      (∀ x ∈ ["App\\Post", "App\\User"],
        (Workspace.ofFiles [(none, postFile), (none, userFile)]).declares x) ∧
      ∀ name,
        (ofClasses .standard (Workspace.ofFiles [(none, postFile), (none, userFile)])
            ["App\\Post", "App\\User"]).components.entry? name =
          (ofClasses .standard
            (Workspace.ofFiles [(none, userFile), (none, postFile), (none, userFile)])
            ["App\\User", "App\\Post", "App\\User"]).components.entry? name := by
  have declared : ∀ x ∈ ["App\\Post", "App\\User"],
      (Workspace.ofFiles [(none, postFile), (none, userFile)]).declares x := by decide
  refine ⟨distinctDeclarations_postFile, declared, ?_⟩
  have distinct : Workspace.DistinctDeclarations
      ([((none : Option String), postFile), (none, userFile)].map Prod.snd) :=
    distinctDeclarations_postFile
  refine (ofClasses_order .standard distinct ?_ declared ?_).1
  · intro u
    simp only [List.map_cons, List.map_nil, List.mem_cons, List.not_mem_nil]
    grind
  · intro x
    simp only [List.mem_cons, List.not_mem_nil]
    grind

end Document

end ResponseShape

import ResponseShape.Proofs.Table
import ResponseShape.Workspace

/-! Looking up classes in the workspace of a list of files: the first declaration of a name is
found, in whatever file it stands. Main statement: `alike_ofFiles`, by which the order of the files
does not matter if no short name is declared twice. -/
namespace ResponseShape

def SourceFile.resourceClasses (u : SourceFile) (path : Option String) : List ResourceClass :=
  u.classes.map fun c => ⟨(Scope.ofFile u).ownName c.name, c, Scope.ofFile u, path⟩

/-- What inference sees of a class: its declaration and the meaning of the names in it. -/
def ResourceClass.source (t : ResourceClass) : ClassDecl × Scope := (t.decl, t.scope)

namespace Workspace

def ofFiles (files : List (Option String × SourceFile)) : Workspace :=
  files.foldl (fun w f => w.addFile f.1 f.2) .empty

theorem find?_addClass (w : Workspace) (t : ResourceClass) (fullName : String) :
    (w.addClass t).find? fullName =
      (w.find? fullName).or (if t.name = fullName then some t else none) := by
  unfold addClass
  by_cases taken : w.declares t.name
  · rw [if_pos taken]
    by_cases same : t.name = fullName
    · obtain ⟨old, found⟩ := Option.isSome_iff_exists.1 taken
      have found' : w.find? fullName = some old := same ▸ found
      rw [found', Option.some_or]
    · rw [if_neg same, Option.or_none]
  · rw [if_neg taken]
    unfold find?
    rw [Table.find?_insert]
    by_cases same : t.name = fullName
    · have free : w.classes.find? fullName = none := by
        rw [← same, ← Option.not_isSome_iff_eq_none]
        exact taken
      rw [if_pos same, if_pos same, free, Option.none_or]
    · rw [if_neg same, if_neg same, Option.or_none]

theorem find?_addClasses (ts : List ResourceClass) (w : Workspace) (fullName : String) :
    (ts.foldl addClass w).find? fullName =
      (w.find? fullName).or (ts.find? fun t => t.name == fullName) := by
  induction ts generalizing w with
  | nil => exact (Option.or_none).symm
  | cons t rest ih =>
    rw [List.foldl_cons, ih, find?_addClass, Option.or_assoc, List.find?_cons]
    by_cases same : t.name = fullName
    · have hit : (t.name == fullName) = true := beq_iff_eq.2 same
      rw [if_pos same, Option.some_or, hit]
    · have miss : (t.name == fullName) = false := beq_eq_false_iff_ne.2 same
      rw [if_neg same, Option.none_or, miss]

theorem addFile_eq (w : Workspace) (path : Option String) (u : SourceFile) :
    w.addFile path u = (u.resourceClasses path).foldl addClass w := by
  unfold addFile SourceFile.resourceClasses
  rw [List.foldl_map]

theorem ofFiles_eq (files : List (Option String × SourceFile)) :
    ofFiles files =
      (files.flatMap fun f => f.2.resourceClasses f.1).foldl addClass .empty := by
  unfold ofFiles
  generalize empty = w
  induction files generalizing w with
  | nil => rfl
  | cons f rest ih =>
    rw [List.foldl_cons, ih, List.flatMap_cons, List.foldl_append, addFile_eq]

theorem find?_ofFiles (files : List (Option String × SourceFile)) (fullName : String) :
    (ofFiles files).find? fullName =
      (files.flatMap fun f => f.2.resourceClasses f.1).find? fun t => t.name == fullName := by
  rw [ofFiles_eq, find?_addClasses]
  exact Option.none_or

/-- A class that is found stands in a file, under the name that the file gives to it. -/
theorem source_of_find? {files : List (Option String × SourceFile)} {fullName : String}
    {t : ResourceClass} (h : (ofFiles files).find? fullName = some t) :
    ∃ u ∈ files.map Prod.snd, ∃ c ∈ u.classes,
      t.source = (c, Scope.ofFile u) ∧ (Scope.ofFile u).ownName c.name = fullName := by
  rw [find?_ofFiles] at h
  obtain ⟨f, hf, ht⟩ := List.mem_flatMap.1 (List.mem_of_find?_eq_some h)
  obtain ⟨c, hc, rfl⟩ := List.mem_map.1 ht
  have same := List.find?_some h
  exact ⟨f.2, List.mem_map_of_mem hf, c, hc, rfl, beq_iff_eq.1 same⟩

theorem find?_isSome_of_mem {files : List (Option String × SourceFile)} {u : SourceFile}
    {c : ClassDecl} (hu : u ∈ files.map Prod.snd) (hc : c ∈ u.classes) :
    ((ofFiles files).find? ((Scope.ofFile u).ownName c.name)).isSome := by
  obtain ⟨f, hf, rfl⟩ := List.mem_map.1 hu
  rw [find?_ofFiles, List.find?_isSome]
  refine ⟨_, List.mem_flatMap.2 ⟨f, hf, List.mem_map_of_mem hc⟩, ?_⟩
  exact beq_self_eq_true _

def Alike (w₁ w₂ : Workspace) : Prop :=
  ∀ fullName, (w₁.find? fullName).map ResourceClass.source =
    (w₂.find? fullName).map ResourceClass.source

/-- Class declarations of files with one short name are the same. -/
def DistinctDeclarations (files : List SourceFile) : Prop :=
  ∀ u ∈ files, ∀ v ∈ files, ∀ c ∈ u.classes, ∀ d ∈ v.classes,
    shortName ((Scope.ofFile u).ownName c.name) = shortName ((Scope.ofFile v).ownName d.name) →
      c = d ∧ Scope.ofFile u = Scope.ofFile v

theorem alike_ofFiles {files₁ files₂ : List (Option String × SourceFile)}
    (distinct : DistinctDeclarations (files₁.map Prod.snd))
    (same : ∀ u, u ∈ files₁.map Prod.snd ↔ u ∈ files₂.map Prod.snd) :
    Alike (ofFiles files₁) (ofFiles files₂) := by
  intro fullName
  cases h₁ : (ofFiles files₁).find? fullName with
  | none =>
    cases h₂ : (ofFiles files₂).find? fullName with
    | none => rfl
    | some t =>
      obtain ⟨u, hu, c, hc, -, here⟩ := source_of_find? h₂
      have found := find?_isSome_of_mem ((same u).2 hu) hc
      rw [here, h₁] at found
      cases found
  | some t₁ =>
    obtain ⟨u, hu, c, hc, source₁, here₁⟩ := source_of_find? h₁
    have found := find?_isSome_of_mem ((same u).1 hu) hc
    rw [here₁] at found
    obtain ⟨t₂, h₂⟩ := Option.isSome_iff_exists.1 found
    obtain ⟨v, hv, d, hd, source₂, here₂⟩ := source_of_find? h₂
    -- the declarations that come first may stand in different files, but under one short name
    obtain ⟨decls, scopes⟩ := distinct u hu v ((same v).2 hv) c hc d hd (by rw [here₁, here₂])
    rw [h₂, Option.map_some, Option.map_some, source₁, source₂, decls, scopes]

end Workspace

end ResponseShape

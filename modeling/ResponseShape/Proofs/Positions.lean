import Mathlib.Data.List.Induction
import ResponseShape.Proofs.Workspace

/-! Workspaces filled by any calls, and the same classes kept by position: a name leads to the
number of a file and the number of a class in it, noted before the file itself is kept. Main
statement: `Workspace.ofLoads_first`: a name finds its first declaration, for good, and no position
is out of range. -/
namespace ResponseShape

/-- A call that fills a workspace: with a file that is read already, or with a text. -/
inductive Load
  | file (path : Option String) (u : SourceFile)
  | text (path : Option String) (source : String)

def Load.accepted? : Load → Option (Option String × SourceFile)
  | file path u => some (path, u)
  | text path source => (SourceFile.ofText source).toOption.map fun u => (path, u)

def Load.resourceClasses (calls : List Load) : List ResourceClass :=
  (calls.filterMap Load.accepted?).flatMap fun f => f.2.resourceClasses f.1

theorem Load.resourceClasses_append (calls more : List Load) :
    resourceClasses (calls ++ more) = resourceClasses calls ++ resourceClasses more := by
  unfold resourceClasses
  rw [List.filterMap_append, List.flatMap_append]

namespace Workspace

def load (w : Workspace) : Load → Workspace
  | .file path u => w.addFile path u
  | .text path source => (w.addText path source).toOption.getD w

def ofLoads (calls : List Load) : Workspace := calls.foldl load .empty

theorem load_eq (w : Workspace) (call : Load) :
    w.load call = call.accepted?.elim w fun f => w.addFile f.1 f.2 := by
  cases call with
  | file path u => rfl
  | text path source =>
    simp only [load, Load.accepted?, addText]
    cases SourceFile.ofText source with
    | ok u => rfl
    | error e => rfl

theorem ofLoads_eq (calls : List Load) :
    ofLoads calls = ofFiles (calls.filterMap Load.accepted?) := by
  unfold ofLoads ofFiles
  rw [List.foldl_filterMap]
  congr 1
  funext w call
  rw [load_eq]
  cases call.accepted? with
  | none => rfl
  | some f => rfl

theorem find?_ofLoads (calls : List Load) (fullName : String) :
    (ofLoads calls).find? fullName =
      (Load.resourceClasses calls).find? fun t => t.name == fullName := by
  rw [ofLoads_eq, find?_ofFiles, Load.resourceClasses]

theorem eraseDups_concat (names : List String) (name : String) :
    (names ++ [name]).eraseDups =
      if name ∈ names then names.eraseDups else names.eraseDups ++ [name] := by
  rw [List.eraseDups_append]
  by_cases known : name ∈ names
  · have nothing : [name].removeAll names = [] := by simp [List.removeAll, known]
    rw [if_pos known, nothing, List.eraseDups_nil, List.append_nil]
  · have all : [name].removeAll names = [name] := by simp [List.removeAll, known]
    rw [if_neg known, all]
    rfl

theorem classNames_addClass (w : Workspace) (t : ResourceClass) :
    (w.addClass t).classNames =
      if t.name ∈ w.classNames then w.classNames else w.classNames ++ [t.name] := by
  unfold addClass
  by_cases taken : w.declares t.name
  · have known : t.name ∈ w.classNames := Table.contains_iff.1 taken
    rw [if_pos taken, if_pos known]
  · have fresh : t.name ∉ w.classNames := fun known => taken (Table.contains_iff.2 known)
    rw [if_neg taken, if_neg fresh]
    exact (Table.keys_insert w.classes t.name t).trans (if_neg fresh)

theorem classNames_addClasses (ts : List ResourceClass) :
    (ts.foldl addClass .empty).classNames = (ts.map ResourceClass.name).eraseDups := by
  induction ts using List.reverseRecOn with
  | nil => rfl
  | append_singleton ts t ih =>
    rw [List.foldl_append, List.foldl_cons, List.foldl_nil, classNames_addClass, ih,
      List.map_append, List.map_singleton, eraseDups_concat]
    simp only [List.mem_eraseDups]

theorem classNames_ofLoads (calls : List Load) :
    (ofLoads calls).classNames =
      ((Load.resourceClasses calls).map ResourceClass.name).eraseDups := by
  rw [ofLoads_eq, ofFiles_eq, classNames_addClasses, Load.resourceClasses]

/-- Calls that come later answer for the names that are free so far. -/
theorem find?_ofLoads_append (calls more : List Load) (fullName : String) :
    (ofLoads (calls ++ more)).find? fullName =
      ((ofLoads calls).find? fullName).or ((ofLoads more).find? fullName) := by
  rw [find?_ofLoads, find?_ofLoads, find?_ofLoads, Load.resourceClasses_append, List.find?_append]

end Workspace

structure LoadedFile where
  path : Option String
  file : SourceFile
  scope : Scope

structure Place where
  file : Nat
  item : Nat

/-- What a workspace holds if it keeps its files whole and the places of their classes by name. -/
structure Index where
  files : List LoadedFile
  places : Table Place

namespace Index

def empty : Index := ⟨[], .empty⟩

def class? (files : List LoadedFile) (fullName : String) (place : Place) :
    Option ResourceClass := do
  let f ← files[place.file]?
  let c ← f.file.classes[place.item]?
  return ⟨fullName, c, f.scope, f.path⟩

/-- A known name has a place. Whether there is a class at it is a second question. -/
def find? (ix : Index) (fullName : String) : Option (Option ResourceClass) :=
  (ix.places.find? fullName).map (class? ix.files fullName)

def classNames (ix : Index) : List String := ix.places.keys

def note (scope : Scope) (file : Nat) (places : Table Place) (c : ClassDecl × Nat) : Table Place :=
  if places.contains (scope.ownName c.1.name) then places
  else places.insert (scope.ownName c.1.name) ⟨file, c.2⟩

def addFile (ix : Index) (path : Option String) (u : SourceFile) : Index :=
  let scope := Scope.ofFile u
  let places := u.classes.zipIdx.foldl (note scope ix.files.length) ix.places
  ⟨ix.files ++ [⟨path, u, scope⟩], places⟩

def load (ix : Index) : Load → Index
  | .file path u => ix.addFile path u
  | .text path source =>
    match SourceFile.ofText source with
    | .ok u => ix.addFile path u
    | .error _ => ix

def ofLoads (calls : List Load) : Index := calls.foldl load .empty

/-- An index that has the names of a workspace, and at their places its classes. -/
structure Shows (ix : Index) (w : Workspace) : Prop where
  classNames : ix.classNames = w.classNames
  find? : ∀ fullName, ix.find? fullName = (w.find? fullName).map some

theorem shows_empty : empty.Shows .empty := ⟨rfl, fun _ => rfl⟩

variable {ix : Index} {w : Workspace}

theorem class?_append {files : List LoadedFile} {fullName : String} {place : Place}
    {t : ResourceClass} (h : class? files fullName place = some t) (f : LoadedFile) :
    class? (files ++ [f]) fullName place = some t := by
  unfold class? at h ⊢
  obtain ⟨old, found, h⟩ := Option.bind_eq_some_iff.1 h
  have inRange : place.file < files.length := (List.getElem?_eq_some_iff.1 found).1
  rw [List.getElem?_append_left inRange, found]
  exact h

theorem Shows.files_append (h : ix.Shows w) (f : LoadedFile) :
    Shows ⟨ix.files ++ [f], ix.places⟩ w := by
  refine ⟨h.classNames, fun fullName => ?_⟩
  rw [← h.find? fullName]
  cases placed : ix.places.find? fullName with
  | none => simp only [Index.find?, placed, Option.map_none]
  | some place =>
    have shown : some (class? ix.files fullName place) = (w.find? fullName).map some := by
      rw [← h.find? fullName, Index.find?, placed, Option.map_some]
    obtain ⟨t, -, here⟩ := Option.map_eq_some_iff.1 shown.symm
    simp only [Index.find?, placed, Option.map_some, ← here, class?_append here.symm]

theorem Shows.declares (h : ix.Shows w) (fullName : String) :
    ix.places.contains fullName = w.declares fullName := by
  have same : fullName ∈ ix.places.keys ↔ fullName ∈ w.classes.keys := by
    rw [← Index.classNames, h.classNames, Workspace.classNames]
  exact Bool.eq_iff_iff.2 (Table.contains_iff.trans (same.trans Table.contains_iff.symm))

theorem Shows.note (h : ix.Shows w) {f : LoadedFile} {file : Nat} {c : ClassDecl} {i : Nat}
    (hf : ix.files[file]? = some f) (hc : f.file.classes[i]? = some c) :
    Shows ⟨ix.files, note f.scope file ix.places (c, i)⟩
      (w.addClass ⟨f.scope.ownName c.name, c, f.scope, f.path⟩) := by
  unfold Index.note Workspace.addClass
  rw [h.declares]
  by_cases taken : w.declares (f.scope.ownName c.name)
  · rw [if_pos taken, if_pos taken]
    exact h
  · rw [if_neg taken, if_neg taken]
    constructor
    · have same : ix.places.keys = w.classes.keys := h.classNames
      simp only [Index.classNames, Workspace.classNames, Table.keys_insert, same]
    · intro fullName
      have old := h.find? fullName
      simp only [Index.find?, Workspace.find?, Table.find?_insert] at old ⊢
      by_cases own : f.scope.ownName c.name = fullName
      · rw [if_pos own, if_pos own, Option.map_some, Option.map_some, ← own]
        simp only [class?, hf, hc, Option.bind_eq_bind, Option.bind_some, Option.pure_def]
      · rw [if_neg own, if_neg own]
        exact old

theorem Shows.addFile (h : ix.Shows w) (path : Option String) (u : SourceFile) :
    (ix.addFile path u).Shows (w.addFile path u) := by
  let f : LoadedFile := ⟨path, u, .ofFile u⟩
  have numbered : w.addFile path u = u.classes.zipIdx.foldl
      (fun w c => w.addClass ⟨f.scope.ownName c.1.name, c.1, f.scope, f.path⟩) w := by
    unfold Workspace.addFile
    conv_lhs => rw [← List.zipIdx_map_fst 0 u.classes, List.foldl_map]
  rw [numbered]
  -- the files are those of the end from the start, since nothing is looked up in between
  refine List.foldl_rel (r := fun places w => Shows ⟨ix.files ++ [f], places⟩ w)
    (h.files_append f) ?_
  intro c hc places w' shown
  exact shown.note List.getElem?_concat_length (List.mem_zipIdx_iff_getElem?.1 hc)

theorem Shows.load (h : ix.Shows w) (call : Load) : (ix.load call).Shows (w.load call) := by
  cases call with
  | file path u => exact h.addFile path u
  | text path source =>
    simp only [Index.load, Workspace.load, Workspace.addText]
    cases SourceFile.ofText source with
    | ok u => exact h.addFile path u
    | error e => exact h

theorem ofLoads_shows (calls : List Load) : (ofLoads calls).Shows (.ofLoads calls) :=
  List.foldl_rel shows_empty fun call _ _ _ h => h.load call

end Index

namespace Workspace

/-- Whatever the calls, the names are those of the classes in the order of their first declaration.
Each finds its first declaration, with what names mean in its own file, and later calls answer for
free names only; rejected texts leave nothing behind. Kept by position, the classes are the same,
and there is one at every place that is noted. -/
theorem ofLoads_first (calls : List Load) :
    (ofLoads calls).classNames =
        ((Load.resourceClasses calls).map ResourceClass.name).eraseDups ∧
      (∀ fullName, (ofLoads calls).find? fullName =
        (Load.resourceClasses calls).find? fun t => t.name == fullName) ∧
      (∀ more fullName, (ofLoads (calls ++ more)).find? fullName =
        ((ofLoads calls).find? fullName).or ((ofLoads more).find? fullName)) ∧
      ofLoads (calls.filter fun call => call.accepted?.isSome) = ofLoads calls ∧
      (Index.ofLoads calls).classNames = (ofLoads calls).classNames ∧
      ∀ fullName, (Index.ofLoads calls).find? fullName =
        ((ofLoads calls).find? fullName).map some := by
  have shown := Index.ofLoads_shows calls
  have kept : (calls.filter fun call => call.accepted?.isSome).filterMap Load.accepted? =
      calls.filterMap Load.accepted? := by
    rw [List.filterMap_filter]
    congr 1
    funext call
    cases call.accepted? with
    | none => rfl
    | some f => rfl
  refine ⟨classNames_ofLoads calls, find?_ofLoads calls, find?_ofLoads_append calls, ?_,
    shown.classNames, shown.find?⟩
  rw [ofLoads_eq, kept, ← ofLoads_eq]

end Workspace

end ResponseShape

import ResponseShape.Proofs.Settled
import ResponseShape.Proofs.Stateless

/-! The ways to write the name of a class. Each of them leads to the class, whatever else the file
imports, and so they can be exchanged in a construction. Main statement: `spellings_agree`. -/
namespace ResponseShape

namespace Name

theorem toList_join (space name : String) :
    (Scope.join space name).toList = space.toList ++ separator :: name.toList := by
  simp [Scope.join]

theorem ofWritten_absolute (fullName : String) :
    ofWritten (String.singleton separator ++ fullName) = ⟨fullName, .fullyQualified⟩ := by
  simp [ofWritten]

theorem ofWritten_unqualified {written : String} (single : separator ∉ written.toList) :
    ofWritten written = ⟨written, .unqualified⟩ := by
  unfold ofWritten
  cases chars : written.toList with
  | nil => rfl
  | cons c rest =>
    rw [chars, List.mem_cons, not_or] at single
    simp [Ne.symm single.1, single.2]

theorem ofWritten_qualified {written : String} (relative : written.toList.head? ≠ some separator)
    (several : separator ∈ written.toList) : ofWritten written = ⟨written, .qualified⟩ := by
  unfold ofWritten
  cases chars : written.toList with
  | nil => simp [chars] at several
  | cons c rest =>
    rw [chars, List.head?_cons, Ne, Option.some.injEq] at relative
    rw [chars, List.mem_cons] at several
    simp [relative, several.resolve_left (Ne.symm relative)]

variable {segment : String}

theorem first_join (form : NameForm) (single : separator ∉ segment.toList) (rest : String) :
    first ⟨Scope.join segment rest, form⟩ = segment := by
  have all : ∀ c ∈ segment.toList, c ≠ separator := fun c hc same => single (same ▸ hc)
  rw [first, toList_join, List.takeWhile_append_of_pos (by simpa using all)]
  simp

theorem afterFirst_join (form : NameForm) (single : separator ∉ segment.toList) (rest : String) :
    afterFirst ⟨Scope.join segment rest, form⟩ = String.singleton separator ++ rest := by
  have all : ∀ c ∈ segment.toList, c ≠ separator := fun c hc same => single (same ▸ hc)
  rw [afterFirst, toList_join, List.dropWhile_append_of_pos (by simpa using all)]
  simp

end Name

/-- What an import binds a name to; of several the last counts. -/
def SourceFile.bound? (u : SourceFile) (name : String) : Option String :=
  (u.imports.reverse.find? fun i => i.binding == name).map fun i => i.name.text

theorem Scope.find?_aliases (u : SourceFile) (name : String) :
    (Scope.ofFile u).aliases.find? name = u.bound? name := by
  unfold Scope.ofFile SourceFile.bound?
  rw [Table.find?_ofList, ← List.map_reverse, List.find?_map, Option.map_map]
  rfl

/-- The written forms that a file has for a full name. -/
inductive Spells (u : SourceFile) : String → String → Prop
  /-- The full name behind a separator. -/
  | absolute (fullName : String) : Spells u fullName (String.singleton separator ++ fullName)
  /-- A single segment that an import binds to the full name. -/
  | imported {fullName written : String} : separator ∉ written.toList →
      u.bound? written = some fullName → Spells u fullName written
  /-- A path into a namespace that an import binds its first segment to. -/
  | within {space segment : String} (rest : String) : segment ≠ "" →
      separator ∉ segment.toList → u.bound? segment = some space →
      Spells u (Scope.join space rest) (Scope.join segment rest)
  /-- A path from the namespace of the file, unless an import takes it elsewhere. -/
  | own {space : Name} {written : String} : u.namespaceName = some space →
      written.toList.head? ≠ some separator → u.bound? written = none →
      u.bound? (Name.ofWritten written).first = none →
      Spells u (Scope.join space.text written) written

section Resolving

variable {u : SourceFile} {known : String → Bool}

theorem fullName_imported {fullName written : String} (single : separator ∉ written.toList)
    (bound : u.bound? written = some fullName) :
    (Scope.ofFile u).fullName known (Name.ofWritten written) = fullName := by
  rw [Name.ofWritten_unqualified single]
  simp [Scope.fullName, Scope.resolve, Scope.find?_aliases, bound]

theorem fullName_within {space segment : String} (rest : String) (nonempty : segment ≠ "")
    (single : separator ∉ segment.toList) (bound : u.bound? segment = some space) :
    (Scope.ofFile u).fullName known (Name.ofWritten (Scope.join segment rest)) =
      Scope.join space rest := by
  have relative : (Scope.join segment rest).toList.head? ≠ some separator := by
    rw [Name.toList_join]
    cases chars : segment.toList with
    | nil => exact absurd (String.toList_eq_nil_iff.1 chars) nonempty
    | cons c more =>
      rw [chars, List.mem_cons, not_or] at single
      simpa using Ne.symm single.1
  have several : separator ∈ (Scope.join segment rest).toList := by
    rw [Name.toList_join]
    simp
  rw [Name.ofWritten_qualified relative several]
  simp only [Scope.fullName]
  rw [Name.first_join _ single, Scope.find?_aliases, bound]
  simp only [Name.afterFirst_join _ single]
  rw [Scope.join, String.append_assoc]

theorem fullName_own {space : Name} {written : String} (here : u.namespaceName = some space)
    (relative : written.toList.head? ≠ some separator) (unbound : u.bound? written = none)
    (unboundFirst : u.bound? (Name.ofWritten written).first = none)
    (declared : known (Scope.join space.text written)) :
    (Scope.ofFile u).fullName known (Name.ofWritten written) = Scope.join space.text written := by
  have resolved : (Scope.ofFile u).resolve known written = Scope.join space.text written := by
    have ours : (Scope.ofFile u).ownName written = Scope.join space.text written := by
      simp [Scope.ownName, Scope.ofFile, here]
    simp [Scope.resolve, Scope.find?_aliases, unbound, ours, declared]
  by_cases several : separator ∈ written.toList
  · rw [Name.ofWritten_qualified relative several] at unboundFirst ⊢
    simp only [Scope.fullName]
    rw [Scope.find?_aliases, unboundFirst]
    exact resolved
  · rw [Name.ofWritten_unqualified several]
    exact resolved

theorem Spells.fullName {fullName written : String} (h : Spells u fullName written)
    (declared : known fullName) :
    (Scope.ofFile u).fullName known (Name.ofWritten written) = fullName := by
  cases h with
  | absolute =>
    rw [Name.ofWritten_absolute]
    rfl
  | imported single bound => exact fullName_imported single bound
  | within rest nonempty single bound => exact fullName_within rest nonempty single bound
  | own here relative unbound unboundFirst =>
    exact fullName_own here relative unbound unboundFirst declared

end Resolving

namespace Inference

variable (config : Config) (w : Workspace)

theorem contributed?_new (reader : Reader) (owner : Name) (args : List Expr) :
    contributed? config w reader (.new owner args) = do
      return some (.field (← reader.construct w (inferClass config w) owner)
        !args.head?.any config.isConditional) := by
  rw [contributed?_eq, Config.read?]
  rfl

variable {w}

theorem contributed?_spelled {fullName : String} (declared : w.declares fullName) {u : SourceFile}
    {written : String} (spelled : Spells u fullName written)
    (notSelf : Reader.isSelf (Name.ofWritten written) = false) (enclosing : Option String)
    (args : List Expr) (r : Registry) :
    contributed? config w ⟨Scope.ofFile u, enclosing⟩ (.new (Name.ofWritten written) args) r =
      (some (.field ((inferClass config w fullName r).1.elim .scalar fun ref => .reference ref.name)
        !args.head?.any config.isConditional), (inferClass config w fullName r).2) := by
  have name : Reader.className ⟨Scope.ofFile u, enclosing⟩ w (Name.ofWritten written) = fullName := by
    rw [← spelled.fullName declared]
    cases enclosing <;> simp [Reader.className, notSelf]
  rw [contributed?_new, OutlineEntry.bind_run, construct_run, name, if_pos declared]
  rfl

/-- Every spelling of a declared class leads to it, and constructions with the same arguments that
spell it in different ways, in whatever files, contribute the same. -/
theorem spellings_agree {fullName : String} (declared : w.declares fullName) :
    (∀ u written, Spells u fullName written →
      (Scope.ofFile u).fullName w.declares (Name.ofWritten written) = fullName) ∧
    ∀ u v written other, Spells u fullName written → Spells v fullName other →
      Reader.isSelf (Name.ofWritten written) = false →
      Reader.isSelf (Name.ofWritten other) = false →
      ∀ enclosing enclosing' args r,
        contributed? config w ⟨Scope.ofFile u, enclosing⟩ (.new (Name.ofWritten written) args) r =
          contributed? config w ⟨Scope.ofFile v, enclosing'⟩ (.new (Name.ofWritten other) args)
            r := by
  constructor
  · intro u written spelled
    exact spelled.fullName declared
  · intro u v written other spelled spelled' notSelf notSelf' enclosing enclosing' args r
    rw [contributed?_spelled config declared spelled notSelf,
      contributed?_spelled config declared spelled' notSelf']

/-- A file of the namespace of two classes that imports one of them, and the namespace itself. -/
def importing : SourceFile where
  namespaceName := some ⟨"App", .unqualified⟩
  imports := [⟨⟨"App\\Tag", .qualified⟩, some "Account"⟩, ⟨⟨"App", .unqualified⟩, some "Root"⟩,
    ⟨⟨"App\\User", .qualified⟩, some "Account"⟩]
  classes := []

theorem spells_importing :
    Spells importing "App\\User" "\\App\\User" ∧ Spells importing "App\\User" "Account" ∧
      Spells importing "App\\User" "Root\\User" ∧ Spells importing "App\\User" "User" := by
  have rooted : Spells importing (Scope.join "App" "User") (Scope.join "Root" "User") :=
    .within "User" (by decide) (by decide) (by decide)
  have own : Spells importing (Scope.join "App" "User") "User" :=
    .own (show importing.namespaceName = some ⟨"App", .unqualified⟩ from rfl) (by decide)
      (by decide) (by decide)
  exact ⟨.absolute "App\\User", .imported (by decide) (by decide), rooted, own⟩

theorem spellings_agree_importing :
    circle.declares "App\\User" ∧
      (Scope.ofFile importing).fullName circle.declares (Name.ofWritten "Root\\User") =
        "App\\User" ∧
      ∀ args r,
        contributed? .standard circle ⟨Scope.ofFile importing, some "App\\Post"⟩
            (.new (Name.ofWritten "Account") args) r =
          contributed? .standard circle ⟨.ofFile ⟨none, [], []⟩, none⟩
            (.new (Name.ofWritten "\\App\\User") args) r := by
  have declared : circle.declares "App\\User" := by decide
  obtain ⟨-, account, rooted, -⟩ := spells_importing
  obtain ⟨resolve, agree⟩ := spellings_agree .standard declared
  refine ⟨declared, resolve importing _ rooted, ?_⟩
  exact agree importing ⟨none, [], []⟩ _ _ account (.absolute "App\\User") (by decide) (by decide)
    (some "App\\Post") none

end Inference

end ResponseShape

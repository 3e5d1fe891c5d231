import ResponseShape.Command.Arguments
import ResponseShape.Command.Failure
import ResponseShape.Inference.Survey
import ResponseShape.Query.Reader

/-!
Running a command on a file system. A run prints its result, keeps a log of the classes it read,
and may fail; what it logged before a failure still counts.
-/

namespace ResponseShape

structure Report where
  output : String
  log : String
  failure : Option Failure

namespace Report

def silent : Report := ⟨"", "", none⟩

def failed (e : Failure) : Report := ⟨"", "", some e⟩

end Report

section Reading

variable {m : Type → Type} [Monad m] (files : FileSystem m)

def loadConfig : Option String → ExceptT Failure m Config
  | none => return .standard
  | some path => do
    match ← (files.read path : m _) with
    | .error e => throw (.unreadableConfig path e)
    | .ok content =>
      match Config.ofBytes content.toList with
      | .error e => throw (.invalidConfig path e)
      | .ok config => return config

def loadSources (w : Workspace) : List String → ExceptT Failure m Workspace
  | [] => return w
  | path :: rest => do
    match ← (files.readText path : m _) with
    | .error e => throw (.unreadableSource path e)
    | .ok source =>
      match w.addText (some path) source with
      | .error e => throw (.invalidSource path e)
      | .ok w => loadSources w rest

def Sources.load (s : Sources) : ExceptT Failure m (Config × Workspace) := do
  let config ← loadConfig files s.config
  match ← (files.select s.patterns : m _) with
  | .error e => throw (.patterns e)
  | .ok paths => return (config, ← loadSources files .empty paths)

end Reading

namespace Workspace

/-- The classes that a filter names: the class of that full name or else all classes of that short
name. Leading separators do not count. -/
def classesNamed (w : Workspace) (filter : String) : List String :=
  let wanted := String.ofList (filter.toList.dropWhile (· = separator))
  if w.declares wanted then [wanted]
  else w.classNames.filter fun fullName => shortName fullName == wanted

def choose (w : Workspace) : List String → Except Failure (List String)
  | [] => .ok []
  | filter :: rest =>
    match w.classesNamed filter with
    | [] => .error (.unknownClass filter)
    | named => (w.choose rest).map (named ++ ·)

def chooseOne (w : Workspace) (filter : String) : Except Failure String :=
  match w.classesNamed filter with
  | [] => .error (.unknownClass filter)
  | [fullName] => .ok fullName
  | candidates => .error (.ambiguousClass filter candidates)

end Workspace

def Finding.render (f : Finding) : String :=
  if f.hasResponse then
    let place :=
      match f.path with
      | some path => " (" ++ path ++ ")"
      | none => ""
    "✓ " ++ f.name ++ " → " ++ shortName f.name ++ place ++ "\n"
  else "✗ " ++ f.name ++ ": no inferable response\n"

def Document.summary (d : Document) : String :=
  "done: " ++ Nat.repr d.responses.size ++ " responses, " ++ Nat.repr d.components.entries.size
    ++ " schemas\n"

def Shape.describe : Shape → String
  | literal => "string literal"
  | scalar => "scalar"
  | reference name => "ref " ++ name
  | record fields => "object \x7b" ++ ", ".intercalate (fields.filterMap Field.key) ++ "\x7d"

def Field.render (f : Field) : String :=
  "  " ++ f.key.getD "<unkeyed>" ++ ": " ++ f.shape.describe
    ++ (if f.required then " (required)\n" else " (optional)\n")

def sampleText (config : Config) (w : Workspace) (fullName : String) : String :=
  let (result, registry) := (Inference.sample? config w fullName).run .empty
  let model := (w.find? fullName).bind w.model?
  let fields :=
    match result with
    | some r => "".intercalate (r.fields.map Field.render)
    | none => "no array literal returned from " ++ config.method ++ "\n"
  fullName ++ "\nmodel: " ++ model.getD "-" ++ "\n" ++ fields
    ++ "".intercalate (registry.entries.keys.map fun name => "nested schema: " ++ name ++ "\n")

/-- What a query makes of a document: its only answer, or all of them in an array. -/
def applyQuery? (query : Option String) (document : Json) : Option Json :=
  match query with
  | none => some document
  | some filter =>
    (Query.answers? filter document).map fun
      | [answer] => answer
      | answers => .array answers

section Running

variable {m : Type → Type} [Monad m] (files : FileSystem m)

def writeFile (path text : String) : m (Option Failure) := do
  let created ←
    match Path.parent? path with
    | none => pure none
    | some directory => do
      match ← files.createAll directory with
      | .ok () => pure none
      | .error e => pure (some (Failure.uncreatedDirectory directory e))
  if created.isSome then return created
  match ← files.write path text.toUTF8 with
  | .ok () => return none
  | .error e => return some (.unwritten path e)

def emit (d : Document) (query : Option String) (out : Option String) (log : String) :
    m Report := do
  match applyQuery? query d.toJson with
  | none => return ⟨"", log, some .query⟩
  | some j =>
    match out with
    | none => return ⟨j.pretty ++ "\n", log, none⟩
    | some path => return ⟨"", log, ← writeFile files path j.pretty⟩

def runSchema (sources : Sources) (filters : List String) (query out : Option String) :
    m Report := do
  match ← (sources.load files).run with
  | .error e => return .failed e
  | .ok (config, w) =>
    let chosen :=
      if filters.isEmpty then .ok ((w.classesWith config.method).map ResourceClass.name)
      else w.choose filters
    match chosen with
    | .error e => return .failed e
    | .ok classes =>
      let (findings, d) := Document.survey config w classes .empty
      emit files d query out ("".intercalate (findings.map Finding.render) ++ d.summary)

def runSample (sources : Sources) (filter : String) : m Report := do
  match ← (sources.load files).run with
  | .error e => return .failed e
  | .ok (config, w) =>
    match w.chooseOne filter with
    | .error e => return .failed e
    | .ok fullName => return ⟨sampleText config w fullName, "", none⟩

def Command.run : Command → m Report
  | .schema _ _ _ _ true => return .silent
  | .schema sources filters query out false => runSchema files sources filters query out
  | .sample sources filter => runSample files sources filter

end Running

end ResponseShape

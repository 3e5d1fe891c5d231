/-!
The words of a command line. Options come in any order behind the command; an option that takes
many values takes every word up to the next option.
-/

namespace ResponseShape

structure Sources where
  patterns : List String
  config : Option String
  deriving DecidableEq, Repr

inductive Command where
  /-- The document of the classes that the filters name, or of all classes. -/
  | schema (sources : Sources) (classes : List String) (query : Option String)
      (out : Option String) (inert : Bool)
  | sample (sources : Sources) (filter : String)
  deriving DecidableEq, Repr

/-- Why words are no command, or what they ask for instead of one. -/
inductive UsageError where
  | helpAsked
  | versionAsked
  | nothingGiven
  | missingCommand
  | unknownCommand
  | unknownArgument
  | missingArgument
  | missingValue
  | surplusValue
  | repeatedOption
  deriving DecidableEq, Repr

namespace CommandLine

/-- What an option does with the words behind it. -/
inductive Effect where
  | help
  | version
  | count
  | flag
  /-- Takes one value and can be given once; whether the value may be empty. -/
  | value (mayBeEmpty : Bool)
  /-- Takes one value each time it is given. -/
  | values
  /-- Takes at least one value each time it is given. -/
  | words
  deriving DecidableEq, Repr

namespace Effect

def takesValue : Effect → Bool
  | value _ | values | words => true
  | help | version | count | flag => false

def isSingle : Effect → Bool
  | value _ | flag => true
  | _ => false

end Effect

structure Setting where
  name : String
  letter : Option Char
  effect : Effect
  deriving DecidableEq, Repr

def common : List Setting :=
  [⟨"help", some 'h', .help⟩, ⟨"verbose", some 'v', .count⟩]

def sourceSettings : List Setting :=
  [⟨"input", some 'i', .words⟩, ⟨"config", none, .value false⟩]

def schemaSettings : List Setting :=
  common ++ sourceSettings ++
    [⟨"class", none, .values⟩, ⟨"jq-expr", none, .value true⟩, ⟨"out", some 'o', .value false⟩,
      ⟨"no-op", none, .flag⟩]

def sampleSettings : List Setting :=
  common ++ sourceSettings ++ [⟨"class", none, .value true⟩]

def generalSettings : List Setting := common ++ [⟨"version", some 'V', .version⟩]

/-- The options read so far. The last one with a value waits for the next option, as more words may
belong to it. -/
structure Progress where
  given : List (String × List String)
  waiting : Option (Setting × List String)
  /-- Whether the next word belongs to the waiting option. -/
  isOpen : Bool

namespace Progress

def start : Progress := ⟨[], none, false⟩

def has (p : Progress) (name : String) : Bool := p.given.any fun g => g.1 == name

def valuesOf (p : Progress) (name : String) : List String :=
  (p.given.filter fun g => g.1 == name).flatMap Prod.snd

def enter (p : Progress) (s : Setting) (values : List String) : Except UsageError Progress :=
  if s.effect.takesValue && values.isEmpty then .error .missingValue
  else if s.effect.isSingle && p.has s.name then .error .repeatedOption
  else if s.effect == .value false && values.any String.isEmpty then .error .missingValue
  else .ok { p with given := p.given ++ [(s.name, values)] }

def settle (p : Progress) : Except UsageError Progress :=
  match p.waiting with
  | none => .ok p
  | some (s, values) => enter { p with waiting := none, isOpen := false } s values

def mark (p : Progress) (s : Setting) : Except UsageError Progress := do
  let p ← p.settle
  match s.effect with
  | .help => .error .helpAsked
  | .version => .error .versionAsked
  | _ => p.enter s []

def take (p : Progress) (s : Setting) (attached : Option String) : Except UsageError Progress := do
  let p ← p.settle
  match attached with
  | some value => p.enter s [value]
  | none => return { p with waiting := some (s, []), isOpen := true }

def long (settings : List Setting) (p : Progress) (name : List Char) (attached : Option String) :
    Except UsageError Progress :=
  match settings.find? fun s => s.name.toList == name with
  | none => .error .unknownArgument
  | some s =>
    if s.effect.takesValue then p.take s attached
    else if attached.isSome then .error .surplusValue
    else p.mark s

/-- Reads options by their letters. What stands behind one that takes a value is that value. -/
def letters (settings : List Setting) (p : Progress) : List Char → Except UsageError Progress
  | [] => .ok p
  | c :: rest =>
    match settings.find? fun s => s.letter == some c with
    | none => .error .unknownArgument
    | some s =>
      if s.effect.takesValue then
        p.take s <|
          match rest with
          | [] => none
          | '=' :: value => some (String.ofList value)
          | value => some (String.ofList value)
      else do letters settings (← p.mark s) rest

def addWord (p : Progress) (word : String) : Option Progress :=
  match p.isOpen, p.waiting with
  | true, some (s, values) =>
    some { p with waiting := some (s, values ++ [word]), isOpen := s.effect == .words }
  | _, _ => none

end Progress

inductive Form where
  /-- The mark behind which no options come. -/
  | divider
  | long (name : List Char) (attached : Option String)
  | letters (cs : List Char)
  | plain

def formOf (word : String) : Form :=
  match word.toList with
  | ['-', '-'] => .divider
  | '-' :: '-' :: rest =>
    let name := rest.takeWhile (· ≠ '=')
    .long name <|
      match rest.drop name.length with
      | [] => none
      | _ :: value => some (String.ofList value)
  | '-' :: c :: rest => .letters (c :: rest)
  | _ => .plain

def readOptions (settings : List Setting) (p : Progress) :
    List String → Except UsageError Progress
  | [] => p.settle
  | word :: rest =>
    match formOf word with
    | .divider => if rest.isEmpty then p.settle else .error .unknownArgument
    | .long name attached => do readOptions settings (← p.long settings name attached) rest
    | .letters cs => do readOptions settings (← p.letters settings cs) rest
    | .plain =>
      match p.addWord word with
      | none => .error .unknownArgument
      | some p => readOptions settings p rest

def sourcesOf (p : Progress) : Except UsageError Sources :=
  if p.has "input" then .ok ⟨p.valuesOf "input", (p.valuesOf "config").head?⟩
  else .error .missingArgument

def readSchema (words : List String) : Except UsageError Command := do
  let p ← readOptions schemaSettings .start words
  return .schema (← sourcesOf p) (p.valuesOf "class") (p.valuesOf "jq-expr").head?
    (p.valuesOf "out").head? (p.has "no-op")

def readSample (words : List String) : Except UsageError Command := do
  let p ← readOptions sampleSettings .start words
  let sources ← sourcesOf p
  match (p.valuesOf "class").head? with
  | some filter => return .sample sources filter
  | none => .error .missingArgument

def commandNames : List String := ["schema", "sample", "help"]

def help : List String → UsageError
  | [] => .helpAsked
  | [name] => if commandNames.contains name then .helpAsked else .unknownCommand
  | _ => .unknownCommand

def read (p : Progress) : List String → Except UsageError Command
  | [] => .error (if p.given.isEmpty then .nothingGiven else .missingCommand)
  | "schema" :: rest => readSchema rest
  | "sample" :: rest => readSample rest
  | "help" :: rest => .error (help rest)
  | word :: rest =>
    match formOf word with
    | .divider =>
      match rest with
      | [] => read p []
      | next :: _ =>
        .error (if commandNames.contains next then .unknownArgument else .unknownCommand)
    | .long name attached => do read (← p.long generalSettings name attached) rest
    | .letters cs => do read (← p.letters generalSettings cs) rest
    | .plain => .error .unknownCommand

end CommandLine

def Command.ofWords (words : List String) : Except UsageError Command :=
  CommandLine.read .start words

end ResponseShape

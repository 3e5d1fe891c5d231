import ResponseShape.Proofs.Members
import ResponseShape.Proofs.PrintedExpressions
import ResponseShape.Source.Scope

/-! The forms of imports: names one by one, lists with commas, and groups behind the beginning that
their names share. Each form is read to the names in it. Main statement:
`ImportDeclaration.reads_tokens`. -/
namespace ResponseShape

open ResponseShape.Parser ResponseShape.Grammar

/-- A keyword in some letter case. -/
def Token.spelled (k : Keyword) (word : String) : Token := ⟨.keyword k, word, Position.start⟩

structure ImportAlias where
  /-- `as`, as it is spelled. -/
  word : String
  name : String

/-- A name as it is written in an import, maybe with another one that it is bound to. -/
structure ImportedName where
  written : String
  alias? : Option ImportAlias

namespace ImportedName

def toImport (n : ImportedName) : Import :=
  ⟨Name.ofWritten n.written, n.alias?.map ImportAlias.name⟩

def aliasTokens (n : ImportedName) : List Token :=
  match n.alias? with
  | none => []
  | some a => [.spelled .kwAs a.word, .word a.name]

def tokens (n : ImportedName) : List Token := .word n.written :: n.aliasTokens

/-- The name that a member of a group stands for. -/
def within (space : String) (n : ImportedName) : ImportedName :=
  { n with written := Scope.join space n.written }

end ImportedName

inductive ImportPart where
  | single (name : ImportedName)
  /-- Members behind `space` and a separator. A comma may follow the last of them. -/
  | group (space : String) (members : List ImportedName) (trailingComma : Bool)

namespace ImportPart

/-- The lexeme before the brace of a group, where the lexer leaves the separator. -/
def opening (space : String) : String := space ++ String.singleton separator

/-- Without a member there is no comma behind the last one. -/
def trailsComma (members : List ImportedName) (trailingComma : Bool) : Bool :=
  !members.isEmpty && trailingComma

def memberTokens (members : List ImportedName) (trailingComma : Bool) : List Token :=
  Token.separated (members.map ImportedName.tokens) ++
    if trailsComma members trailingComma then [.symbol .comma] else []

def tokens : ImportPart → List Token
  | single name => name.tokens
  | group space members trailingComma =>
    .word (opening space) :: Token.braced (memberTokens members trailingComma)

def names : ImportPart → List ImportedName
  | single name => [name]
  | group space members _ => members.map (·.within space)

end ImportPart

/-- Imports of functions and of constants are marked by a keyword. -/
inductive ImportKind where
  | classes
  | functions (word : String)
  | constants (word : String)

def ImportKind.tokens : ImportKind → List Token
  | classes => []
  | functions word => [.spelled .kwFunction word]
  | constants word => [.spelled .kwConst word]

structure ImportDeclaration where
  /-- `use`, as it is spelled. -/
  word : String
  kind : ImportKind
  first : ImportPart
  more : List ImportPart

namespace ImportDeclaration

def parts (d : ImportDeclaration) : List ImportPart := d.first :: d.more

def tokens (d : ImportDeclaration) : List Token :=
  .spelled .kwUse d.word :: (d.kind.tokens ++ (Token.separated (d.parts.map ImportPart.tokens) ++
    [.symbol .semicolon]))

def names (d : ImportDeclaration) : List ImportedName := d.parts.flatMap ImportPart.names

/-- Functions and constants are no imports of classes. -/
def imports (d : ImportDeclaration) : List Import :=
  match d.kind with
  | .classes => d.names.map ImportedName.toImport
  | .functions _ | .constants _ => []

def ungrouped (d : ImportDeclaration) : List ImportDeclaration :=
  d.names.map fun n => ⟨d.word, d.kind, .single n, []⟩

theorem imports_ungrouped (d : ImportDeclaration) : d.ungrouped.flatMap imports = d.imports := by
  obtain ⟨word, kind, first, more⟩ := d
  cases kind with
  | classes =>
    rw [ungrouped, List.flatMap_map]
    exact List.map_eq_flatMap.symm
  | functions _ | constants _ => simp [ungrouped, imports]

end ImportDeclaration

variable {ts rest : List Token} {imports : List Import}

namespace ImportedName

theorem reads_alias (n : ImportedName) (ended : firstKind rest ≠ some (.keyword .kwAs)) :
    Reads importAlias (n.aliasTokens ++ rest) n.toImport.alias? rest := by
  obtain ⟨written, other⟩ := n
  cases other with
  | none => exact .ifRefused ended .pure
  | some a => exact .ifAccepted rfl (Reads.identifier.bind .pure)

theorem aliasTokens_ne_brace (n : ImportedName)
    (ended : firstKind rest ≠ some (.symbol .leftBrace)) :
    firstKind (n.aliasTokens ++ rest) ≠ some (.symbol .leftBrace) := by
  unfold aliasTokens
  split
  · exact ended
  · exact firstKind_cons_ne rfl

theorem nested_tokens {bare : TokenKind → Prop} (word : bare .identifier)
    (behind : bare (.keyword .kwAs)) (n : ImportedName) : NestedWith bare n.tokens := by
  refine .plain rfl word ?_
  unfold aliasTokens
  split
  · exact .nil
  · exact .plain rfl behind (.plain rfl word .nil)

end ImportedName

namespace ImportPart

theorem getLast?_opening (space : String) :
    (opening space).toList.getLast? = some separator := by
  simp [opening]

theorem reads_member (space : String) (n : ImportedName)
    (ended : firstKind rest ≠ some (.keyword .kwAs)) {r : List Import ⊕ List Import}
    (next : Reads (commaOrEnd (imports ++ [(n.within space).toImport])) rest r ts) :
    Reads (groupRound (opening space) imports) (n.tokens ++ rest) r ts := by
  refine .ifUnseen (firstKind_cons_ne rfl) (Reads.identifier.bind ?_)
  exact (n.reads_alias ended).bind next

theorem reads_groupElement (space : String) (n : ImportedName) :
    ReadsElement (groupRound (opening space)) .rightBrace n.tokens (n.within space).toImport where
  more _ _ := reads_member space n (firstKind_cons_ne rfl) (.ifAccepted rfl .pure)
  last _ _ := reads_member space n (firstKind_cons_ne rfl)
    (.ifRefused (firstKind_cons_ne rfl) .pure)

theorem separated_trailing {tokens : ι → List Token} (x : ι) (elements : List ι) :
    Token.separated ((x :: elements).map tokens) ++ [.symbol .comma] =
      (x :: elements).flatMap fun x => tokens x ++ [.symbol .comma] := by
  induction elements generalizing x with
  | nil => simp [Token.separated]
  | cons y later ih =>
    rw [List.flatMap_cons, ← ih y]
    simp [Token.separated]

theorem reads_trailing (space : String) (members : List ImportedName) :
    Reads (iterate (groupRound (opening space)) imports)
      (members.flatMap (fun n => n.tokens ++ [.symbol .comma]) ++ .symbol .rightBrace :: rest)
      (imports ++ members.map fun n => (n.within space).toImport)
      (.symbol .rightBrace :: rest) := by
  refine .rounds (fun l => l) (fun n => (n.within space).toImport)
    (fun n _ before later next => ?_) imports (.done (.ifSeen rfl .pure))
  rw [List.append_assoc]
  refine .again ((reads_groupElement space n).more before _) ?_ next
  simp
  omega

theorem reads_group (space : String) (members : List ImportedName) (trailingComma : Bool) :
    Reads (iterate (groupRound (opening space)) imports)
      (memberTokens members trailingComma ++ .symbol .rightBrace :: rest)
      (imports ++ members.map fun n => (n.within space).toImport)
      (.symbol .rightBrace :: rest) := by
  unfold memberTokens
  cases trails : trailsComma members trailingComma with
  | false =>
    rw [if_neg Bool.false_ne_true, List.append_nil]
    exact reads_separated (fun _ _ => .ifSeen rfl .pure) (fun n _ => reads_groupElement space n)
      imports
  | true =>
    obtain ⟨n, later, rfl⟩ := List.exists_cons_of_ne_nil (l := members) fun empty => by
      rw [empty] at trails
      cases trails
    rw [if_pos rfl, separated_trailing]
    exact reads_trailing space _

theorem reads_part (part : ImportPart) (noAlias : firstKind rest ≠ some (.keyword .kwAs))
    (noBrace : firstKind rest ≠ some (.symbol .leftBrace)) {r : List Import ⊕ List Import}
    (next : Reads (commaOrEnd (imports ++ part.names.map ImportedName.toImport)) rest r ts) :
    Reads (importRound imports) (part.tokens ++ rest) r ts := by
  cases part with
  | single n =>
    rw [tokens, ImportedName.tokens, List.cons_append]
    refine Reads.identifier.bind (Reads.sees.bind ?_)
    rw [beq_false_of_ne (n.aliasTokens_ne_brace noBrace),
      if_neg (fun grouped => nomatch grouped.2)]
    exact (n.reads_alias noAlias).bind (Reads.pure.bind next)
  | group space members trailingComma =>
    rw [tokens, List.cons_append, Token.braced_append]
    refine Reads.identifier.bind (Reads.sees.bind ?_)
    rw [if_pos ⟨getLast?_opening space, rfl⟩]
    refine .advance ((reads_group space members trailingComma).bind (Reads.expect.bind ?_))
    rw [names, List.map_map] at next
    exact Reads.pure.bind next

theorem tokens_length_pos (part : ImportPart) : 0 < part.tokens.length := by
  cases part <;> exact Nat.succ_pos _

theorem firstKind_parts (first : ImportPart) (more : List ImportPart) (rest : List Token) :
    firstKind (Token.separated ((first :: more).map tokens) ++ rest) = some .identifier := by
  cases more <;> cases first <;> rfl

theorem reads_parts (first : ImportPart) (more : List ImportPart) :
    Reads (iterate importRound imports)
      (Token.separated ((first :: more).map tokens) ++ .symbol .semicolon :: rest)
      (imports ++ ((first :: more).flatMap names).map ImportedName.toImport)
      (.symbol .semicolon :: rest) := by
  induction more generalizing first imports with
  | nil =>
    rw [List.flatMap_singleton]
    exact .done (reads_part first (firstKind_cons_ne rfl) (firstKind_cons_ne rfl)
      (.ifRefused (firstKind_cons_ne rfl) .pure))
  | cons second later ih =>
    rw [List.flatMap_cons, List.map_append, ← List.append_assoc, List.map_cons, List.map_cons,
      Token.separated, List.append_assoc, List.cons_append]
    refine .again (reads_part first (firstKind_cons_ne rfl) (firstKind_cons_ne rfl)
      (.ifAccepted rfl .pure)) ?_ (ih second)
    have := first.tokens_length_pos
    simp only [List.length_append, List.length_cons]
    omega

end ImportPart

theorem nested_separated {bare : TokenKind → Prop} (comma : bare (.symbol .comma))
    {elements : List (List Token)} (each : ∀ ts ∈ elements, NestedWith bare ts) :
    NestedWith bare (Token.separated elements) := by
  fun_induction Token.separated elements with
  | case1 => exact .nil
  | case2 ts => exact each ts List.mem_cons_self
  | case3 ts more rest ih =>
    exact (each ts List.mem_cons_self).append
      (.plain rfl comma (ih fun us mem => each us (List.mem_cons_of_mem _ mem)))

namespace ImportPart

theorem nested_tokens (part : ImportPart) : NestedWith (· ≠ .symbol .semicolon) part.tokens := by
  cases part with
  | single n => exact n.nested_tokens nofun nofun
  | group space members trailingComma =>
    have inner : WellNested (memberTokens members trailingComma) := by
      refine (nested_separated trivial fun ts mem => ?_).append ?_
      · obtain ⟨n, -, rfl⟩ := List.mem_map.1 mem
        exact n.nested_tokens trivial trivial
      · split
        · exact .plain rfl trivial .nil
        · exact .nil
    exact .plain rfl nofun (.group rfl inner rfl .nil)

end ImportPart

namespace ImportDeclaration

theorem reads_tokens (d : ImportDeclaration) (rest : List Token) :
    Reads importDecl (d.tokens ++ rest) d.imports rest := by
  obtain ⟨word, kind, first, more⟩ := d
  have nested : NestedWith (· ≠ .symbol .semicolon)
      (Token.separated ((first :: more).map ImportPart.tokens)) := by
    refine nested_separated nofun fun ts mem => ?_
    obtain ⟨part, -, rfl⟩ := List.mem_map.1 mem
    exact part.nested_tokens
  have text : (ImportDeclaration.mk word kind first more).tokens ++ rest =
      .spelled .kwUse word :: (kind.tokens ++
        (Token.separated ((first :: more).map ImportPart.tokens) ++ .symbol .semicolon :: rest)) := by
    simp [tokens, parts]
  rw [text]
  cases kind with
  | classes =>
    have name := ImportPart.firstKind_parts first more (.symbol .semicolon :: rest)
    refine .advance (Reads.sees.bind (Reads.sees.bind ?_))
    rw [ImportKind.tokens, List.nil_append, name]
    exact (ImportPart.reads_parts first more).bind (Reads.expect.bind .pure)
  | functions mark =>
    refine .advance (Reads.sees.bind (Reads.sees.bind ?_))
    have skipped := NestedWith.plain (t := .spelled .kwFunction mark) rfl nofun nested
    exact (reads_passSemicolon skipped rfl).bind .pure
  | constants mark =>
    refine .advance (Reads.sees.bind (Reads.sees.bind ?_))
    have skipped := NestedWith.plain (t := .spelled .kwConst mark) rfl nofun nested
    exact (reads_passSemicolon skipped rfl).bind .pure

end ImportDeclaration

end ResponseShape

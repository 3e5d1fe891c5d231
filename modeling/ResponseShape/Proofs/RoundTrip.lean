import ResponseShape.Proofs.Declarations
import ResponseShape.Proofs.PrintedStatements

/-! Whatever a source file is read as, its printed form is read as the same up to calls of the bare
word `array`. Main statement: `SourceFile.IsWritten.reads`. -/
namespace ResponseShape

open ResponseShape.Parser ResponseShape.Grammar

variable {ts us rest : List Token}

theorem member_ne_symbol (name : String) (s : Symbol) :
    firstKind (.member name :: ts) ≠ some (.symbol s) := by
  intro same
  have kind := Option.some.inj same
  unfold Token.member at kind
  split at kind
  · cases kind
  · split at kind <;> cases kind

theorem reads_method {m : Method} (written : m.IsWritten) :
    Reads method (m.tokens ++ rest) m.reread rest := by
  obtain ⟨name, params, body⟩ := m
  rw [Method.tokens, List.append_assoc, List.cons_append, List.cons_append]
  refine .advance (.bind (.refuse (member_ne_symbol name _)) ((Reads.memberName name).bind ?_))
  refine (reads_parameters params).bind (.bind (reads_noReturnType ?_) ?_)
  · cases body <;> exact firstKind_cons_ne rfl
  · cases body with
    | none => exact .ifAccepted rfl .pure
    | some body =>
      have back := bodyReadsBack (readsBack_body body (written body rfl))
      exact .ifRefused (firstKind_cons_ne rfl) ((back rest).bind .pure)

theorem reads_members {methods : List Method} (written : ∀ m ∈ methods, m.IsWritten)
    (before : List Method) :
    Reads (iterate memberRound before)
      (methods.flatMap Method.tokens ++ .symbol .rightBrace :: rest)
      (before ++ methods.map Method.reread) rest := by
  refine .rounds (fun l => l) Method.reread (fun m mem before later next => ?_) before
    (.done (.kind rfl (.advance .pure)))
  refine .again (.kind rfl ((reads_method (written m mem)).bind .pure)) ?_ next
  simp [Method.tokens]
  omega

def moreNames (names : List Name) : List Token :=
  names.flatMap fun n => [.symbol .comma, .word n.written]

theorem separated_names (n : Name) (names : List Name) :
    Token.separated ((n :: names).map fun n => [.word n.written]) =
      .word n.written :: moreNames names := by
  induction names generalizing n with
  | nil => rfl
  | cons more later ih =>
    exact congrArg (fun ts => .word n.written :: .symbol .comma :: ts) (ih more)

theorem reads_interfaceName {n : Name} (written : n.IsWritten) :
    Reads interfaceName (.word n.written :: ts) n ts := by
  have read : Reads interfaceName (.word n.written :: ts) (Name.ofWritten n.written) ts :=
    Reads.identifier.bind .pure
  rwa [written] at read

theorem reads_moreInterfaces {names : List Name} (written : ∀ n ∈ names, n.IsWritten)
    (ended : firstKind rest ≠ some (.symbol .comma)) (before : List Name) :
    Reads (iterate moreInterfacesRound before) (moreNames names ++ rest) (before ++ names)
      rest := by
  refine .rounds (fun l => l) (fun n => n) (fun n mem before later next => ?_) before ?_
  · exact .again (.ifAccepted rfl ((reads_interfaceName (written n mem)).bind .pure))
      (Nat.lt_add_of_pos_right Nat.two_pos) next
  · rw [List.map_id']
    exact .done (.ifRefused ended .pure)

theorem reads_parents {c : ClassDecl} (written : ∀ n, c.parent = some n → n.IsWritten)
    (noExtends : firstKind us ≠ some (.keyword .kwExtends))
    (noComma : firstKind us ≠ some (.symbol .comma)) :
    Reads parents (c.parentTokens ++ us) (c.parent, []) us := by
  unfold ClassDecl.parentTokens
  cases parent : c.parent with
  | none => exact .ifRefused noExtends .pure
  | some n =>
    refine .ifAccepted rfl (Reads.identifier.bind ?_)
    rw [written n parent]
    exact (reads_moreInterfaces (List.forall_mem_nil _) noComma []).bind .pure

theorem reads_interfaces {c : ClassDecl} (written : ∀ n ∈ c.interfaces, n.IsWritten) :
    Reads (interfaces []) (c.interfaceTokens ++ .symbol .leftBrace :: rest) c.interfaces
      (.symbol .leftBrace :: rest) := by
  unfold ClassDecl.interfaceTokens
  cases names : c.interfaces with
  | nil => exact .ifRefused (firstKind_cons_ne rfl) .pure
  | cons n later =>
    rw [names] at written
    dsimp only
    rw [separated_names, List.cons_append, List.cons_append]
    refine .ifAccepted rfl ((reads_interfaceName (written n List.mem_cons_self)).bind ?_)
    refine reads_moreInterfaces (fun n mem => written n (List.mem_cons_of_mem _ mem)) ?_ [n]
    exact firstKind_cons_ne rfl

theorem interfaceTokens_ne (c : ClassDecl) (rest : List Token) {k : TokenKind}
    (noImplements : k ≠ .keyword .kwImplements) (noBrace : k ≠ .symbol .leftBrace) :
    firstKind (c.interfaceTokens ++ .symbol .leftBrace :: rest) ≠ some k := by
  unfold ClassDecl.interfaceTokens
  split
  · exact fun same => noBrace (Option.some.inj same).symm
  · exact fun same => noImplements (Option.some.inj same).symm

theorem reads_class {c : ClassDecl} (written : c.IsWritten) (rest : List Token) :
    Reads (classDecl c.docComment)
      (.keyword .kwClass :: .word c.name :: c.parentTokens ++ c.interfaceTokens ++
        Token.braced (c.methods.flatMap Method.tokens) ++ rest)
      c.reread rest := by
  rw [List.append_assoc, List.append_assoc, Token.braced_append, List.cons_append,
    List.cons_append]
  refine Reads.bind (.done (.kind rfl .pure)) (.kind rfl (.advance (Reads.identifier.bind ?_)))
  have parents := reads_parents written.parent
    (interfaceTokens_ne c (c.methods.flatMap Method.tokens ++ .symbol .rightBrace :: rest) nofun
      nofun)
    (interfaceTokens_ne c _ nofun nofun)
  refine parents.bind ((reads_interfaces written.interfaces).bind ?_)
  exact Reads.expect.bind ((reads_members written.methods []).bind .pure)

theorem reads_namespace {p : Progress} {n : Name} (written : n.IsWritten) :
    Reads (fileRound p)
      (.keyword .kwNamespace :: .word n.written :: .symbol .semicolon :: rest)
      (.inl ⟨{ p.found with namespaceName := some n }, none, false⟩) rest := by
  have declared : Reads namespaceDecl
      (.keyword .kwNamespace :: .word n.written :: .symbol .semicolon :: rest)
      (some (Name.ofWritten n.written), false) rest :=
    .advance (.next (.advance (Reads.pure.bind (.ifRefused (firstKind_cons_ne rfl)
      (Reads.expect.bind .pure)))))
  rw [written] at declared
  exact .kind rfl (Reads.bind (declared.bind .pure) .pure)

theorem reads_importAlias (i : Import) :
    Reads importAlias (i.aliasTokens ++ .symbol .semicolon :: rest) i.alias?
      (.symbol .semicolon :: rest) := by
  unfold Import.aliasTokens
  cases i.alias? with
  | none => exact .ifRefused (firstKind_cons_ne rfl) .pure
  | some name => exact .ifAccepted rfl (Reads.identifier.bind .pure)

theorem aliasTokens_ne (i : Import) :
    firstKind (i.aliasTokens ++ .symbol .semicolon :: rest) ≠ some (.symbol .leftBrace) := by
  unfold Import.aliasTokens
  split <;> exact firstKind_cons_ne rfl

theorem reads_importRound {i : Import} (written : i.name.IsWritten) :
    Reads (importRound []) (.word i.name.written :: (i.aliasTokens ++ .symbol .semicolon :: rest))
      (.inr [i]) (.symbol .semicolon :: rest) := by
  refine Reads.identifier.bind (Reads.sees.bind ?_)
  rw [beq_false_of_ne (aliasTokens_ne i), if_neg (fun grouped => nomatch grouped.2), written]
  exact (reads_importAlias i).bind (Reads.pure.bind (.ifRefused (firstKind_cons_ne rfl) .pure))

theorem reads_import {i : Import} (written : i.name.IsWritten) (rest : List Token) :
    Reads importDecl (i.tokens ++ rest) [i] rest := by
  rw [Import.tokens, List.append_assoc, List.cons_append, List.cons_append]
  refine .advance (Reads.sees.bind (Reads.sees.bind ?_))
  exact Reads.bind (Reads.done (reads_importRound written)) (Reads.expect.bind .pure)

theorem reads_imports {imports : List Import} (written : ∀ i ∈ imports, i.name.IsWritten)
    (found : SourceFile) {f : SourceFile}
    (later : Reads (iterate fileRound ⟨{ found with imports := found.imports ++ imports }, none,
      false⟩) ts f rest) :
    Reads (iterate fileRound ⟨found, none, false⟩) (imports.flatMap Import.tokens ++ ts) f
      rest := by
  refine Reads.rounds (fun l => Progress.mk { found with imports := l } none false) (fun i => i)
    (fun i mem before more next => ?_) found.imports ?_
  · have read := reads_import (written i mem) (more.flatMap Import.tokens ++ ts)
    refine .again (.kind rfl (.bind (read.bind .pure) .pure)) ?_ next
    simp [Import.tokens]
    omega
  · rwa [List.map_id']

theorem reads_docClass {c : ClassDecl} (written : c.IsWritten) {found f : SourceFile}
    (later : Reads (iterate fileRound ⟨{ found with classes := found.classes ++ [c.reread] }, none,
      false⟩) ts f rest) :
    Reads (iterate fileRound ⟨found, none, false⟩) (c.tokens ++ ts) f rest := by
  have read := reads_class written ts
  unfold ClassDecl.tokens ClassDecl.docTokens
  cases doc : c.docComment with
  | none =>
    rw [doc] at read
    refine .again (.kind rfl (.bind (read.bind .pure) .pure)) ?_ later
    simp [Token.braced]
    omega
  | some text =>
    rw [doc] at read
    refine .again (.kind rfl (.advance .pure)) ?_
      (.again (.kind rfl (.bind (read.bind .pure) .pure)) ?_ later)
    · simp
    · simp [Token.braced]
      omega

theorem reads_classes {classes : List ClassDecl} (written : ∀ c ∈ classes, c.IsWritten)
    (found : SourceFile) :
    Reads (iterate fileRound ⟨found, none, false⟩) (classes.flatMap ClassDecl.tokens)
      { found with classes := found.classes ++ classes.map ClassDecl.reread } [] := by
  rw [← List.append_nil (classes.flatMap _)]
  exact Reads.rounds (fun l => Progress.mk { found with classes := l } none false) ClassDecl.reread
    (fun c mem before more next => reads_docClass (written c mem) next) found.classes
    (.done fun _ => rfl)

/-- The printed form of a file whose names are as they are written is read as its reread form. -/
theorem SourceFile.IsWritten.reads {f : SourceFile} (written : f.IsWritten) :
    Reads sourceFile f.tokens f.reread [] := by
  obtain ⟨namespaceName, imports, classes⟩ := f
  have classes' := reads_classes written.classes ⟨namespaceName, imports, []⟩
  have imports' := reads_imports written.imports ⟨namespaceName, [], []⟩ classes'
  unfold SourceFile.tokens SourceFile.namespaceTokens
  rw [List.append_assoc]
  cases namespaceName with
  | none => exact imports'
  | some n => exact .again (reads_namespace (written.namespaceName n rfl)) (by simp; omega) imports'

/-- A file that was read from a text is printed and read again as it is, but for calls of the bare
word `array`, which come back as arrays. -/
theorem SourceFile.sourceFile_tokens_of_ofText {source : String} {f : SourceFile}
    (read : SourceFile.ofText source = .ok f) (stop : Position) :
    sourceFile ⟨f.tokens, stop⟩ = .ok (f.reread, ⟨[], stop⟩) ∧
      (sourceFile ⟨f.tokens, stop⟩ = .ok (f, ⟨[], stop⟩) ↔ f.All Expr.CallsNoArray) := by
  have printed := (isWritten_of_ofText read).reads stop
  refine ⟨printed, ?_⟩
  rw [printed, ← f.reread_eq_iff]
  constructor
  · intro same
    injection same with same
    exact congrArg Prod.fst same
  · intro same
    rw [same]

def SourceFile.ofExpr (e : Expr) : SourceFile :=
  ⟨none, [], [⟨"R", none, none, [], [⟨"f", [], some [.expr e]⟩]⟩]⟩

/-- A call of the word `array`: behind `@` the word is no cast. -/
def arrayCall : Expr := .call (.constant ⟨"array", .unqualified⟩) [.var "x"]

def arrayCallSource : String :=
  "<?php class R \x7b function f() \x7b (@array)($x); \x7d \x7d"

theorem SourceFile.ofText_arrayCall :
    SourceFile.ofText arrayCallSource = .ok (.ofExpr arrayCall) := by
  with_unfolding_all rfl

theorem SourceFile.sourceFile_tokens_of_ofText_arrayCall :
    SourceFile.ofText arrayCallSource = .ok (.ofExpr arrayCall) ∧
      sourceFile ⟨(SourceFile.ofExpr arrayCall).tokens, Position.start⟩ =
        .ok ((SourceFile.ofExpr arrayCall).reread, ⟨[], Position.start⟩) :=
  ⟨ofText_arrayCall, (sourceFile_tokens_of_ofText ofText_arrayCall Position.start).1⟩

theorem SourceFile.arrayCall_not_read_back :
    SourceFile.ofText arrayCallSource = .ok (.ofExpr arrayCall) ∧
      sourceFile ⟨(SourceFile.ofExpr arrayCall).tokens, Position.start⟩ =
        .ok (.ofExpr (.array [.mk none (.var "x") false]), ⟨[], Position.start⟩) ∧
      SourceFile.ofExpr (.array [.mk none (.var "x") false]) ≠ .ofExpr arrayCall :=
  ⟨ofText_arrayCall, (isWritten_of_ofText ofText_arrayCall).reads Position.start, nofun⟩

end ResponseShape

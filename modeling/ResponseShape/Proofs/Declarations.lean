import ResponseShape.Grammar.Declaration
import ResponseShape.Proofs.Phrases

/-! Declarations are read in the same way as phrases: each reads at least one token, none stalls,
and what they answer with can be written. Main statement: `SourceFile.isWritten_of_ofText`. -/
namespace ResponseShape

def Method.IsWritten (m : Method) : Prop :=
  ∀ body, m.body = some body → allOfBody Expr.IsWritten body

structure ClassDecl.IsWritten (c : ClassDecl) : Prop where
  parent : ∀ n, c.parent = some n → n.IsWritten
  interfaces : ∀ n ∈ c.interfaces, n.IsWritten
  methods : ∀ m ∈ c.methods, m.IsWritten

structure SourceFile.IsWritten (f : SourceFile) : Prop where
  namespaceName : ∀ n, f.namespaceName = some n → n.IsWritten
  imports : ∀ i ∈ f.imports, i.name.IsWritten
  classes : ∀ c ∈ f.classes, c.IsWritten

namespace Grammar

open ResponseShape.Parser

variable {s : TokenStream}

theorem method_same : SameAt s (Fewer s.left Method.IsWritten) method method := by
  refine SameAt.pass.bind fun _ s₁ h₁ => (SameAt.mark _).bind fun _ s₂ h₂ => ?_
  refine (SameAt.memberName _).bind fun name s₃ h₃ => ?_
  refine SameAt.parameters.bind fun params s₄ h₄ => ?_
  refine SameAt.passReturnType.bind fun _ s₅ h₅ => ?_
  refine .ifAccept (fun s₆ h₆ => .pure ⟨by omega, nofun⟩) ?_
  refine ((phrases_agree _).block (Nat.le_refl _)).bind fun body s₆ ⟨h₆, hbody⟩ => ?_
  exact .pure ⟨by omega, by rintro _ ⟨⟩; exact hbody⟩

theorem passTraitUse_same (more : 0 < s.left) :
    SameAt s (fun _ rest => rest.left < s.left) passTraitUse passTraitUse := by
  refine .advance more fun s₁ h₁ => (SameAt.passTo _ _).bind fun _ s₂ h₂ => ?_
  refine .ifSees (fun _ => (SameAt.passGroup _ _).mono fun _ rest h₃ => ?_)
    (SameAt.pass.mono fun _ rest h₃ => ?_) <;> omega

theorem interfaceName_same :
    SameAt s (Fewer s.left Name.IsWritten) interfaceName interfaceName :=
  (SameAt.identifier _).bind fun _ _ h₁ => .pure ⟨h₁, Name.isWritten_ofWritten _⟩

theorem moreInterfacesRound_same {names : List Name} (known : ∀ n ∈ names, n.IsWritten) :
    SameAt s
      (SameAt.Round s (fun names => ∀ n ∈ names, Name.IsWritten n)
        fun names => ∀ n ∈ names, Name.IsWritten n)
      (moreInterfacesRound names) (moreInterfacesRound names) := by
  refine .ifAccept (fun s₁ h₁ => ?_) (.pure ⟨Nat.le_refl _, known⟩)
  refine interfaceName_same.bind fun name s₂ ⟨h₂, hname⟩ => ?_
  exact .pure ⟨by omega, forall_mem_snoc known hname⟩

theorem moreInterfaces_same {names : List Name} (known : ∀ n ∈ names, n.IsWritten) :
    SameAt s (Fewer (s.left + 1) fun names => ∀ n ∈ names, Name.IsWritten n)
      (iterate moreInterfacesRound names) (iterate moreInterfacesRound names) :=
  .iterate (fun _ _ _ known => moreInterfacesRound_same known) known

theorem parents_same :
    SameAt s
      (Fewer (s.left + 1) fun r =>
        (∀ n, r.1 = some n → Name.IsWritten n) ∧ ∀ n ∈ r.2, Name.IsWritten n)
      parents parents := by
  refine .ifAccept (fun s₁ h₁ => ?_) (.pure ⟨Nat.lt_succ_self _, nofun, nofun⟩)
  refine (SameAt.identifier _).bind fun name s₂ h₂ => ?_
  refine (moreInterfaces_same (List.forall_mem_nil _)).bind fun names s₃ ⟨h₃, hnames⟩ => ?_
  exact .pure ⟨by omega, by rintro _ ⟨⟩; exact Name.isWritten_ofWritten _, hnames⟩

theorem interfaces_same {names : List Name} (known : ∀ n ∈ names, n.IsWritten) :
    SameAt s (Fewer (s.left + 1) fun names => ∀ n ∈ names, Name.IsWritten n)
      (interfaces names) (interfaces names) := by
  refine .ifAccept (fun s₁ h₁ => ?_) (.pure ⟨Nat.lt_succ_self _, known⟩)
  refine interfaceName_same.bind fun name s₂ ⟨h₂, hname⟩ => ?_
  refine (moreInterfaces_same (forall_mem_snoc known hname)).mono ?_
  exact fun names s₃ ⟨h₃, hnames⟩ => ⟨by omega, hnames⟩

theorem memberRound_same {methods : List Method} (known : ∀ m ∈ methods, m.IsWritten) :
    SameAt s
      (SameAt.Round s (fun methods => ∀ m ∈ methods, Method.IsWritten m)
        fun methods => ∀ m ∈ methods, Method.IsWritten m)
      (memberRound methods) (memberRound methods) := by
  refine .kind (.reject _) fun k more => ?_
  dsimp only
  split
  case h_1 => exact .advance more fun s₁ h₁ => .pure ⟨Nat.le_of_lt h₁, known⟩
  case h_4 => exact SameAt.passAttribute.bind fun _ s₁ h₁ => .pure ⟨h₁, known⟩
  case h_5 => exact (passTraitUse_same more).bind fun _ s₁ h₁ => .pure ⟨h₁, known⟩
  case h_14 =>
    refine method_same.bind fun m s₁ ⟨h₁, hm⟩ => ?_
    exact .pure ⟨h₁, forall_mem_snoc known hm⟩
  case h_15 => exact SameAt.passSemicolon.bind fun _ s₁ h₁ => .pure ⟨h₁, known⟩
  all_goals exact .advance more fun s₁ h₁ => .pure ⟨h₁, known⟩

theorem modifierRound_same :
    SameAt s (SameAt.Round s (fun _ => True) fun _ => True) (modifierRound ())
      (modifierRound ()) := by
  refine .kind (.pure ⟨Nat.le_refl _, trivial⟩) fun k more => ?_
  split
  case h_4 => exact .pure ⟨Nat.le_refl _, trivial⟩
  all_goals exact .advance more fun s₁ h₁ => .pure ⟨h₁, trivial⟩

theorem classDecl_same (docComment : Option String) :
    SameAt s (Fewer s.left ClassDecl.IsWritten) (classDecl docComment) (classDecl docComment) := by
  refine (SameAt.iterate (fun _ _ _ _ => modifierRound_same) trivial).bind
    fun _ s₁ ⟨h₁, _⟩ => ?_
  refine .kind (.rejectThen _) fun k more => ?_
  split
  case h_4 => exact .rejectThen _
  all_goals
    refine .advance more fun s₂ h₂ => (SameAt.identifier _).bind fun name s₃ h₃ => ?_
    refine parents_same.bind fun r s₄ ⟨h₄, hparent, hnames⟩ => ?_
    refine (interfaces_same hnames).bind fun names s₅ ⟨h₅, hnames⟩ => ?_
    refine (SameAt.expect _ _).bind fun _ s₆ h₆ => ?_
    refine (SameAt.iterate (fun _ _ _ known => memberRound_same known)
      (List.forall_mem_nil _)).bind fun methods s₇ ⟨h₇, hmethods⟩ => ?_
    exact .pure ⟨by omega, hparent, hnames, hmethods⟩

theorem importAlias_same :
    SameAt s (fun _ rest => rest.left ≤ s.left) importAlias importAlias := by
  refine .ifAccept (fun s₁ h₁ => ?_) (.pure (Nat.le_refl _))
  exact (SameAt.identifier _).bind fun name s₂ h₂ => .pure (by omega)

theorem groupRound_same (base : String) {imports : List Import}
    (known : ∀ i ∈ imports, i.name.IsWritten) :
    SameAt s
      (SameAt.Round s (fun imports => ∀ i ∈ imports, i.name.IsWritten)
        fun imports => ∀ i ∈ imports, i.name.IsWritten)
      (groupRound base imports) (groupRound base imports) := by
  refine .ifSees (fun _ => .pure ⟨Nat.le_refl _, known⟩) ?_
  refine (SameAt.identifier _).bind fun name s₁ h₁ => ?_
  refine importAlias_same.bind fun alias? s₂ h₂ => ?_
  have written := Name.isWritten_ofWritten (base ++ name)
  have longer : ∀ i ∈ imports ++ [⟨Name.ofWritten (base ++ name), alias?⟩], i.name.IsWritten :=
    forall_mem_snoc known written
  exact .commaOrEnd longer (by omega)

theorem importRound_same {imports : List Import} (known : ∀ i ∈ imports, i.name.IsWritten) :
    SameAt s
      (SameAt.Round s (fun imports => ∀ i ∈ imports, i.name.IsWritten)
        fun imports => ∀ i ∈ imports, i.name.IsWritten)
      (importRound imports) (importRound imports) := by
  refine (SameAt.identifier _).bind fun name s₁ h₁ => .step (p := sees _) rfl ?_
  split
  · refine SameAt.pass.bind fun _ s₂ h₂ => ?_
    refine (SameAt.iterate (fun _ _ _ known => groupRound_same name known) known).bind
      fun imports s₃ ⟨h₃, himports⟩ => ?_
    refine (SameAt.expect _ _).bind fun _ s₄ h₄ => .step (p := pure _) rfl ?_
    exact .commaOrEnd himports (by omega)
  · refine importAlias_same.bind fun alias? s₂ h₂ => .step (p := pure _) rfl ?_
    exact .commaOrEnd (forall_mem_snoc known (Name.isWritten_ofWritten _)) (by omega)

theorem importDecl_same :
    SameAt s (Fewer s.left fun imports => ∀ i ∈ imports, i.name.IsWritten) importDecl
      importDecl := by
  refine SameAt.pass.bind fun _ s₁ h₁ => ?_
  refine .step (p := sees _) rfl (.step (p := sees _) rfl ?_)
  split
  · exact SameAt.passSemicolon.bind fun _ s₂ h₂ => .pure ⟨by omega, List.forall_mem_nil _⟩
  · refine (SameAt.iterate (fun _ _ _ known => importRound_same known)
      (List.forall_mem_nil _)).bind fun imports s₂ ⟨h₂, himports⟩ => ?_
    exact (SameAt.expect _ _).bind fun _ s₃ h₃ => .pure ⟨by omega, himports⟩

def namespaceEnd (name : Option Name) : Parser (Option Name × Bool) := do
  if ← acceptSymbol .leftBrace then return (name, true)
  expect .semicolon .semicolonAfterNamespace
  return (name, false)

theorem namespaceEnd_same {name : Option Name} {later : TokenStream}
    (written : ∀ n, name = some n → n.IsWritten) (shorter : later.left < s.left) :
    SameAt later (Fewer s.left fun r => ∀ n, r.1 = some n → Name.IsWritten n) (namespaceEnd name)
      (namespaceEnd name) := by
  refine .ifAccept (fun s₁ h₁ => .pure ⟨by omega, written⟩) ?_
  exact (SameAt.expect _ _).bind fun _ s₁ h₁ => .pure ⟨by omega, written⟩

theorem namespaceDecl_same (more : 0 < s.left) :
    SameAt s (Fewer s.left fun r => ∀ n, r.1 = some n → Name.IsWritten n) namespaceDecl
      namespaceDecl := by
  refine .advance more fun s₁ h₁ => ?_
  refine .next (.step (p := pure _) rfl (namespaceEnd_same nofun h₁)) fun t more₁ => ?_
  split
  · refine .advance more₁ fun s₂ h₂ => .step (p := pure _) rfl (namespaceEnd_same ?_ (by omega))
    rintro _ ⟨⟩
    exact Name.isWritten_ofWritten _
  · exact .step (p := pure _) rfl (namespaceEnd_same nofun h₁)

theorem statement_read {R : Progress → TokenStream → Prop} {p : Progress}
    (known : ∀ rest, rest.left < s.left → R p rest) :
    SameAt s R (do let _ ← phrases.statement; return p) (do let _ ← phrases.statement; return p) :=
  ((phrases_agree _).statement (Nat.lt_succ_self _)).bind fun _ rest h => .pure (known rest h.1)

theorem itemRound_same (kind : TokenKind) {p : Progress} (known : p.found.IsWritten)
    (more : 0 < s.left) :
    SameAt s (Fewer s.left fun p => p.found.IsWritten) (itemRound kind p) (itemRound kind p) := by
  unfold itemRound
  split
  case h_1 =>
    refine (namespaceDecl_same more).bind fun r s₁ ⟨h₁, hname⟩ => .pure ⟨h₁, ?_⟩
    refine ⟨fun n named => ?_, known.imports, known.classes⟩
    rcases Option.or_eq_some_iff.1 named with new | old
    · exact hname n new
    · exact known.namespaceName n old.2
  case h_2 =>
    refine importDecl_same.bind fun imports s₁ ⟨h₁, himports⟩ => .pure ⟨h₁, ?_⟩
    refine ⟨known.namespaceName, fun i mem => ?_, known.classes⟩
    exact (List.mem_append.1 mem).elim (known.imports i) (himports i)
  case h_3 =>
    refine .advance more fun s₁ h₁ => (SameAt.passGroup _ _).bind fun _ s₂ h₂ => ?_
    exact (SameAt.expect _ _).bind fun _ s₃ h₃ => .pure ⟨by omega, known⟩
  case h_10 =>
    refine .step (p := secondKind?) rfl ?_
    split
    · exact method_same.bind fun _ s₁ h₁ => .pure ⟨h₁.1, known⟩
    · exact statement_read fun _ h₁ => ⟨h₁, known⟩
  case h_11 => exact SameAt.passSemicolon.bind fun _ s₁ h₁ => .pure ⟨h₁, known⟩
  case h_12 =>
    split
    · exact .advance more fun s₁ h₁ => .pure ⟨h₁, known⟩
    · exact statement_read fun _ h₁ => ⟨h₁, known⟩
  case h_13 => exact .advance more fun s₁ h₁ => .pure ⟨h₁, known⟩
  case h_14 => exact statement_read fun _ h₁ => ⟨h₁, known⟩
  all_goals
    refine (classDecl_same _).bind fun c s₁ ⟨h₁, hc⟩ => .pure ⟨h₁, ?_⟩
    exact ⟨known.namespaceName, known.imports, forall_mem_snoc known.classes hc⟩

theorem fileRound_same {p : Progress} (known : p.found.IsWritten) :
    SameAt s (SameAt.Round s (fun p => p.found.IsWritten) SourceFile.IsWritten) (fileRound p)
      (fileRound p) := by
  refine .kind (.pure ⟨Nat.le_refl _, known⟩) fun k more => ?_
  split
  case h_1 => exact .pure ⟨Nat.le_refl _, known⟩
  case h_2 => exact .advance more fun s₁ h₁ => .pure ⟨h₁, known⟩
  case h_3 => exact SameAt.passAttribute.bind fun _ s₁ h₁ => .pure ⟨h₁, known⟩
  case h_4 => exact (itemRound_same _ known more).bind fun p s₁ h₁ => .pure h₁

theorem sourceFile_same (s : TokenStream) :
    SameAt s (Fewer (s.left + 1) SourceFile.IsWritten) sourceFile sourceFile := by
  have empty : Progress.start.found.IsWritten :=
    ⟨nofun, List.forall_mem_nil _, List.forall_mem_nil _⟩
  exact .iterate (fun _ _ _ known => fileRound_same known) empty

end Grammar

theorem SourceFile.isWritten_of_ofText {source : String} {f : SourceFile}
    (read : SourceFile.ofText source = .ok f) : f.IsWritten := by
  unfold SourceFile.ofText at read
  split at read
  · cases read
  · rename_i s _
    have outcome := (Grammar.sourceFile_same s).outcome
    cases answer : Grammar.sourceFile s with
    | error e => rw [answer] at read; cases read
    | ok r =>
      rw [answer] at read outcome
      cases read
      exact outcome.2

end ResponseShape

import ResponseShape.Proofs.MethodDeclarations

/-! The members of a class that are no methods are invisible: the class is read as if they were not
there. Main statement: `Grammar.classDecl_interleaved`. -/
namespace ResponseShape

open ResponseShape.Parser

/-- The members of a class, of which the methods are known. -/
inductive Interleaved : List (List Token) → List Token → Prop
  | nil : Interleaved [] []
  | method {m body : List Token} {methods : List (List Token)} :
      Interleaved methods body → Interleaved (m :: methods) (m ++ body)
  | other {o body : List Token} {methods : List (List Token)} :
      OtherMember o → Interleaved methods body → Interleaved methods (o ++ body)

theorem exists_forall₂ {methods : List (List Token)}
    (h : ∀ m ∈ methods, ∃ v, DeclaresMethod m v) :
    ∃ values, List.Forall₂ DeclaresMethod methods values := by
  induction methods with
  | nil => exact ⟨[], .nil⟩
  | cons m methods ih =>
    obtain ⟨⟨v, first⟩, later⟩ := List.forall_mem_cons.1 h
    obtain ⟨values, declared⟩ := ih later
    exact ⟨v :: values, .cons first declared⟩

theorem interleaved_flatten (methods : List (List Token)) :
    Interleaved methods methods.flatten := by
  induction methods with
  | nil => exact .nil
  | cons m methods ih => exact .method ih

namespace Grammar

theorem reads_interleaved {methods : List (List Token)} {body : List Token} {values : List Method}
    {close : Token} (interleaved : Interleaved methods body)
    (declared : List.Forall₂ DeclaresMethod methods values)
    (closes : close.kind = .symbol .rightBrace) (after : List Token) (before : List Method) :
    Reads (iterate memberRound before) (body ++ close :: after) (before ++ values) after := by
  induction interleaved generalizing before values with
  | nil =>
    cases declared
    rw [List.append_nil]
    exact .done (.kind (congrArg some closes) (.advance .pure))
  | @method _ body methods _ ih =>
    obtain _ | @⟨_, m, _, values, ⟨noted, first, behind, read, ended⟩, declared⟩ := declared
    have later := ih declared (before ++ [m])
    rw [← List.append_cons] at later
    rw [List.append_assoc, List.append_assoc]
    refine reads_modifiers noted (.again (.kind (firstKind_append first)
      ((reads_declared behind first read ended).bind .pure)) ?_ later)
    have more := length_pos_of_firstKind first
    simp only [List.length_append]
    omega
  | other other _ ih =>
    rw [List.append_assoc]
    exact reads_otherMember other (ih declared before)

section
variable {x : List Token} {x' s : TokenStream}

theorem modifierRound_local : Local x x' s 0 1 (modifierRound ()) (modifierRound ()) := by
  refine .kind (by decide) (.pure _) fun k more => ?_
  split
  case h_4 => exact .pure _
  all_goals exact .advance more fun _ _ => .pure _

theorem interfaceName_local : Local x x' s 1 0 interfaceName interfaceName :=
  (Local.identifier _).bind fun _ _ => .pure _

theorem moreInterfacesRound_local (names : List Name) :
    Local x x' s 0 1 (moreInterfacesRound names) (moreInterfacesRound names) :=
  .ifAccept (by decide) (fun _ _ => interfaceName_local.forget.bind fun _ _ => .pure _) (.pure _)

theorem parents_local : Local x x' s 0 1 parents parents := by
  refine .ifAccept (by decide) (fun _ _ => ?_) (.pure _)
  refine (Local.identifier _).forget.bind fun name _ => ?_
  exact (Local.iterate (fun names _ => moreInterfacesRound_local names) []).ahead (by decide)
    fun names _ => .pure _

theorem interfaces_local (names : List Name) :
    Local x x' s 0 1 (interfaces names) (interfaces names) := by
  refine .ifAccept (by decide) (fun _ _ => ?_) (.pure _)
  refine interfaceName_local.forget.bind fun name _ => ?_
  exact Local.iterate (fun names _ => moreInterfacesRound_local names) _

theorem classHead_local : Local x x' s 1 0 classHead classHead := by
  refine (Local.iterate (fun _ _ => modifierRound_local) ()).ahead (by decide) fun _ _ => ?_
  refine .kind (by decide) (.rejectThen _) fun k more => ?_
  split
  case h_4 => exact .rejectThen _
  all_goals
    refine .advance more fun _ _ => (Local.identifier _).forget.bind fun name _ => ?_
    refine (?_ : Local _ _ _ 1 0 _ _).forget
    refine parents_local.ahead (by decide) fun found _ => ?_
    refine (interfaces_local _).ahead (by decide) fun names _ => ?_
    exact (Local.expect _ _).bind fun _ _ => .pure _

end

theorem behind_brace {head mid rest x : List Token} {brace : Token}
    (named : ∀ t ∈ head, t.kind ≠ .symbol .leftBrace) (opens : brace.kind = .symbol .leftBrace)
    (plain : Plain (head ++ brace :: x) mid) (next : Next (.symbol .leftBrace) mid rest) :
    rest = x := by
  obtain ⟨t, kind, rfl⟩ := next
  induction head with
  | nil =>
    rcases plain.cases_head with same | ⟨_, ⟨t', plain', same⟩, -⟩
    · exact (List.cons.inj same).2.symm
    · cases same
      rw [opens] at plain'
      cases plain'
  | cons first head ih =>
    obtain ⟨other, named⟩ := List.forall_mem_cons.1 named
    rcases plain.cases_head with same | ⟨_, ⟨t', -, same⟩, later⟩
    · exact (other ((List.cons.inj same).1 ▸ kind)).elim
    · cases same
      exact ih named later

/-- The head of a class ends at the first opening brace, whatever stands behind it. -/
theorem classHead_beside {head x : List Token} {brace : Token} {stop : Position}
    {r : TokenStream} {found : String × Option Name × List Name} (x' : TokenStream)
    (named : ∀ t ∈ head, t.kind ≠ .symbol .leftBrace) (opens : brace.kind = .symbol .leftBrace)
    (run : classHead ⟨head ++ brace :: x, stop⟩ = .ok (found, r)) :
    r.tokens = x ∧ classHead ⟨head ++ brace :: x'.tokens, x'.stop⟩ = .ok (found, x') := by
  obtain ⟨-, -, -, _, plain, next⟩ := (classHead_together (.refl _)).answer run
  have ended := behind_brace named opens plain next
  have beside : TokenStream.Beside x x' _ _ := .mk (head ++ [brace]) stop
  rw [← List.append_cons, ← List.append_cons] at beside
  obtain ⟨r', run', beside'⟩ := (classHead_local _ r run).2
    (Nat.le_of_eq (congrArg List.length ended).symm) _ beside
  obtain ⟨-, rfl⟩ := beside'.tokens_of_left (congrArg List.length ended)
  exact ⟨ended, run'⟩

/-- A class is read as it is without those of its members that are no methods, whenever it is read
without them. Its methods are those that are read from their own tokens, or well nested ones where
the class without the other members is read up to its own closing brace. -/
theorem classDecl_interleaved {docComment : Option String} {s r : TokenStream} {c : ClassDecl}
    {methods : List (List Token)} {head body after : List Token} {brace close : Token}
    {stop : Position} (named : ∀ t ∈ head, t.kind ≠ .symbol .leftBrace)
    (opens : brace.kind = .symbol .leftBrace) (closes : close.kind = .symbol .rightBrace)
    (interleaved : Interleaved methods body)
    (declared : (∀ m ∈ methods, ∃ v, DeclaresMethod m v) ∨
      (∀ m ∈ methods, NestedMethod m) ∧ r.left = after.length)
    (alike : s.Alike ⟨head ++ brace :: (methods.flatten ++ close :: after), stop⟩)
    (accepted : classDecl docComment s = .ok (c, r)) :
    classDecl docComment ⟨head ++ brace :: (body ++ close :: after), stop⟩ =
      .ok (c, ⟨after, stop⟩) := by
  obtain ⟨r', run, same, -⟩ := (classDecl_together docComment alike).answer accepted
  rw [classDecl_eq] at run ⊢
  obtain ⟨⟨name, parent, names⟩, s₁, first, later⟩ := exists_of_bind_ok run
  obtain ⟨found, s₂, members, made⟩ := exists_of_bind_ok later
  cases made
  obtain ⟨ended, first'⟩ := classHead_beside ⟨body ++ close :: after, stop⟩ named opens first
  obtain ⟨tokens, stop₁⟩ := s₁
  obtain rfl : tokens = _ := ended
  have own : ∀ m ∈ methods, ∃ v, DeclaresMethod m v := by
    rcases declared with own | ⟨nested, exact⟩
    · exact own
    · exact declared_of_nested nested (same.left.symm.trans exact) members
  obtain ⟨values, own⟩ := exists_forall₂ own
  -- both bodies have the same methods, one of them with other members in between
  have without := reads_interleaved (interleaved_flatten methods) own closes after [] stop₁
  cases without.symm.trans members
  have within := reads_interleaved interleaved own closes after [] stop
  exact (bind_ok first' _).trans ((bind_ok within _).trans rfl)

def sampleHead : List Token := [.keyword .kwClass, .word "R"]

def sampleMethod : List Token :=
  [.keyword .kwFunction, .word "f", .symbol .leftParen, .symbol .rightParen, .symbol .leftBrace,
    .keyword .kwReturn, .ofKind (.var "x"), .symbol .semicolon, .symbol .rightBrace]

def sampleBodyless : List Token :=
  [.keyword .kwPublic, .keyword .kwFunction, .word "g", .symbol .leftParen, .symbol .rightParen,
    .symbol .semicolon]

def sampleTraitUse : List Token :=
  [.keyword .kwUse, .word "T", .symbol .leftBrace, .word "a", .keyword .kwAs, .word "b",
    .symbol .semicolon, .symbol .rightBrace]

def sampleAttribute : List Token := [.symbol .attributeOpen, .word "A", .symbol .rightBracket]

def sampleProperty : List Token :=
  [.ofKind (.var "p"), .symbol .equal, .keyword .kwFunction, .symbol .leftParen,
    .symbol .rightParen, .symbol .leftBrace, .keyword .kwReturn, .symbol .semicolon,
    .symbol .rightBrace]

/-- A method that has a body and one that has none, with a trait use with a block, an attribute, a
property with a closure for its value, a stray semicolon and a comment. -/
def sampleBody : List Token :=
  sampleTraitUse ++ (sampleAttribute ++ (sampleMethod ++
    ([.keyword .kwPublic] ++ (sampleProperty ++ [.symbol .semicolon]) ++
      ([.symbol .semicolon] ++ ([.ofKind (.docComment "")] ++ (sampleBodyless ++ []))))))

def sampleClass : ClassDecl :=
  ⟨"R", none, none, [], [⟨"f", [], some [.ret (some (.var "x"))]⟩, ⟨"g", [], none⟩]⟩

theorem nestedMethod_sample : NestedMethod sampleMethod :=
  .braced (List.forall_mem_nil _) (.intro rfl (.inl rfl) rfl rfl .nil rfl .none) rfl
    (.plain rfl trivial (.plain rfl trivial (.plain rfl trivial .nil))) rfl

theorem nestedMethod_bodyless : NestedMethod sampleBodyless := by
  have noted : Modifiers [Token.keyword .kwPublic] := by decide
  exact .bodyless noted (.intro rfl (.inl rfl) rfl rfl .nil rfl .none) rfl

theorem otherMember_traitUse : OtherMember sampleTraitUse := by
  have names : TraitNames [Token.word "T"] := by decide
  exact .traitBlock rfl names rfl (.plain rfl trivial (.plain rfl trivial (.plain rfl trivial
    (.plain rfl trivial .nil)))) rfl

theorem otherMember_attribute : OtherMember sampleAttribute :=
  .«attribute» rfl (.plain rfl trivial .nil) rfl

theorem nestedWith_property : NestedWith (· ≠ .symbol .semicolon) sampleProperty := by
  refine .plain rfl nofun (.plain rfl nofun (.plain rfl nofun (.group rfl .nil rfl ?_)))
  exact .group rfl (.plain rfl trivial (.plain rfl trivial .nil)) rfl .nil

theorem interleaved_sample : Interleaved [sampleMethod, sampleBodyless] sampleBody := by
  have noted : Modifiers [Token.keyword .kwPublic] := by decide
  exact .other otherMember_traitUse (.other otherMember_attribute (.method
    (.other (.declaration noted rfl rfl nestedWith_property rfl)
      (.other (.semicolon rfl) (.other (.comment rfl) (.method .nil))))))

theorem classDecl_interleaved_sample :
    classDecl none ⟨sampleHead ++ .symbol .leftBrace :: (sampleBody ++ [.symbol .rightBrace]),
      Position.start⟩ = .ok (sampleClass, ⟨[], Position.start⟩) := by
  have methods : ∀ m ∈ [sampleMethod, sampleBodyless], NestedMethod m :=
    List.forall_mem_cons.2 ⟨nestedMethod_sample, List.forall_mem_cons.2
      ⟨nestedMethod_bodyless, List.forall_mem_nil _⟩⟩
  refine classDecl_interleaved (by decide) rfl rfl interleaved_sample (.inr ⟨methods, ?_⟩)
    (.refl _) (r := ⟨[], Position.start⟩) (by with_unfolding_all rfl)
  rfl

end Grammar

end ResponseShape

import ResponseShape.Proofs.Declarations
import ResponseShape.Proofs.FileSlots
import ResponseShape.Proofs.Spanning

/-! Declarations and files are read alike from streams that say the same, and an accepted file
leaves no delimiter open but in the regions that are passed over. Main statement:
`SourceFile.balanced_of_ofText`. -/
namespace ResponseShape

/-- Between two items of a file. -/
def InFile (ts rest : List Token) : Prop := Leads [.code .statement] [.code .statement] ts rest

def InClass (ts rest : List Token) : Prop :=
  Leads [.member, .code .statement] [.member, .code .statement] ts rest

/-- An item that is no statement is read from the slot behind its first token on. -/
theorem InFile.item {k : TokenKind} {slot : FileSlot} {ts later rest : List Token}
    (seen : Next k ts later) (behind : FileSlot.behindItem? k later = some slot)
    (item : k.opensItem = true) (skips : slot.skips [] k = true)
    (stays : ∀ lexeme position, slot.step [] ⟨k, lexeme, position⟩ later = [slot])
    (read : Leads [slot] [.code .statement] ts rest) : InFile ts rest := by
  refine Leads.trans (.agree_of_next seen ?_ fun lexeme position => ?_) read
  · rw [skips]
    exact Bool.or_eq_true_iff.2 (Or.inr item)
  · rw [stays, FileSlot.step, show FileSlot.item? .statement [] k later = some slot from behind]

/-- The rest of a file: the delimiters that count are well nested, and it ends where it may. -/
structure Delimited (ts : List Token) : Prop where
  nested : WellNested (delimitersFrom [.code .statement] ts)
  ends : EndsFrom [.code .statement] ts

theorem InFile.delimited {ts rest : List Token} (h : InFile ts rest) (later : Delimited rest) :
    Delimited ts := by
  obtain ⟨inner, nested, same⟩ := h.delimiters
  exact ⟨same ▸ nested.append later.nested, h.ends later.ends⟩

theorem InFile.attribute {ts rest : List Token}
    (h : Relation.Comp (Next (.symbol .attributeOpen))
      (Passed Parser.opensBracket (· == .symbol .rightBracket)) ts rest) : InFile ts rest := by
  obtain ⟨inner, opened, passed⟩ := h
  have begun : Leads [.code .statement] [.within .attributes 0 (.code .statement)] ts inner :=
    .of_next rfl (fun _ _ => rfl) opened
  rcases passed with counted | ⟨rfl, still⟩
  · exact begun.trans (.counted .attributes [] counted)
  · exact begun.trans (.stillOpen .attributes (.within .attributes · (.code .statement))
      (fun _ _ _ => rfl) (fun _ _ => rfl) (fun _ _ closes => closes) still)

namespace Grammar

open ResponseShape.Parser

variable {s s' : TokenStream}

theorem statement_together (alike : s.Alike s') :
    Together s s' (fun _ rest => InFile s.tokens rest) phrases.statement phrases.statement :=
  (phrases_spanning.statement alike).mono fun _ _ ⟨_, spans, _⟩ => Leads.holdsAlong.spans spans []

theorem method_together {ts : List Token} (alike : s.Alike s')
    (function : Next (.keyword .kwFunction) s.tokens ts) :
    Together s s' (fun _ rest => ∀ outer,
      Leads (.functionName :: outer) (FileSlot.between outer :: outer) s.tokens rest) method
      method := by
  refine .advance alike function fun r r' alike rest => ?_
  refine (Together.mark _ alike).bind fun _ r₁ r' alike mark => ?_
  refine (Together.memberName _ alike).bind fun name r₂ r' alike named => ?_
  refine (Together.parameters alike).bind fun params r₃ r' alike passed => ?_
  refine (Together.passReturnType alike).bind fun _ r₄ r' alike returned => ?_
  have header := Leads.header (rest ▸ function) mark named passed returned
  refine .ifAccept alike (fun r₅ r' alike semicolon => .pure alike fun outer => ?_) ?_
  · obtain ⟨slot, rfl | rfl, leads⟩ := header semicolon.ne_nil outer
    · exact leads.trans (.of_next rfl (fun _ _ => rfl) semicolon)
    · exact leads.trans (.of_next rfl (fun _ _ => rfl) semicolon)
  · refine (phrases_spanning.block alike).bind fun body r₅ r' alike told =>
      .pure alike fun outer => ?_
    obtain ⟨_, spans, -⟩ := told
    obtain ⟨inner, last, opened, within, closed⟩ := Leads.holdsAlong.spans spans
    obtain ⟨slot, rfl | rfl, leads⟩ := header (Next.ne_nil opened) outer
    · exact leads.trans (.enclosing rfl rfl (fun _ _ _ => rfl) closes_brace opened within closed)
    · exact leads.trans (.enclosing rfl rfl (fun _ _ _ => rfl) closes_brace opened within closed)

theorem passTraitUse_together {ts : List Token} (alike : s.Alike s')
    (use : Next (.keyword .kwUse) s.tokens ts) :
    Together s s' (fun _ rest => rest ≠ [] → ∀ outer,
      Leads (.traitNames :: outer) (.member :: outer) s.tokens rest) passTraitUse
      passTraitUse := by
  refine .advance alike use fun r r' alike rest => ?_
  refine (Together.passTo _ _ alike).bind fun _ r₁ r' alike ⟨passed, k, ts', wanted, ended⟩ => ?_
  have names : ∀ outer, Leads (.traitNames :: outer) (.traitNames :: outer) s.tokens r₁.tokens :=
    fun outer => Leads.trans (.of_next rfl (fun _ _ => rfl) (rest ▸ use)) (.traitNames outer passed)
  refine .sees alike fun b brace => ?_
  split
  · refine (Together.passGroup (by decide) alike).mono fun _ rest' group more outer => ?_
    obtain ⟨inner, opened, passed⟩ := group
    exact (names outer).trans (.trans (.of_next rfl (fun _ _ => rfl) opened)
      (.counted .braces outer (passed.counted more)))
  · rename_i unseen
    have semicolon : k = .symbol .semicolon := by
      rw [Bool.or_eq_true, beq_iff_eq, beq_iff_eq] at wanted
      refine wanted.resolve_right fun same => unseen (brace.2 ⟨ts', ?_⟩)
      rwa [← same]
    refine (Together.pass alike ended).mono fun _ rest' here _ outer => ?_
    exact (names outer).trans (.of_next rfl (fun _ _ => rfl) (semicolon ▸ here ▸ ended))

/-- From one member to the next. An attribute or a trait use that is open at the end of the tokens
is not followed by another one. -/
def Members (ts rest : List Token) : Prop := ts ≠ [] ∧ (rest ≠ [] → InClass ts rest)

def MembersEnd (ts rest : List Token) : Prop :=
  ts ≠ [] ∧ ∃ last, InClass ts last ∧ Next (.symbol .rightBrace) last rest

theorem Members.trans_end {ts mid rest : List Token} (first : Members ts mid)
    (later : MembersEnd mid rest) : MembersEnd ts rest := by
  obtain ⟨more, last, read, closed⟩ := later
  exact ⟨first.1, last, (first.2 more).trans read, closed⟩

theorem memberRound_together (methods : List Method) (alike : s.Alike s') :
    Together s s' (Together.Turns Members MembersEnd s.tokens)
      (memberRound methods) (memberRound methods) := by
  refine .kind alike (fun _ => .reject _) fun k ts seen => ?_
  have token : ∀ {again : List Method},
      (∀ lexeme position, FileSlot.step .member [.code .statement] ⟨k, lexeme, position⟩ ts =
        [.member, .code .statement]) → FileSlot.skips .member [.code .statement] k = true →
      Together s s' (Together.Turns Members MembersEnd s.tokens)
        (do advance; return .inl again : Parser (List Method ⊕ List Method))
        (do advance; return .inl again) := fun step skips =>
    .advance alike seen fun r r' alike rest =>
      .pure alike ⟨seen.ne_nil, fun _ => .of_next skips step (rest ▸ seen)⟩
  dsimp only
  split
  case h_1 =>
    refine .advance alike seen fun r r' alike rest => .pure alike ?_
    exact ⟨seen.ne_nil, s.tokens, .refl _ _, rest ▸ seen⟩
  case h_4 =>
    refine (Together.passAttribute alike seen).bind fun _ r r' alike passed => .pure alike ?_
    obtain ⟨inner, opened, passed⟩ := passed
    exact ⟨seen.ne_nil, fun more => Leads.trans (.of_next rfl (fun _ _ => rfl) opened)
      (.counted .attributes _ (passed.counted more))⟩
  case h_5 =>
    refine (passTraitUse_together alike seen).bind fun _ r r' alike passed => .pure alike ?_
    have same : Leads [.member, .code .statement] [.traitNames, .code .statement] s.tokens
        s.tokens := .agree_of_next seen rfl fun _ _ => rfl
    exact ⟨seen.ne_nil, fun more => same.trans (passed more [.code .statement])⟩
  case h_14 =>
    refine (method_together alike seen).bind fun m r r' alike read => .pure alike ?_
    have same : Leads [.member, .code .statement] [.functionName, .code .statement] s.tokens
        s.tokens := .agree_of_next seen rfl fun _ _ => rfl
    exact ⟨seen.ne_nil, fun _ => same.trans (read [.code .statement])⟩
  case h_15 =>
    refine (Together.passSemicolon alike).bind fun _ r r' alike passed => .pure alike ?_
    have other : k.opensOtherMember = true := by
      unfold TokenKind.opensOtherMember
      split <;> simp_all
    exact ⟨seen.ne_nil, fun _ => Leads.otherMember seen other passed _⟩
  all_goals exact token (fun _ _ => rfl) rfl

/-- Some tokens that are no delimiters. -/
abbrev Plain : List Token → List Token → Prop := Relation.ReflTransGen NextPlain

theorem plain_of_next {k : TokenKind} {ts rest : List Token} (plain : k.isPlain)
    (h : Next k ts rest) : Plain ts rest := by
  obtain ⟨t, kind, whole⟩ := h
  exact .single ⟨t, kind ▸ plain, whole⟩

theorem modifierRound_plain (alike : s.Alike s') :
    Together s s' (Together.Turns Plain Plain s.tokens) (modifierRound ()) (modifierRound ()) := by
  refine .kind alike (fun _ => .pure alike (show Plain _ _ from .refl)) fun k ts seen => ?_
  split
  case h_4 => exact .pure alike (show Plain _ _ from .refl)
  all_goals
    rename_i same
    cases same
    exact .advance alike seen fun r r' alike rest => .pure alike (plain_of_next rfl (rest ▸ seen))

theorem interfaceName_plain (alike : s.Alike s') :
    Together s s' (fun _ rest => Plain s.tokens rest) interfaceName interfaceName :=
  (Together.identifier _ alike).bind fun _ _ _ alike named => .pure alike (plain_of_next rfl named)

theorem moreInterfacesRound_plain (names : List Name) (alike : s.Alike s') :
    Together s s' (Together.Turns Plain Plain s.tokens) (moreInterfacesRound names)
      (moreInterfacesRound names) := by
  refine .ifAccept alike (fun r r' alike comma => ?_) (.pure alike (show Plain _ _ from .refl))
  refine (interfaceName_plain alike).bind fun name r₁ r' alike named => .pure alike ?_
  exact (plain_of_next rfl comma).trans named

theorem moreInterfaces_plain (names : List Name) (alike : s.Alike s') :
    Together s s' (fun _ rest => Plain s.tokens rest) (iterate moreInterfacesRound names)
      (iterate moreInterfacesRound names) :=
  .iterate (fun first second => first.trans second) (fun names => moreInterfacesRound_plain names)
    names alike

theorem parents_plain (alike : s.Alike s') :
    Together s s' (fun _ rest => Plain s.tokens rest) parents parents := by
  refine .ifAccept alike (fun r r' alike word => ?_) (.pure alike .refl)
  refine (Together.identifier _ alike).bind fun name r₁ r' alike named => ?_
  refine (moreInterfaces_plain [] alike).bind fun names r₂ r' alike more => .pure alike ?_
  exact (plain_of_next rfl word).trans ((plain_of_next rfl named).trans more)

theorem interfaces_plain (names : List Name) (alike : s.Alike s') :
    Together s s' (fun _ rest => Plain s.tokens rest) (interfaces names) (interfaces names) := by
  refine .ifAccept alike (fun r r' alike word => ?_) (.pure alike .refl)
  refine (interfaceName_plain alike).bind fun name r₁ r' alike named => ?_
  refine (moreInterfaces_plain _ alike).mono fun _ _ more => ?_
  exact (plain_of_next rfl word).trans (named.trans more)

/-- A class up to its opening brace, with its name, the class it extends and its interfaces. -/
def classHead : Parser (String × Option Name × List Name) := do
  iterate modifierRound ()
  match ← kind? with
  | some (.keyword .kwClass) | some (.keyword .kwInterface) | some (.keyword .kwTrait) => advance
  | _ => reject .classKind
  let name ← identifier .className
  let (parent, names) ← parents
  let names ← interfaces names
  expect .leftBrace .classBody
  return (name, parent, names)

theorem classDecl_eq (docComment : Option String) :
    classDecl docComment = classHead >>= fun (name, parent, names) =>
      iterate memberRound [] >>= fun methods =>
        pure ⟨name, docComment, parent, names, methods⟩ := by
  unfold classDecl classHead
  simp only [bind_assoc]
  congr 1
  funext _
  congr 1
  funext k
  split <;> simp only [bind_assoc, pure_bind]

theorem classHead_together (alike : s.Alike s') :
    Together s s' (fun _ rest => Relation.Comp Plain (Next (.symbol .leftBrace)) s.tokens rest)
      classHead classHead := by
  have modified : Together s s' (fun _ rest => Plain s.tokens rest) (iterate modifierRound ())
      (iterate modifierRound ()) :=
    .iterate (fun first second => first.trans second) (fun _ => modifierRound_plain) () alike
  refine modified.bind fun _ r r' alike modifiers => ?_
  refine .kind alike (fun _ => .rejectThen _) fun k ts seen => ?_
  split
  case h_4 => exact .rejectThen _
  all_goals
    rename_i same
    cases same
    refine .advance alike seen fun r₁ r' alike rest => ?_
    refine (Together.identifier _ alike).bind fun name r₂ r' alike named => ?_
    refine (parents_plain alike).bind fun found r₃ r' alike extended => ?_
    refine (interfaces_plain _ alike).bind fun names r₄ r' alike implemented => ?_
    refine (Together.expect _ _ alike).bind fun _ r₅ r' alike brace => .pure alike ?_
    refine ⟨r₄.tokens, modifiers.trans ((plain_of_next rfl (rest ▸ seen)).trans ?_), brace⟩
    exact (plain_of_next rfl named).trans (extended.trans implemented)

theorem leads_of_plain {ts rest : List Token} (h : Plain ts rest) :
    Leads [.classHead] [.classHead] ts rest := by
  induction h with
  | refl => exact .refl _ _
  | tail _ next ih =>
    obtain ⟨t, plain, rfl⟩ := next
    refine ih.trans (.token plain (if_neg fun brace => ?_))
    rw [beq_iff_eq.1 brace] at plain
    cases plain

theorem classDecl_together (docComment : Option String) (alike : s.Alike s') :
    Together s s' (fun _ rest => Leads [.classHead] [.code .statement] s.tokens rest)
      (classDecl docComment) (classDecl docComment) := by
  rw [classDecl_eq]
  refine (classHead_together alike).bind fun _ r r' alike ⟨mid, plain, opened⟩ => ?_
  refine (Together.iterate (fun first later => first.trans_end later)
    (fun methods => memberRound_together methods) [] alike).bind
    fun methods r₁ r' alike ⟨_, last, members, closed⟩ => .pure alike ?_
  obtain ⟨⟨_, lexeme, position⟩, rfl, rfl⟩ := opened
  obtain ⟨⟨_, lexeme', position'⟩, rfl, closed⟩ := closed
  rw [closed] at members
  exact (leads_of_plain plain).trans (.enclosed rfl rfl rfl members rfl rfl rfl)

def InImport (ts rest : List Token) : Prop :=
  ∀ outer, Leads (.imports :: outer) (.imports :: outer) ts rest

theorem InImport.refl (ts : List Token) : InImport ts ts := fun _ => .refl _ _

theorem InImport.trans {ts mid rest : List Token} (first : InImport ts mid)
    (second : InImport mid rest) : InImport ts rest :=
  fun outer => (first outer).trans (second outer)

theorem inImport_of_name {ts rest : List Token} (h : Next .identifier ts rest) :
    InImport ts rest :=
  fun _ => .of_next rfl (fun _ _ => rfl) h

theorem importAlias_together (alike : s.Alike s') :
    Together s s' (fun _ rest => InImport s.tokens rest) importAlias importAlias := by
  refine .ifAccept alike (fun r r' alike word => ?_) (.pure alike (.refl _))
  refine (Together.identifier _ alike).bind fun name r₁ r' alike named => .pure alike ?_
  exact InImport.trans (fun _ => .of_next rfl (fun _ _ => rfl) word) (inImport_of_name named)

theorem commaOrEnd_together {α : Type} {ts : List Token} {elements : List α} (alike : s.Alike s')
    (h : InImport ts s.tokens) :
    Together s s' (Together.Turns InImport InImport ts) (commaOrEnd elements)
      (commaOrEnd elements) := by
  refine .ifAccept alike (fun _ _ alike comma => .pure alike ?_) (.pure alike h)
  exact h.trans fun _ => .of_next rfl (fun _ _ => rfl) comma

theorem groupRound_together (base : String) (imports : List Import) (alike : s.Alike s') :
    Together s s' (Together.Turns InImport InImport s.tokens) (groupRound base imports)
      (groupRound base imports) := by
  refine .ifSees alike (fun _ _ => .pure alike (InImport.refl _)) ?_
  refine (Together.identifier _ alike).bind fun name r r' alike named => ?_
  refine (importAlias_together alike).bind fun alias? r₁ r' alike h₁ => ?_
  exact commaOrEnd_together alike ((inImport_of_name named).trans h₁)

theorem importRound_together (imports : List Import) (alike : s.Alike s') :
    Together s s' (Together.Turns InImport InImport s.tokens) (importRound imports)
      (importRound imports) := by
  refine (Together.identifier _ alike).bind fun name r r' alike named => ?_
  have h₁ := inImport_of_name named
  refine .sees alike fun b brace => ?_
  split
  · rename_i grouped
    obtain ⟨ts, seen⟩ := brace.1 grouped.2
    refine .advance alike seen fun r₁ r' alike rest => ?_
    refine (Together.iterate (fun first later => first.trans later)
      (fun imports => groupRound_together name imports) imports alike).bind
      fun imports r₂ r' alike within => ?_
    refine (Together.expect _ _ alike).bind fun _ r₃ r' alike closed => ?_
    refine .look (p := pure _) (q := pure _) rfl rfl (commaOrEnd_together alike ?_)
    refine h₁.trans fun outer => ?_
    obtain ⟨⟨_, lexeme, position⟩, rfl, opened⟩ := seen
    obtain ⟨⟨_, lexeme', position'⟩, rfl, closed⟩ := closed
    rw [opened, ← rest]
    exact .enclosed rfl rfl rfl (closed ▸ within (.imports :: outer)) rfl rfl rfl
  · refine (importAlias_together alike).bind fun alias? r₁ r' alike h₂ => ?_
    exact .look (p := pure _) (q := pure _) rfl rfl (commaOrEnd_together alike (h₁.trans h₂))

theorem importDecl_together {ts : List Token} (alike : s.Alike s')
    (use : Next (.keyword .kwUse) s.tokens ts) :
    Together s s' (fun _ rest => Leads [.imports] [.code .statement] s.tokens rest) importDecl
      importDecl := by
  refine .advance alike use fun r r' alike rest => ?_
  have begun : Leads [.imports] [.imports] s.tokens r.tokens :=
    .of_next rfl (fun _ _ => rfl) (rest ▸ use)
  refine .sees alike fun b function => .sees alike fun b' const => ?_
  split
  · rename_i other
    refine (Together.passSemicolon alike).bind fun _ r₁ r' alike passed => .pure alike ?_
    have same : Leads [.imports] [.untilSemicolon 0 (.code .statement)] r.tokens r.tokens := by
      rw [Bool.or_eq_true, function, const] at other
      rcases other with ⟨later, word⟩ | ⟨later, word⟩
      · exact .agree_of_next word rfl fun _ _ => rfl
      · exact .agree_of_next word rfl fun _ _ => rfl
    exact begun.trans (same.trans (.untilSemicolon [] passed))
  · refine (Together.iterate (fun first later => first.trans later)
      (fun imports => importRound_together imports) [] alike).bind
      fun imports r₁ r' alike read => ?_
    refine (Together.expect _ _ alike).bind fun _ r₂ r' alike semicolon => .pure alike ?_
    exact begun.trans ((read []).trans (.of_next rfl (fun _ _ => rfl) semicolon))

theorem namespaceEnd_together (name : Option Name) (alike : s.Alike s') :
    Together s s' (fun _ rest => Leads [.namespaceName] [.code .statement] s.tokens rest)
      (namespaceEnd name) (namespaceEnd name) := by
  refine .ifAccept alike (fun r r' alike brace => .pure alike ?_) ?_
  · exact .of_next rfl (fun _ _ => rfl) brace
  · refine (Together.expect _ _ alike).bind fun _ r r' alike semicolon => .pure alike ?_
    exact .of_next rfl (fun _ _ => rfl) semicolon

theorem namespaceDecl_together {ts : List Token} (alike : s.Alike s')
    (word : Next (.keyword .kwNamespace) s.tokens ts) :
    Together s s' (fun _ rest => Leads [.namespaceName] [.code .statement] s.tokens rest)
      namespaceDecl namespaceDecl := by
  refine .advance alike word fun r r' alike rest => ?_
  have begun : Leads [.namespaceName] [.namespaceName] s.tokens r.tokens :=
    .of_next rfl (fun _ _ => rfl) (rest ▸ word)
  have unnamed : ∀ {name : Option Name},
      Together r r' (fun _ rest => Leads [.namespaceName] [.code .statement] s.tokens rest)
        (namespaceEnd name) (namespaceEnd name) := fun {name} =>
    (namespaceEnd_together name alike).mono fun _ _ ended => begun.trans ended
  refine .next alike (fun _ => .look (p := pure _) (q := pure _) rfl rfl unnamed)
    fun t t' ts' same here => ?_
  obtain ⟨k, lexeme, position⟩ := t
  obtain ⟨k', lexeme', position'⟩ := t'
  cases same.kind
  cases k with
  | identifier =>
    cases same.word (Or.inl rfl)
    have seen : Next .identifier r.tokens ts' := ⟨_, rfl, here⟩
    refine .advance alike seen fun r₁ r' alike rest' => ?_
    have named : Leads [.namespaceName] [.namespaceName] r.tokens r₁.tokens :=
      .of_next rfl (fun _ _ => rfl) (rest' ▸ seen)
    exact .look (p := pure _) (q := pure _) rfl rfl
      ((namespaceEnd_together _ alike).mono fun _ _ ended => begun.trans (named.trans ended))
  | _ => exact .look (p := pure _) (q := pure _) rfl rfl unnamed

theorem itemRound_together {kind : TokenKind} {ts : List Token} (p : Progress)
    (alike : s.Alike s') (seen : Next kind s.tokens ts) :
    Together s s' (fun _ rest => InFile s.tokens rest) (itemRound kind p) (itemRound kind p) := by
  have statement : ∀ {p : Progress}, Together s s' (fun _ rest => InFile s.tokens rest)
      (do let _ ← phrases.statement; return p) (do let _ ← phrases.statement; return p) :=
    (statement_together alike).bind fun _ _ _ alike read => .pure alike read
  unfold itemRound
  split
  case h_1 =>
    refine (namespaceDecl_together alike seen).bind fun found r r' alike read => .pure alike ?_
    exact .item seen rfl rfl rfl (fun _ _ => rfl) read
  case h_2 =>
    refine (importDecl_together alike seen).bind fun imports r r' alike read => .pure alike ?_
    exact .item seen rfl rfl rfl (fun _ _ => rfl) read
  case h_3 =>
    refine .advance alike seen fun r r' alike rest => ?_
    refine (Together.passGroup (by decide) alike).bind fun _ r₁ r' alike group => ?_
    refine (Together.expect _ _ alike).bind fun _ r₂ r' alike semicolon => .pure alike ?_
    have header := Leads.holdsAlong.group .parens .statement group semicolon.ne_nil []
    refine .item seen rfl rfl rfl (fun _ _ => rfl) (.trans ?_ (header.trans ?_))
    · exact .of_next rfl (fun _ _ => rfl) (rest ▸ seen)
    · exact .of_next rfl (fun _ _ => rfl) semicolon
  case h_10 =>
    refine .secondKind alike fun o second => ?_
    split
    · rename_i named
      refine (method_together alike seen).bind fun m r r' alike read => .pure alike ?_
      obtain ⟨t, kind, here⟩ := id seen
      have behind : FileSlot.behindItem? (.keyword .kwFunction) ts = some .functionName :=
        if_pos (second t ts here ▸ named)
      exact .item seen behind rfl rfl (fun _ _ => rfl) (read [])
    · exact statement
  case h_11 =>
    refine (Together.passSemicolon alike).bind fun _ r r' alike passed => .pure alike ?_
    exact .item seen rfl rfl rfl (fun _ _ => rfl) (.untilSemicolon [] passed)
  case h_12 =>
    split
    · refine .advance alike seen fun r r' alike rest => .pure alike ?_
      exact Leads.of_next rfl (fun _ _ => rfl) (rest ▸ seen)
    · exact statement
  case h_13 =>
    refine .advance alike seen fun r r' alike rest => .pure alike ?_
    exact Leads.of_next rfl (fun _ _ => rfl) (rest ▸ seen)
  case h_14 => exact statement
  all_goals
    refine (classDecl_together _ alike).bind fun c r r' alike read => .pure alike ?_
    exact .item seen rfl rfl rfl (fun _ _ => rfl) read

theorem fileRound_together (p : Progress) (alike : s.Alike s') :
    Together s s' (Together.Turns InFile (fun ts _ => Delimited ts) s.tokens) (fileRound p)
      (fileRound p) := by
  refine .kind alike (fun ended => .pure alike ?_) fun k ts seen => ?_
  · rw [ended]
    exact ⟨.nil, _, rfl, rfl⟩
  split
  case h_1 =>
    rename_i same
    cases same
  case h_2 =>
    rename_i same
    cases same
    refine .advance alike seen fun r r' alike rest => .pure alike ?_
    exact Leads.of_next rfl (fun _ _ => rfl) (rest ▸ seen)
  case h_3 =>
    rename_i same
    cases same
    exact (Together.passAttribute alike seen).bind fun _ r r' alike passed =>
      .pure alike (InFile.attribute passed)
  case h_4 =>
    rename_i same
    cases same
    exact (itemRound_together p alike seen).bind fun p r r' alike read => .pure alike read

/-- Files are read alike from streams that say the same, and the delimiters of an accepted one are
as they should be. -/
theorem sourceFile_together (alike : s.Alike s') :
    Together s s' (fun _ _ => Delimited s.tokens) sourceFile sourceFile :=
  .iterate (fun first later => first.delimited later) (fun p => fileRound_together p) _ alike

end Grammar

theorem SourceFile.ofText_ok_iff {source : String} {f : SourceFile} :
    SourceFile.ofText source = .ok f ↔
      ∃ s rest, TokenStream.ofText source = .ok s ∧ Grammar.sourceFile s = .ok (f, rest) := by
  unfold SourceFile.ofText
  cases TokenStream.ofText source with
  | error e => simp
  | ok s =>
    cases parsed : Grammar.sourceFile s with
    | error e => simp [parsed, Except.map]
    | ok r =>
      obtain ⟨f', rest⟩ := r
      simp [parsed, Except.map]

/-- An accepted source leaves no delimiter open that counts: each is closed by a later token of its
own, of the matching kind and in the order of nesting. It ends outside of them all, and outside of
the regions in which only levels are counted; but an attribute of the file, or the block of a
`switch` outside of all delimiters, may be open there if the last token closes a level of it. -/
theorem SourceFile.balanced_of_ofText {source : String} {f : SourceFile}
    (accepted : SourceFile.ofText source = .ok f) :
    ∃ s, TokenStream.ofText source = .ok s ∧
      WellNested (delimitersFrom [.code .statement] s.tokens) ∧
      EveryGroupClosed (delimitersFrom [.code .statement] s.tokens) ∧
      EndsFrom [.code .statement] s.tokens := by
  obtain ⟨s, rest, read, parsed⟩ := SourceFile.ofText_ok_iff.1 accepted
  obtain ⟨-, -, -, nested, ends⟩ := (Grammar.sourceFile_together (.refl s)).answer parsed
  exact ⟨s, read, nested, nested.everyGroupClosed, ends⟩

def nestedSource : String :=
  "<?php #[A(1)] class R { function f($x = [1]) { return [g($x[0])]; } }"

theorem SourceFile.balanced_of_ofText_nested :
    ∃ f, SourceFile.ofText nestedSource = .ok f ∧
      ∃ s, TokenStream.ofText nestedSource = .ok s ∧
        WellNested (delimitersFrom [.code .statement] s.tokens) ∧
        EveryGroupClosed (delimitersFrom [.code .statement] s.tokens) ∧
        EndsFrom [.code .statement] s.tokens := by
  have accepted : ∃ f, SourceFile.ofText nestedSource = .ok f := ⟨_, by with_unfolding_all rfl⟩
  obtain ⟨f, accepted⟩ := accepted
  exact ⟨f, accepted, balanced_of_ofText accepted⟩

/-- Neither the attribute nor the parameters have delimiters that count. -/
example : (TokenStream.ofText nestedSource).toOption.map (fun s =>
      (delimitersFrom [.code .statement] s.tokens).map Token.kind) =
    some ([.leftBrace, .leftBrace, .leftBracket, .leftParen, .leftBracket, .rightBracket,
      .rightParen, .rightBracket, .rightBrace, .rightBrace].map TokenKind.symbol) := by
  with_unfolding_all rfl

/-- The tokens of `#[[A]`, behind an open tag. -/
def unclosedAttribute : TokenStream :=
  ⟨[⟨.symbol .attributeOpen, "#[", ⟨1, 7⟩⟩, ⟨.symbol .leftBracket, "[", ⟨1, 9⟩⟩,
    ⟨.identifier, "A", ⟨1, 10⟩⟩, ⟨.symbol .rightBracket, "]", ⟨1, 11⟩⟩], ⟨1, 12⟩⟩

theorem unclosedAttribute_open : ¬EveryGroupClosed unclosedAttribute.tokens := by
  rintro ⟨closer, closes⟩
  have last : ∀ i, unclosedAttribute.tokens[i]?.map Token.kind = some (.symbol .rightBracket) →
      i = 3 := by
    intro i there
    rcases i with _ | _ | _ | _ | i
    case succ.succ.succ.zero => rfl
    all_goals cases there
  obtain ⟨-, there, alone⟩ := closes 0 _ _ rfl rfl
  obtain ⟨-, there', -⟩ := closes 1 _ _ rfl rfl
  have same : 1 = 0 := alone 1 _ _ rfl rfl ((last _ there').trans (last _ there).symm)
  cases same

/-- Where the tokens end, an attribute is taken for closed if the last of them closes a level. -/
theorem SourceFile.accepted_with_unclosed_attribute :
    TokenStream.ofText "<?php #[[A]" = .ok unclosedAttribute ∧
      SourceFile.ofText "<?php #[[A]" = .ok ⟨none, [], []⟩ ∧
      ¬EveryGroupClosed unclosedAttribute.tokens :=
  ⟨by with_unfolding_all rfl, by with_unfolding_all rfl, unclosedAttribute_open⟩

end ResponseShape

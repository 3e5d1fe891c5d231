import ResponseShape.Proofs.Phrases
import ResponseShape.Proofs.Spans
import ResponseShape.Proofs.Together
import ResponseShape.Source.Returns

/-! Reading an expression or a statement depends only on what the tokens say, and what is read is
a part of a body. Main statement: `Grammar.phrases_spanning`. -/
namespace ResponseShape

open ResponseShape.Parser

/-- What a `return` gives back whose keyword stands before the tokens. -/
inductive GivesBack (ts : List Token) : Option Expr → Prop
  | nothing {rest : List Token} : Next (.symbol .semicolon) ts rest → GivesBack ts none
  | value {stop : Position} {e : Expr} {rest : TokenStream} :
      Grammar.expression .lowest ⟨ts, stop⟩ = .ok (e, rest) → GivesBack ts (some e)

/-- The tokens are a part of a body, with returns of these values. -/
def Tells (part : Part) (values : List (Option Expr)) (ts rest : List Token) : Prop :=
  ∃ written, Spans part written ts rest ∧ List.Forall₂ GivesBack written values

namespace Tells

variable {part part' : Part} {values values' : List (Option Expr)} {ts ts' mid rest : List Token}

theorem none (h : Spans part [] ts rest) : Tells part [] ts rest := ⟨[], h, .nil⟩

theorem one {value : Option Expr} (h : Spans part [mid] ts rest) (returns : GivesBack mid value) :
    Tells part [value] ts rest :=
  ⟨[mid], h, .cons returns .nil⟩

theorem imp (h : Tells part values ts rest)
    (next : ∀ written, Spans part written ts rest → Spans part' written ts' mid) :
    Tells part' values ts' mid := by
  obtain ⟨written, spans, returns⟩ := h
  exact ⟨written, next written spans, returns⟩

theorem after (h : Tells .statements values mid rest) (before : Spans .statements [] ts mid) :
    Tells .statements values ts rest :=
  h.imp fun written later =>
    show Spans .statements ([] ++ written) ts rest from .append (by decide) before later

theorem append (among : part ≠ .block) (first : Tells part values ts mid)
    (second : Tells part values' mid rest) : Tells part (values ++ values') ts rest := by
  obtain ⟨written, spans, returns⟩ := first
  obtain ⟨written', spans', returns'⟩ := second
  exact ⟨written ++ written', .append among spans spans', List.rel_append returns returns'⟩

end Tells

theorem returnsOfBody_append (body body' : List Stmt) :
    returnsOfBody (body ++ body') = returnsOfBody body ++ returnsOfBody body' := by
  induction body with
  | nil => rfl
  | cons st body ih => simp only [List.cons_append, returnsOfBody, ih, List.append_assoc]

theorem returnsOfElseIfs_append (elseIfs elseIfs' : List ElseIf) :
    returnsOfElseIfs (elseIfs ++ elseIfs') =
      returnsOfElseIfs elseIfs ++ returnsOfElseIfs elseIfs' := by
  induction elseIfs with
  | nil => rfl
  | cons elseIf elseIfs ih =>
    obtain ⟨e, body⟩ := elseIf
    simp only [List.cons_append, returnsOfElseIfs, ih, List.append_assoc]

abbrev Parser.Spanned {α : Type} (s s' : TokenStream) (p : Parser α) : Prop :=
  Together s s' (fun _ rest => Spans .expression [] s.tokens rest) p p

abbrev SpanTurns {α σ : Type} : List Token → σ ⊕ α → List Token → Prop :=
  Together.Turns (Spans .expression []) (Spans .expression [])

namespace Nested

structure Spanning (N : Nested) : Prop where
  expression : ∀ {s s' : TokenStream} (min : Precedence), s.Alike s' →
    Spanned s s' (N.expression min)
  value : ∀ {s : TokenStream} {r : Expr × TokenStream}, N.expression .lowest s = .ok r →
    Grammar.expression .lowest s = .ok r
  statement : ∀ {s s' : TokenStream}, s.Alike s' →
    Together s s' (fun o rest => Tells .statements (returnsOfBody o.toList) s.tokens rest)
      N.statement N.statement
  more : ∀ {s : TokenStream} {r : Option Stmt × TokenStream}, N.statement s = .ok r →
    s.tokens ≠ []

variable {N : Nested} {s s' : TokenStream}

theorem rounds_spanned {α σ : Type} {round : σ → Parser (σ ⊕ α)}
    (each : ∀ state {r r'}, r.Alike r' →
      Together r r' (SpanTurns r.tokens) (round state) (round state))
    (state : σ) (alike : s.Alike s') : Spanned s s' (iterate round state) :=
  .iterate (fun first second => first.trans second) each state alike

theorem map_spanned {α β : Type} {p : Parser α} (read : Spanned s s' p) (f : α → β) :
    Spanned s s' (f <$> p) :=
  read.map fun _ _ closed => closed

theorem commaOrEnd_spanned {α : Type} {ts : List Token} {elements : List α} (alike : s.Alike s')
    (h : Spans .expression [] ts s.tokens) :
    Together s s' (SpanTurns ts) (commaOrEnd elements) (commaOrEnd elements) :=
  .ifAccept alike (fun _ _ alike comma => .pure alike (h.trans (.token rfl comma)))
    (.pure alike h)

theorem passArgumentName_spanned (alike : s.Alike s') : Spanned s s' passArgumentName := by
  refine .sees alike fun b seen => .secondKind alike fun o second => ?_
  by_cases named : (b && o == some (.symbol .colon)) = true
  · rw [if_pos named]
    rw [Bool.and_eq_true, beq_iff_eq] at named
    obtain ⟨ts, t, kind, h⟩ := seen.1 named.1
    obtain ⟨t', ht', kind'⟩ := Option.map_eq_some_iff.1 ((second t ts h).symm.trans named.2)
    obtain ⟨ts', rfl⟩ := List.head?_eq_some_iff.1 ht'
    refine .advance alike ⟨t, kind, h⟩ fun r r' alike rest => ?_
    refine (Together.pass alike ⟨t', kind', rest⟩).mono fun _ rest' ended => ?_
    rw [h, ended]
    exact (Spans.token rfl ⟨t, kind, rfl⟩).trans (Spans.token rfl ⟨t', kind', rfl⟩)
  · rw [if_neg named]
    exact .pure alike (.refl _)

theorem statementEnd_spanned (expectation : Expectation) (alike : s.Alike s') :
    Together s s' (fun _ rest => Ended s.tokens rest) (statementEnd expectation)
      (statementEnd expectation) := by
  refine .ifAccept alike (fun _ _ alike h => .pure alike (Or.inl h)) ?_
  refine .atEnd alike fun ended known => ?_
  split
  next nothing =>
    have none := known.1 nothing
    exact .pure alike (Or.inr ⟨none, none⟩)
  next => exact .reject _

theorem seesWord_run (word : String) (s : TokenStream) :
    ∃ b, seesWord word s = .ok (b, s) ∧ (b = true ↔ ∃ rest, NextWord [word] s.tokens rest) := by
  unfold seesWord
  rw [bind_ok (p := next?) rfl]
  cases h : s.tokens with
  | nil =>
    refine ⟨false, rfl, nofun, ?_⟩
    rintro ⟨_, _, _, _, ended⟩
    cases ended
  | cons t ts =>
    obtain ⟨k, lexeme, position⟩ := t
    cases k with
    | identifier =>
      refine ⟨_, rfl, ?_⟩
      rw [beq_iff_eq]
      constructor
      · intro same
        exact ⟨ts, ⟨.identifier, lexeme, position⟩, rfl, List.mem_singleton.2 same, rfl⟩
      · rintro ⟨_, _, _, same, whole⟩
        cases whole
        exact List.mem_singleton.1 same
    | _ =>
      refine ⟨false, rfl, nofun, ?_⟩
      rintro ⟨_, _, kind, _, whole⟩
      cases whole
      cases kind

theorem NextWord.alike {words : List String} {ts ts' rest : List Token}
    (alike : List.Forall₂ Token.Alike ts ts') (h : NextWord words ts rest) :
    ∃ rest', NextWord words ts' rest' := by
  obtain ⟨t, kind, word, rfl⟩ := h
  cases alike with
  | cons same _ =>
    refine ⟨_, _, same.kind ▸ kind, ?_, rfl⟩
    rwa [← same.word (Or.inl kind)]

theorem askWord {α : Type} {R : α → List Token → Prop} {f g : Bool → Parser α} (word : String)
    (alike : s.Alike s')
    (more : ∀ b, (b = true ↔ ∃ rest, NextWord [word] s.tokens rest) →
      Together s s' R (f b) (g b)) :
    Together s s' R (seesWord word >>= f) (seesWord word >>= g) :=
  .ask (P := fun ts => ∃ rest, NextWord [word] ts rest) (seesWord_run word)
    (fun same ⟨_, h⟩ => NextWord.alike same h) alike more

def NextCast (ts rest : List Token) : Prop :=
  ∃ t₁ t₂ t₃ : Token, ts = t₁ :: t₂ :: t₃ :: rest ∧ t₁.kind = .symbol .leftParen ∧
    t₂.kind = .identifier ∧ t₃.kind = .symbol .rightParen ∧
    Text.foldCase t₂.lexeme ∈ castTypes

theorem seesCast_run (s : TokenStream) :
    ∃ b, seesCast s = .ok (b, s) ∧ (b = true ↔ ∃ rest, NextCast s.tokens rest) := by
  unfold seesCast
  split
  · rename_i lexeme _ _ _ ts h
    refine ⟨_, rfl, ?_⟩
    rw [List.contains_iff_mem, h]
    constructor
    · intro cast
      exact ⟨ts, _, _, _, rfl, rfl, rfl, rfl, cast⟩
    · rintro ⟨rest, t₁, t₂, t₃, same, -, -, -, cast⟩
      cases same
      exact cast
  · rename_i other
    refine ⟨false, rfl, nofun, ?_⟩
    rintro ⟨rest, ⟨k₁, l₁, p₁⟩, ⟨k₂, l₂, p₂⟩, ⟨k₃, l₃, p₃⟩, h, rfl, rfl, rfl, -⟩
    exact absurd h (other _ _ _ _ _ _ _)

theorem NextCast.alike {ts ts' rest : List Token} (alike : List.Forall₂ Token.Alike ts ts')
    (h : NextCast ts rest) : ∃ rest', NextCast ts' rest' := by
  obtain ⟨t₁, t₂, t₃, rfl, k₁, k₂, k₃, cast⟩ := h
  cases alike with
  | cons same₁ alike =>
    cases alike with
    | cons same₂ alike =>
      cases alike with
      | cons same₃ alike =>
        refine ⟨_, _, _, _, rfl, same₁.kind ▸ k₁, same₂.kind ▸ k₂, same₃.kind ▸ k₃, ?_⟩
        rwa [← same₂.word (Or.inl k₂)]

theorem askCast {α : Type} {R : α → List Token → Prop} {f g : Bool → Parser α}
    (alike : s.Alike s')
    (more : ∀ b, (b = true ↔ ∃ rest, NextCast s.tokens rest) → Together s s' R (f b) (g b)) :
    Together s s' R (seesCast >>= f) (seesCast >>= g) :=
  .ask (P := fun ts => ∃ rest, NextCast ts rest) seesCast_run (fun same ⟨_, h⟩ => h.alike same)
    alike more

theorem isInert_of_infix {k : TokenKind} {o : Infix} (infix' : Infix.ofKind? k = some o) :
    k.isInert = true := by
  unfold Infix.ofKind? at infix'
  split at infix' <;> first | rfl | cases infix'

theorem primary_begins {e : Expr} {r : TokenStream} (run : N.primary s = .ok (e, r)) :
    ∃ k later, Next k s.tokens later ∧ k.beginsExpression = true := by
  obtain ⟨tokens, stop⟩ := s
  cases tokens with
  | nil => cases run
  | cons t ts =>
    obtain ⟨k, lexeme, position⟩ := t
    refine ⟨k, ts, ⟨_, rfl, rfl⟩, ?_⟩
    obtain ⟨_, _, first, later⟩ := exists_of_bind_ok run
    cases first
    dsimp only [List.head?_cons] at later
    split at later
    case h_12 => cases later
    all_goals rfl

theorem operand_begins {e : Expr} {r : TokenStream} (run : N.operand s = .ok (e, r)) :
    ∃ k later, Next k s.tokens later ∧ k.beginsExpression = true := by
  obtain ⟨_, s₁, first, later⟩ := exists_of_bind_ok run
  cases first
  have starts : ∀ {k : TokenKind}, s.tokens.head?.map Token.kind = some k →
      k.beginsExpression = true → ∃ k later, Next k s.tokens later ∧ k.beginsExpression = true := by
    intro k seen begins
    obtain ⟨t, first, kind⟩ := Option.map_eq_some_iff.1 seen
    obtain ⟨ts, here⟩ := List.head?_eq_some_iff.1 first
    exact ⟨k, ts, ⟨t, kind, here⟩, begins⟩
  generalize sign : s.tokens.head?.map Token.kind = k at later
  split at later
  case h_1 | h_2 | h_3 | h_4 => exact starts sign rfl
  · obtain ⟨cast, here, known⟩ := seesCast_run s
    rw [bind_ok here] at later
    split at later
    · rename_i casts
      obtain ⟨rest, t₁, t₂, t₃, tokens, kind, -⟩ := known.1 casts
      exact ⟨_, _, ⟨t₁, kind, tokens⟩, rfl⟩
    · obtain ⟨target, s₂, primary, -⟩ := exists_of_bind_ok later
      exact primary_begins primary

theorem expression_begins {e : Expr} {r : TokenStream}
    (run : Grammar.expression .lowest s = .ok (e, r)) :
    ∃ k later, Next k s.tokens later ∧ k.beginsExpression = true := by
  rw [Grammar.expression_eq] at run
  obtain ⟨lhs, s₁, first, -⟩ := exists_of_bind_ok run
  exact operand_begins first

namespace Spanning

variable (h : N.Spanning)

include h

theorem anyExpression (alike : s.Alike s') : Spanned s s' N.anyExpression :=
  h.expression _ alike

theorem arrayItem (alike : s.Alike s') : Spanned s s' N.arrayItem := by
  refine .ifAccept alike (fun r r' alike ellipsis => ?_) ?_
  · refine (h.anyExpression alike).bind fun value r r' alike h₁ => .pure alike ?_
    exact (Spans.token rfl ellipsis).trans h₁
  refine (Together.mark _ alike).bind fun _ r r' alike mark => ?_
  have h₁ := Spans.optionally rfl mark
  refine (h.anyExpression alike).bind fun first r r' alike h₂ => ?_
  refine .ifAccept alike (fun r r' alike arrow => ?_) (.pure alike (h₁.trans h₂))
  refine (Together.mark _ alike).bind fun _ r r' alike mark' => ?_
  have h₃ := Spans.optionally rfl mark'
  refine (h.anyExpression alike).bind fun value r r' alike h₄ => .pure alike ?_
  exact h₁.trans (h₂.trans ((Spans.token rfl arrow).trans (h₃.trans h₄)))

theorem arrayRound (closing : Symbol) (items : List ArrayItem) (alike : s.Alike s') :
    Together s s' (SpanTurns s.tokens) (N.arrayRound closing items)
      (N.arrayRound closing items) := by
  refine .ifSees alike (fun _ _ => .pure alike (Spans.refl _)) ?_
  refine .ifAccept alike (fun r r' alike comma => .pure alike (Spans.token rfl comma)) ?_
  refine (h.arrayItem alike).bind fun item r r' alike h₁ => ?_
  exact commaOrEnd_spanned alike h₁

theorem arrayItems (closing : Symbol) (alike : s.Alike s') :
    Together s s'
      (fun _ rest => ∃ last, Spans .expression [] s.tokens last ∧ Next (.symbol closing) last rest)
      (N.arrayItems closing) (N.arrayItems closing) := by
  refine (rounds_spanned (fun items => h.arrayRound closing items) [] alike).bind
    fun items r r' alike h₁ => ?_
  refine (Together.expect _ _ alike).bind fun _ r₂ r' alike h₂ => .pure alike ?_
  exact ⟨r.tokens, h₁, h₂⟩

theorem argumentRound (args : List Expr) (alike : s.Alike s') :
    Together s s' (SpanTurns s.tokens) (N.argumentRound args)
      (N.argumentRound args) := by
  have argument : ∀ {ts : List Token} {r r' : TokenStream}, r.Alike r' →
      Spans .expression [] ts r.tokens →
      Together r r' (SpanTurns ts)
        (do passArgumentName; commaOrEnd (args ++ [← N.anyExpression]))
        (do passArgumentName; commaOrEnd (args ++ [← N.anyExpression])) := by
    intro ts r r' alike before
    refine (passArgumentName_spanned alike).bind fun _ r r' alike h₁ => ?_
    refine (h.anyExpression alike).bind fun arg r r' alike h₂ => ?_
    exact commaOrEnd_spanned alike (before.trans (h₁.trans h₂))
  refine .ifSees alike (fun _ _ => .pure alike (Spans.refl _)) ?_
  refine .ifAccept alike (fun r r' alike ellipsis => ?_) (argument alike (.refl _))
  have h₁ := Spans.token rfl ellipsis
  exact .ifSees alike (fun _ _ => .pure alike h₁) (argument alike h₁)

theorem arguments (alike : s.Alike s') : Spanned s s' N.arguments := by
  refine (Together.expect _ _ alike).bind fun _ r r' alike opened => ?_
  refine (rounds_spanned (fun args => h.argumentRound args) [] alike).bind
    fun args r r' alike h₁ => ?_
  refine (Together.expect _ _ alike).bind fun _ r r' alike closed => .pure alike ?_
  exact .grouped (by decide) opened h₁ closed

theorem callOrEnd {ts : List Token} (call : List Expr → Expr) (e : Expr) (alike : s.Alike s')
    (before : Spans .expression [] ts s.tokens) :
    Together s s' (fun _ rest => Spans .expression [] ts rest)
      (do if ← seesSymbol .leftParen then return call (← N.arguments)
          return e)
      (do if ← seesSymbol .leftParen then return call (← N.arguments)
          return e) := by
  refine .ifSees alike (fun _ _ => ?_) (.pure alike before)
  exact (h.arguments alike).bind fun args r r' alike h₁ => .pure alike (before.trans h₁)

theorem construction {ts : List Token} (alike : s.Alike s')
    (new : Next (.keyword .kwNew) s.tokens ts) : Spanned s s' N.construction := by
  refine .advance alike new fun r r' alike rest => ?_
  have h₁ := Spans.token rfl (rest ▸ new)
  refine .next alike (fun _ => .rejectThen _) fun t t' ts' same here => ?_
  obtain ⟨k, lexeme, position⟩ := t
  obtain ⟨k', lexeme', position'⟩ := t'
  cases same.kind
  cases k with
  | identifier =>
    cases same.word (Or.inl rfl)
    refine .advance alike ⟨_, rfl, here⟩ fun r₁ r' alike rest => ?_
    have h₂ : Spans .expression [] r.tokens r₁.tokens := Spans.token rfl ⟨_, rfl, rest ▸ here⟩
    exact .look (p := pure _) (q := pure _) rfl rfl (h.callOrEnd _ _ alike (h₁.trans h₂))
  | keyword kw =>
    cases kw with
    | kwStatic =>
      refine .advance alike ⟨_, rfl, here⟩ fun r₁ r' alike rest => ?_
      have h₂ : Spans .expression [] r.tokens r₁.tokens := Spans.token rfl ⟨_, rfl, rest ▸ here⟩
      exact .look (p := pure _) (q := pure _) rfl rfl (h.callOrEnd _ _ alike (h₁.trans h₂))
    | _ => exact .rejectThen _
  | _ => exact .rejectThen _

theorem arrowFunction {ts : List Token} (alike : s.Alike s')
    (fn : Next (.keyword .kwFn) s.tokens ts) : Spanned s s' N.arrowFunction := by
  refine .advance alike fn fun r r' alike rest => ?_
  refine (Together.mark _ alike).bind fun _ r₁ r' alike mark => ?_
  refine (Together.parameters alike).bind fun params r₂ r' alike passed => ?_
  refine (Together.passReturnType alike).bind fun _ r₃ r' alike returned => ?_
  have signature : Signature .kwFn s.tokens r₃.tokens :=
    ⟨r.tokens, rest ▸ fn, r₁.tokens, mark, r₂.tokens, passed, r₂.tokens, Or.inr rfl, returned⟩
  refine (Together.expect _ _ alike).bind fun _ r r' alike arrow => ?_
  refine (h.anyExpression alike).bind fun body r r' alike h₁ => .pure alike ?_
  exact (Spans.arrow ⟨r₃.tokens, signature, arrow⟩).trans h₁

theorem blockRound {ts : List Token} (body : List Stmt) (alike : s.Alike s')
    (before : Tells .statements (returnsOfBody body) ts s.tokens) :
    Together s s'
      (Together.Goes (fun body rest => Tells .statements (returnsOfBody body) ts rest)
        fun body rest => ∃ last, Tells .statements (returnsOfBody body) ts last ∧
          Next (.symbol .rightBrace) last rest)
      (N.blockRound body) (N.blockRound body) := by
  refine .ifAccept alike (fun r r' alike closed => .pure alike ⟨s.tokens, before, closed⟩) ?_
  refine .atEnd alike fun ended _ => ?_
  split
  · exact .rejectThen _
  · refine (h.statement alike).bind fun o r r' alike one => .pure alike ?_
    show Tells .statements (returnsOfBody (body ++ o.toList)) ts r.tokens
    rw [returnsOfBody_append]
    exact before.append (by decide) one

theorem block (alike : s.Alike s') :
    Together s s' (fun body rest => Tells .block (returnsOfBody body) s.tokens rest) N.block
      N.block := by
  refine (Together.expect _ _ alike).bind fun _ r r' alike opened => ?_
  have empty : Tells .statements (returnsOfBody []) r.tokens r.tokens :=
    .none (.nothing _ (by decide))
  refine (Together.rounds (fun body => h.blockRound body) [] alike empty).mono ?_
  rintro body rest ⟨last, told, closed⟩
  exact told.imp fun written within => .block opened within closed

theorem closure {ts : List Token} (alike : s.Alike s')
    (function : Next (.keyword .kwFunction) s.tokens ts) : Spanned s s' N.closure := by
  have ended : ∀ (params : List String) {r r' : TokenStream}, r.Alike r' →
      (∀ rest, Optionally PassedReturnType r.tokens rest → Signature .kwFunction s.tokens rest) →
      Together r r' (fun _ rest => Spans .expression [] s.tokens rest)
        (passReturnType >>= fun _ => N.block >>= fun body => pure (Expr.closure params body))
        (passReturnType >>= fun _ => N.block >>= fun body => pure (Expr.closure params body)) := by
    intro params r r' alike signature
    refine (Together.passReturnType alike).bind fun _ r₁ r' alike returned => ?_
    refine (h.block alike).bind fun body r₂ r' alike told => .pure alike ?_
    obtain ⟨written, spans, -⟩ := told
    exact .closure (signature _ returned) spans
  refine .advance alike function fun r r' alike rest => ?_
  refine (Together.mark _ alike).bind fun _ r₁ r' alike mark => ?_
  refine (Together.parameters alike).bind fun params r₂ r' alike passed => ?_
  refine .ifAccept alike (fun r₃ r' alike use => ?_) (ended params alike fun last returned => ?_)
  · refine (Together.passGroup (by decide) alike).bind fun _ r₄ r' alike group => ?_
    refine ended params alike fun last returned => ?_
    exact ⟨r.tokens, rest ▸ function, r₁.tokens, mark, r₂.tokens, passed, r₄.tokens,
      Or.inl ⟨r₃.tokens, use, group⟩, returned⟩
  · exact ⟨r.tokens, rest ▸ function, r₁.tokens, mark, r₂.tokens, passed, r₂.tokens, Or.inr rfl,
      returned⟩

theorem wordExpression (lexeme : String) (alike : s.Alike s') :
    Spanned s s' (N.wordExpression lexeme) := by
  unfold Parser.Spanned Nested.wordExpression
  split
  · exact .pure alike (.refl _)
  · exact .pure alike (.refl _)
  · exact .pure alike (.refl _)
  · refine .ifAccept alike (fun r r' alike opened => ?_) (.pure alike (.refl _))
    refine (h.arrayItems _ alike).mono ?_
    rintro items rest ⟨last, h₁, closed⟩
    exact .grouped (by decide) opened h₁ closed
  · exact .pure alike (.refl _)

theorem primary (alike : s.Alike s') : Spanned s s' N.primary := by
  refine .next alike (fun _ => trivial) fun t t' ts same here => ?_
  obtain ⟨k, lexeme, position⟩ := t
  obtain ⟨k', lexeme', position'⟩ := t'
  cases same.kind
  have seen : Next k s.tokens ts := ⟨_, rfl, here⟩
  have atom : ∀ {e : Expr}, k.isInert = true →
      Together s s' (fun _ rest => Spans .expression [] s.tokens rest) (do advance; return e)
        (do advance; return e) := fun inert =>
    .advance alike seen fun r r' alike rest => .pure alike (.token inert (rest ▸ seen))
  cases k with
  | string value => exact atom rfl
  | interpolated raw => exact atom rfl
  | number value => exact atom rfl
  | var name => exact atom rfl
  | identifier =>
    cases same.word (Or.inl rfl)
    refine .advance alike seen fun r r' alike rest => ?_
    refine (h.wordExpression lexeme alike).mono fun e rest' h₁ => ?_
    exact (Spans.token rfl (rest ▸ seen)).trans h₁
  | docComment text => exact .failAt _ _ _ _
  | keyword kw =>
    cases kw with
    | kwNew => exact h.construction alike seen
    | kwFn => exact h.arrowFunction alike seen
    | kwFunction => exact h.closure alike seen
    | kwStatic =>
      refine .advance alike seen fun r r' alike rest => ?_
      have h₁ := Spans.token rfl (rest ▸ seen)
      refine .ifSees alike (fun _ fn => ?_) (.ifSees alike (fun _ function => ?_) ?_)
      · exact (h.arrowFunction alike fn).mono fun _ _ h₂ => h₁.trans h₂
      · exact (h.closure alike function).mono fun _ _ h₂ => h₁.trans h₂
      · exact .pure alike h₁
    | _ => exact .failAt _ _ _ _
  | symbol x =>
    cases x with
    | leftBracket =>
      refine .advance alike seen fun r r' alike rest => (h.arrayItems _ alike).mono ?_
      rintro items rest' ⟨last, h₁, closed⟩
      exact .grouped (by decide) (rest ▸ seen) h₁ closed
    | leftParen =>
      refine .advance alike seen fun r r' alike rest => ?_
      refine (h.anyExpression alike).bind fun inner r₁ r' alike h₁ => ?_
      refine (Together.expect _ _ alike).bind fun _ r r' alike closed => .pure alike ?_
      exact .grouped (by decide) (rest ▸ seen) h₁ closed
    | _ => exact .failAt _ _ _ _

theorem memberAccess {k : TokenKind} {ts : List Token} (target : Expr) (nullsafe : Bool)
    (opens : k.opensMember = true) (alike : s.Alike s') (arrow : Next k s.tokens ts) :
    Spanned s s' (N.memberAccess target nullsafe) := by
  refine .advance alike arrow fun r r' alike rest => ?_
  refine (Together.memberName _ alike).bind fun name r₁ r' alike named => ?_
  have h₁ : Spans .expression [] s.tokens r₁.tokens :=
    .member opens ⟨r.tokens, rest ▸ arrow, named⟩
  exact h.callOrEnd (fun args => .methodCall target name args nullsafe) _ alike h₁

theorem staticAccess {ts : List Token} (target : Expr) (alike : s.Alike s')
    (colons : Next (.symbol .doubleColon) s.tokens ts) :
    Spanned s s' (N.staticAccess target) := by
  cases target with
  | constant owner =>
    refine .advance alike colons fun r r' alike rest => ?_
    refine (Together.memberName _ alike).bind fun name r₁ r' alike named => ?_
    have h₁ : Spans .expression [] s.tokens r₁.tokens :=
      .member rfl ⟨r.tokens, rest ▸ colons, named⟩
    exact h.callOrEnd (.staticCall owner name) _ alike h₁
  | _ => exact .reject _

theorem indexing {ts : List Token} (target : Expr) (alike : s.Alike s')
    (opened : Next (.symbol .leftBracket) s.tokens ts) : Spanned s s' (N.indexing target) := by
  refine .advance alike opened fun r r' alike rest => .ifSees alike (fun _ _ => ?_) ?_
  · refine .look (p := pure _) (q := pure _) rfl rfl ?_
    refine (Together.expect _ _ alike).bind fun _ r₁ r' alike closed => .pure alike ?_
    exact .grouped (by decide) (rest ▸ opened) (.refl _) closed
  · refine (map_spanned (h.anyExpression alike) some).bind fun index r₁ r' alike h₁ => ?_
    refine (Together.expect _ _ alike).bind fun _ r₂ r' alike closed => .pure alike ?_
    exact .grouped (by decide) (rest ▸ opened) h₁ closed

theorem suffixRound (target : Expr) (alike : s.Alike s') :
    Together s s' (SpanTurns s.tokens) (N.suffixRound target)
      (N.suffixRound target) := by
  have again : ∀ {p : Parser Expr}, Spanned s s' p →
      Together s s' (SpanTurns s.tokens)
        (do return .inl (← p) : Parser (Expr ⊕ Expr)) (do return .inl (← p)) :=
    fun read => read.bind fun e r r' alike h₁ => .pure alike h₁
  refine .kind alike (fun _ => .pure alike (Spans.refl _)) fun k ts seen => ?_
  split
  case h_6 => exact .pure alike (Spans.refl _)
  all_goals
    rename_i same
    cases same
  · exact again (h.memberAccess target false rfl alike seen)
  · exact again (h.memberAccess target true rfl alike seen)
  · exact again (h.staticAccess target alike seen)
  · exact (h.arguments alike).bind fun args r r' alike h₁ => .pure alike h₁
  · exact again (h.indexing target alike seen)

theorem operand (alike : s.Alike s') : Spanned s s' N.operand := by
  refine .kind alike (fun _ => ?ended) fun k ts seen => ?next
  case' next =>
    split
    case h_1 | h_2 =>
      rename_i same
      cases same
      refine .advance alike seen fun r r' alike rest => ?_
      refine (h.expression _ alike).bind fun e r₁ r' alike h₁ => .pure alike ?_
      exact (Spans.token rfl (rest ▸ seen)).trans h₁
    case h_3 | h_4 =>
      rename_i same
      cases same
      refine .advance alike seen fun r r' alike rest => ?_
      exact (h.expression _ alike).mono fun e _ h₁ => (Spans.token rfl (rest ▸ seen)).trans h₁
  -- no sign of an operator is next: a cast or a plain operand
  all_goals
    refine askCast alike fun b cast => ?_
    split
    · rename_i casts
      obtain ⟨ts, t₁, t₂, t₃, here, k₁, k₂, k₃, -⟩ := cast.1 casts
      refine .advance alike ⟨t₁, k₁, here⟩ fun r₁ r' alike h₁ => ?_
      refine .advance alike ⟨t₂, k₂, h₁⟩ fun r₂ r' alike h₂ => ?_
      refine .advance alike ⟨t₃, k₃, h₂⟩ fun r₃ r' alike h₃ => ?_
      refine (h.expression _ alike).mono fun e _ h₄ => ?_
      rw [here]
      refine Spans.trans ?_ (h₃ ▸ h₄)
      exact .grouped (s := .leftParen) (by decide) ⟨t₁, k₁, rfl⟩ (.token rfl ⟨t₂, k₂, rfl⟩)
        ⟨t₃, k₃, rfl⟩
    · refine (h.primary alike).bind fun e r r' alike h₁ => ?_
      refine (rounds_spanned (fun target => h.suffixRound target) e alike).mono ?_
      exact fun _ _ h₂ => h₁.trans h₂

theorem rightPart (lhs : Expr) (o : Infix) (alike : s.Alike s') :
    Spanned s s' (N.rightPart lhs o) := by
  cases o with
  | assign =>
    refine (Together.mark _ alike).bind fun _ r r' alike mark => ?_
    refine (h.anyExpression alike).bind fun value r₁ r' alike h₁ => .pure alike ?_
    exact (Spans.optionally rfl mark).trans h₁
  | ternary =>
    refine .ifSees alike (fun _ _ => ?_) ?_
    · refine .look (p := pure _) (q := pure _) rfl rfl ?_
      refine (Together.expect _ _ alike).bind fun _ r r' alike colon => ?_
      refine (h.expression _ alike).bind fun otherwise r₁ r' alike h₁ => .pure alike ?_
      exact (Spans.token rfl colon).trans h₁
    · refine (map_spanned (h.anyExpression alike) some).bind fun middle r r' alike h₁ => ?_
      refine (Together.expect _ _ alike).bind fun _ r₁ r' alike colon => ?_
      refine (h.expression _ alike).bind fun otherwise r₂ r' alike h₂ => .pure alike ?_
      exact h₁.trans ((Spans.token rfl colon).trans h₂)
  | binary op =>
    exact (h.expression _ alike).bind fun rhs r r' alike h₁ => .pure alike h₁

theorem operatorRound (min : Precedence) (lhs : Expr) (alike : s.Alike s') :
    Together s s' (SpanTurns s.tokens) (N.operatorRound min lhs)
      (N.operatorRound min lhs) := by
  refine .kind alike (fun _ => .pure alike (Spans.refl _)) fun k ts seen => ?_
  split
  · exact .pure alike (Spans.refl _)
  · rename_i o known
    have inert := isInert_of_infix known
    split
    · refine .advance alike seen fun r r' alike rest => ?_
      refine (h.rightPart lhs o alike).bind fun e r₁ r' alike h₁ => .pure alike ?_
      exact (Spans.token inert (rest ▸ seen)).trans h₁
    · exact .pure alike (Spans.refl _)

theorem expressionAt (min : Precedence) (alike : s.Alike s') :
    Spanned s s' (N.expressionAt min) := by
  refine (h.operand alike).bind fun e r r' alike h₁ => ?_
  refine (rounds_spanned (fun lhs => h.operatorRound min lhs) e alike).mono ?_
  exact fun _ _ h₂ => h₁.trans h₂

theorem valued (alike : s.Alike s') :
    Together s s' (fun e rest => Spans .expression [] s.tokens rest ∧ GivesBack s.tokens (some e) ∧
      ∃ k later, Next k s.tokens later ∧ k.beginsExpression = true) N.anyExpression
      N.anyExpression := by
  refine (h.anyExpression alike).with_run.mono fun e rest ⟨spans, stop, run⟩ => ?_
  have value := h.value run
  exact ⟨spans, .value value, expression_begins value⟩

theorem body (alike : s.Alike s') :
    Together s s' (fun body rest => Tells .statements (returnsOfBody body) s.tokens rest) N.body
      N.body := by
  refine .ifSees alike (fun _ _ => ?_) ?_
  · exact (h.block alike).mono fun body rest told => told.imp fun _ => .nested
  · exact (h.statement alike).bind fun o r r' alike told => .pure alike told

theorem body_more {body : List Stmt} {rest : TokenStream} (run : N.body s = .ok (body, rest)) :
    s.tokens ≠ [] := by
  intro ended
  have unseen : seesSymbol .leftBrace s = .ok (false, s) := by
    simp only [seesSymbol, sees, bind_ok (p := kind?) rfl, ended]
    rfl
  unfold Nested.body at run
  rw [bind_ok unseen] at run
  obtain ⟨o, _, read, -⟩ := exists_of_bind_ok run
  exact h.more read ended

theorem returnStatement {ts : List Token} (alike : s.Alike s')
    (ret : Next (.keyword .kwReturn) s.tokens ts) :
    Together s s' (fun st rest => Tells .statements st.returns s.tokens rest) N.returnStatement
      N.returnStatement := by
  refine .advance alike ret fun r r' alike rest => ?_
  rw [← rest] at ret
  refine .ifAccept alike (fun r₁ r' alike semicolon => .pure alike ?_) ?_
  · exact .one (.ret ret (.refl _) (Or.inl semicolon)) (.nothing semicolon)
  · refine (h.valued alike).bind fun value r₁ r' alike ⟨spans, returns, _⟩ => ?_
    refine (statementEnd_spanned _ alike).bind fun _ r₂ r' alike ended => .pure alike ?_
    exact .one (.ret ret spans ended) returns

theorem condition (alike : s.Alike s') :
    Together s s' (fun _ rest => ∃ inner last, Next (.symbol .leftParen) s.tokens inner ∧
      Spans .expression [] inner last ∧ Next (.symbol .rightParen) last rest) N.condition
      N.condition := by
  refine (Together.expect _ _ alike).bind fun _ r r' alike opened => ?_
  refine (h.anyExpression alike).bind fun e r₁ r' alike within => ?_
  refine (Together.expect _ _ alike).bind fun _ r₂ r' alike closed => .pure alike ?_
  exact ⟨r.tokens, r₁.tokens, opened, within, closed⟩

theorem elseRound {ts : List Token} (elseIfs : List ElseIf) (alike : s.Alike s')
    (before : Tells .statements (returnsOfElseIfs elseIfs) ts s.tokens) :
    Together s s'
      (Together.Goes (fun elseIfs rest => Tells .statements (returnsOfElseIfs elseIfs) ts rest)
        fun r rest => Tells .statements
          (returnsOfElseIfs r.1 ++ r.2.elim [] returnsOfBody) ts rest)
      (N.elseRound elseIfs) (N.elseRound elseIfs) := by
  refine .ifAccept alike (fun r r' alike word => ?_)
    (.ifAccept alike (fun r r' alike word => ?_) ?_)
  · refine (h.condition alike).bind fun e r₁ r' alike ⟨inner, last, opened, within, closed⟩ => ?_
    refine (h.body alike).bind fun body r₂ r' alike told => .pure alike ?_
    have header : Spans .statements [] s.tokens r₁.tokens :=
      .condition (by decide) word opened within closed
    show Tells .statements (returnsOfElseIfs (elseIfs ++ [⟨e, body⟩])) ts r₂.tokens
    rw [returnsOfElseIfs_append]
    refine before.append (by decide) ?_
    simpa [returnsOfElseIfs] using told.after header
  · refine (h.body alike).bind fun body r₁ r' alike told => .pure alike ?_
    exact before.append (by decide) (told.after (.otherwise word))
  · refine .pure alike ?_
    simpa [Together.Goes] using before

theorem ifStatement {ts : List Token} (alike : s.Alike s')
    (word : Next (.keyword .kwIf) s.tokens ts) :
    Together s s' (fun st rest => Tells .statements st.returns s.tokens rest) N.ifStatement
      N.ifStatement := by
  refine .advance alike word fun r r' alike rest => ?_
  refine (h.condition alike).bind fun e r₁ r' alike ⟨inner, last, opened, within, closed⟩ => ?_
  have header : Spans .statements [] s.tokens r₁.tokens :=
    .condition (by decide) (rest ▸ word) opened within closed
  refine (h.body alike).bind fun body r₂ r' alike told => ?_
  have empty : Tells .statements (returnsOfElseIfs []) r₂.tokens r₂.tokens :=
    .none (.nothing _ (by decide))
  refine (Together.rounds (fun elseIfs => h.elseRound elseIfs) [] alike empty).bind
    fun found r₃ r' alike later => .pure alike ?_
  have whole := (told.after header).append (by decide) later
  obtain ⟨elseIfs, _ | otherwise⟩ := found
  · simpa [Stmt.returns] using whole
  · simpa [Stmt.returns] using whole

theorem foreachTarget (alike : s.Alike s') : Spanned s s' N.foreachTarget := by
  refine (Together.mark _ alike).bind fun _ r r' alike mark => ?_
  refine (h.anyExpression alike).mono fun e _ h₁ => ?_
  exact (Spans.optionally rfl mark).trans h₁

theorem foreachStatement {ts : List Token} (alike : s.Alike s')
    (word : Next (.keyword .kwForeach) s.tokens ts) :
    Together s s' (fun st rest => Tells .statements st.returns s.tokens rest) N.foreachStatement
      N.foreachStatement := by
  refine .advance alike word fun r r' alike rest => ?_
  refine (Together.expect _ _ alike).bind fun _ r₁ r' alike opened => ?_
  refine (h.anyExpression alike).bind fun subject r₂ r' alike h₁ => ?_
  refine .ifAccept alike (fun r₃ r' alike as => ?_) (.reject _)
  refine (h.foreachTarget alike).bind fun first r₄ r' alike h₂ => ?_
  have header := h₁.trans ((Spans.token rfl as).trans h₂)
  refine .ifAccept alike (fun r₅ r' alike arrow => ?_)
    (.look (p := pure _) (q := pure _) rfl rfl ?_)
  · refine (h.foreachTarget alike).bind fun value r₆ r' alike h₃ => ?_
    refine .look (p := pure _) (q := pure _) rfl rfl ?_
    refine (Together.expect _ _ alike).bind fun _ r₇ r' alike closed => ?_
    refine (h.body alike).bind fun body r₈ r' alike told => .pure alike ?_
    have whole := header.trans ((Spans.token rfl arrow).trans h₃)
    exact told.after (.condition (by decide) (rest ▸ word) opened whole closed)
  · refine (Together.expect _ _ alike).bind fun _ r₅ r' alike closed => ?_
    refine (h.body alike).bind fun body r₆ r' alike told => .pure alike ?_
    exact told.after (.condition (by decide) (rest ▸ word) opened header closed)

theorem loopStatement {ts : List Token} (alike : s.Alike s')
    (word : NextWord ["while", "for"] s.tokens ts) :
    Together s s' (fun st rest => Tells .statements st.returns s.tokens rest) N.loopStatement
      N.loopStatement := by
  obtain ⟨t, kind, named, here⟩ := word
  refine .advance alike ⟨t, kind, here⟩ fun r r' alike rest => ?_
  refine (Together.passGroup (by decide) alike).bind fun _ r₁ r' alike group => ?_
  refine (h.body alike).with_run.bind fun body r₂ r' alike ⟨told, stop, run⟩ => .pure alike ?_
  exact told.after (.loop ⟨r.tokens, ⟨t, kind, named, rest ▸ here⟩, group⟩ (h.body_more run))

omit h in
/-- Behind a block that is tried, with its returns `first`, handlers have been read. -/
def Handles (first : List (Option Expr)) (ts : List Token) (blocks : List Stmt)
    (rest : List Token) : Prop :=
  ∃ values, returnsOfBody blocks = first ++ values ∧ Tells .handlers values ts rest

theorem handlerRound {ts : List Token} {first : List (Option Expr)} (blocks : List Stmt)
    (alike : s.Alike s') (before : Handles first ts blocks s.tokens) :
    Together s s'
      (Together.Goes (Handles first ts) fun blocks rest =>
        Handles first ts blocks rest ∧ ∀ later, ¬NextWord handlerWords rest later)
      (N.handlerRound blocks) (N.handlerRound blocks) := by
  obtain ⟨values, same, told⟩ := before
  have more : ∀ {body : List Stmt} {rest : List Token},
      Tells .handlers (returnsOfBody body) s.tokens rest →
      Handles first ts (blocks ++ [.block body]) rest := by
    intro body rest handler
    refine ⟨values ++ returnsOfBody body, ?_, told.append (by decide) handler⟩
    simp [returnsOfBody_append, returnsOfBody, Stmt.returns, same]
  refine askWord _ alike fun b caught => ?_
  split
  · rename_i catches
    obtain ⟨later, t, kind, named, here⟩ := caught.1 catches
    refine .advance alike ⟨t, kind, here⟩ fun r r' alike rest => ?_
    refine (Together.passGroup (by decide) alike).bind fun _ r₁ r' alike group => ?_
    refine (h.block alike).bind fun body r₂ r' alike block => .pure alike (more ?_)
    exact block.imp fun _ => .caught ⟨r.tokens, ⟨t, kind, named, rest ▸ here⟩, group⟩
  · rename_i noCatch
    refine askWord _ alike fun b last => ?_
    split
    · rename_i finally'
      obtain ⟨later, t, kind, named, here⟩ := last.1 finally'
      refine .advance alike ⟨t, kind, here⟩ fun r r' alike rest => ?_
      refine (h.block alike).bind fun body r₁ r' alike block => .pure alike (more ?_)
      exact block.imp fun _ => .last ⟨t, kind, named, rest ▸ here⟩
    · rename_i noFinally
      refine .pure alike ⟨⟨values, same, told⟩, fun later word => ?_⟩
      obtain ⟨t, kind, named, here⟩ := word
      rcases List.mem_cons.1 named with catches | finally'
      · exact noCatch (caught.2 ⟨later, t, kind, by simp [catches], here⟩)
      · exact noFinally (last.2 ⟨later, t, kind, finally', here⟩)

theorem tryStatement {ts : List Token} (alike : s.Alike s')
    (word : NextWord ["try"] s.tokens ts) :
    Together s s' (fun st rest => Tells .statements st.returns s.tokens rest) N.tryStatement
      N.tryStatement := by
  obtain ⟨t, kind, named, here⟩ := word
  refine .advance alike ⟨t, kind, here⟩ fun r r' alike rest => ?_
  refine (h.block alike).bind fun body r₁ r' alike block => ?_
  have none : Handles (returnsOfBody body) r₁.tokens [.block body] r₁.tokens :=
    ⟨[], by simp [returnsOfBody, Stmt.returns], .none (.nothing _ (by decide))⟩
  refine (Together.rounds (fun blocks => h.handlerRound blocks) [.block body] alike none).bind
    fun blocks r₂ r' alike ⟨⟨values, same, handlers⟩, ended⟩ => .pure alike ?_
  obtain ⟨written, within, returns⟩ := block
  obtain ⟨written', within', returns'⟩ := handlers
  show Tells .statements (returnsOfBody blocks) s.tokens r₂.tokens
  rw [same]
  exact ⟨written ++ written', .tried ⟨t, kind, named, rest ▸ here⟩ within within' ended,
    List.rel_append returns returns'⟩

omit h in
theorem switchStatement {ts : List Token} (alike : s.Alike s')
    (word : NextWord ["switch"] s.tokens ts) :
    Together s s' (fun st rest => Tells .statements st.returns s.tokens rest) switchStatement
      switchStatement := by
  obtain ⟨t, kind, named, here⟩ := word
  refine .advance alike ⟨t, kind, here⟩ fun r r' alike rest => ?_
  refine (Together.passGroup (by decide) alike).bind fun _ r₁ r' alike header => ?_
  refine (Together.passGroup (by decide) alike).bind fun _ r₂ r' alike cases' => .pure alike ?_
  exact .none (.switch ⟨r.tokens, ⟨t, kind, named, rest ▸ here⟩, r₁.tokens, header, cases'⟩)

theorem expressionStatement {ts : List Token} (alike : s.Alike s')
    (before : Spans .expression [] ts s.tokens)
    (begins : (∃ k later, Next k s.tokens later ∧ k.beginsExpression = true) →
      BeginsExpression ts) :
    Together s s' (fun st rest => Tells .statements st.returns ts rest) N.expressionStatement
      N.expressionStatement := by
  refine (h.valued alike).bind fun e r r' alike ⟨spans, _, kind⟩ => ?_
  refine (statementEnd_spanned _ alike).bind fun _ r₁ r' alike ended => .pure alike ?_
  exact .none (.expression (begins kind) (before.trans spans) ended)

theorem wordStatement {t : Token} {ts : List Token} (alike : s.Alike s')
    (kind : t.kind = .identifier) (here : s.tokens = t :: ts) :
    Together s s' (fun st rest => Tells .statements st.returns s.tokens rest)
      (N.wordStatement t.lexeme) (N.wordStatement t.lexeme) := by
  have next : Next .identifier s.tokens ts := ⟨t, kind, here⟩
  have apart : Text.foldCase t.lexeme ∉ blockWords → BeginsExpression s.tokens := by
    intro other
    refine ⟨⟨.identifier, ts, next, rfl⟩, ?_⟩
    rintro later ⟨t', -, word, here'⟩
    cases here.symm.trans here'
    exact other word
  unfold Nested.wordStatement
  split
  case h_1 | h_2 =>
    rename_i word
    exact h.loopStatement alike ⟨t, kind, by simp [word], here⟩
  case h_3 =>
    rename_i word
    exact h.tryStatement alike ⟨t, kind, by simp [word], here⟩
  case h_4 =>
    rename_i word
    exact switchStatement alike ⟨t, kind, by simp [word], here⟩
  case h_5 | h_6 =>
    rename_i word
    have begins := apart (by rw [word]; decide)
    refine .secondKind alike fun o _ => ?_
    split
    · refine .advance alike next fun r r' alike rest => ?_
      exact h.expressionStatement alike (.token rfl (rest ▸ next)) fun _ => begins
    · exact h.expressionStatement alike (.refl _) fun _ => begins
  case h_7 =>
    rename_i noWhile noFor noTry noSwitch _ _
    refine h.expressionStatement alike (.refl _) fun _ => apart ?_
    simp only [blockWords, List.mem_cons, List.not_mem_nil, or_false, not_or]
    exact ⟨noWhile, noFor, noTry, noSwitch⟩

theorem anyStatement (alike : s.Alike s') :
    Together s s' (fun o rest => Tells .statements (returnsOfBody o.toList) s.tokens rest)
      N.anyStatement N.anyStatement := by
  have one : ∀ {p : Parser Stmt},
      Together s s' (fun st rest => Tells .statements st.returns s.tokens rest) p p →
      Together s s' (fun o rest => Tells .statements (returnsOfBody o.toList) s.tokens rest)
        (do return some (← p)) (do return some (← p)) :=
    fun read => read.bind fun st r r' alike told =>
      .pure alike (by simpa [returnsOfBody] using told)
  have plain : (∀ t ts, s.tokens = t :: ts → t.kind ≠ .identifier) →
      Together s s' (fun o rest => Tells .statements (returnsOfBody o.toList) s.tokens rest)
        (do return some (← N.expressionStatement)) (do return some (← N.expressionStatement)) :=
    fun other => one (h.expressionStatement alike (.refl _) fun begins =>
      ⟨begins, fun later ⟨t, kind, _, here⟩ => other t later here kind⟩)
  refine .next alike (fun nothing => plain fun t ts here => ?_) fun t t' ts same here => ?_
  · rw [nothing] at here
    cases here
  obtain ⟨k, lexeme, position⟩ := t
  obtain ⟨k', lexeme', position'⟩ := t'
  cases same.kind
  have seen : Next k s.tokens ts := ⟨_, rfl, here⟩
  have nothing : Spans .statements [] s.tokens ts →
      Together s s' (fun o rest => Tells .statements (returnsOfBody o.toList) s.tokens rest)
        (do advance; return none) (do advance; return none) :=
    fun empty => .advance alike seen fun r r' alike rest => .pure alike (rest ▸ Tells.none empty)
  have plain' : k ≠ .identifier →
      Together s s' (fun o rest => Tells .statements (returnsOfBody o.toList) s.tokens rest)
        (do return some (← N.expressionStatement)) (do return some (← N.expressionStatement)) :=
    fun other => plain fun t ts' here' => by
      cases here.symm.trans here'
      exact other
  cases k with
  | identifier =>
    cases same.word (Or.inl rfl)
    exact one (h.wordStatement (t := ⟨.identifier, lexeme, position⟩) alike rfl here)
  | docComment text => exact nothing (.empty (Or.inr ⟨text, seen⟩))
  | keyword kw =>
    cases kw with
    | kwReturn => exact one (h.returnStatement alike seen)
    | kwIf => exact one (h.ifStatement alike seen)
    | kwForeach => exact one (h.foreachStatement alike seen)
    | _ => exact plain' nofun
  | symbol x =>
    cases x with
    | semicolon => exact nothing (.empty (Or.inl seen))
    | leftBrace =>
      refine (h.block alike).bind fun body r r' alike told => .pure alike ?_
      simpa [returnsOfBody, Stmt.returns] using told.imp fun _ => Spans.nested
    | _ => exact plain' nofun
  | _ => exact plain' nofun

end Spanning

end Nested

namespace Grammar

theorem statement_more {s : TokenStream} {r : Option Stmt × TokenStream}
    (run : statement s = .ok r) : s.tokens ≠ [] := by
  intro ended
  have outcome := ((phrases_agree_below 0 (s.left + 1)).statement (Nat.lt_succ_self _)).outcome
  rw [show phrases.statement s = .ok r from run, TokenStream.left, ended] at outcome
  exact absurd outcome.1 (Nat.not_lt_zero _)

theorem guarded_spanning {n m : Nat}
    (expressions : ∀ {s s' : TokenStream} (min : Precedence), s.Alike s' → s.left < n →
      Spanned s s' (expression min))
    (statements : ∀ {s s' : TokenStream}, s.Alike s' → s.left < m →
      Together s s' (fun o rest => Tells .statements (returnsOfBody o.toList) s.tokens rest)
        statement statement) :
    (guarded n m).Spanning where
  expression min alike := .below n alike (expressions min alike)
  value {s r} run := by
    unfold guarded below at run
    dsimp only at run
    split at run
    · exact run
    · cases run
  statement alike := .below m alike (statements alike)
  more {s r} run := by
    unfold guarded below at run
    dsimp only at run
    split at run
    · exact statement_more run
    · cases run

theorem phrases_spanned (n : Nat) :
    (∀ {s s' : TokenStream} (min : Precedence), s.Alike s' → s.left < n →
      Spanned s s' (expression min)) ∧
    ∀ {s s' : TokenStream}, s.Alike s' → s.left < n →
      Together s s' (fun o rest => Tells .statements (returnsOfBody o.toList) s.tokens rest)
        statement statement := by
  induction n with
  | zero => exact ⟨nofun, nofun⟩
  | succ n ih =>
    -- a statement may begin with an expression that has all its tokens, so expressions go first
    have expressions : ∀ {s s' : TokenStream} (min : Precedence), s.Alike s' → s.left < n + 1 →
        Spanned s s' (expression min) := by
      intro s s' min alike short
      have inner : (guarded s.left s.left).Spanning := guarded_spanning
        (fun min alike fewer => ih.1 min alike (by omega))
        (fun alike fewer => ih.2 alike (by omega))
      unfold Parser.Spanned Together
      rw [expression_run, expression_run, ← alike.left]
      exact inner.expressionAt min alike
    refine ⟨expressions, fun {s s'} alike short => ?_⟩
    have inner : (guarded (s.left + 1) s.left).Spanning := guarded_spanning
      (fun min alike fewer => expressions min alike (by omega))
      (fun alike fewer => ih.2 alike (by omega))
    unfold Together
    rw [statement_run, statement_run, ← alike.left]
    exact inner.anyStatement alike

/-- Expressions and statements of any depth are read alike from streams that say the same, and what
is read of them is a part of a body with their returns. -/
theorem phrases_spanning : phrases.Spanning where
  expression min alike := (phrases_spanned _).1 min alike (Nat.lt_succ_self _)
  value run := run
  statement alike := (phrases_spanned _).2 alike (Nat.lt_succ_self _)
  more := statement_more

end Grammar

end ResponseShape

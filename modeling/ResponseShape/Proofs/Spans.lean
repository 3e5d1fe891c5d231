import ResponseShape.Proofs.Delimiters

/-! What the tokens between two places of a method body are: parts of expressions, statements, and
the handlers behind a `try` block, with the tokens behind each `return` that is a statement of the
body itself. -/
namespace ResponseShape

open Relation (Comp)

namespace TokenKind

def opensMember : TokenKind → Bool
  | .symbol .arrow | .symbol .nullsafeArrow | .symbol .doubleColon => true
  | _ => false

/-- Tokens of expressions that neither begin nor end anything. -/
def isInert (k : TokenKind) : Bool :=
  k.isPlain && !k.opensMember && k != .symbol .semicolon && k != .keyword .kwFunction &&
    k != .keyword .kwFn && k != .keyword .kwReturn

def beginsExpression : TokenKind → Bool
  | string _ | interpolated _ | number _ | var _ | identifier => true
  | keyword .kwNew | keyword .kwFn | keyword .kwFunction | keyword .kwStatic => true
  | symbol .leftParen | symbol .leftBracket => true
  | symbol .bang | symbol .minus | symbol .plus | symbol .atSign => true
  | _ => false

variable {k : TokenKind}

theorem isPlain_of_isInert (h : k.isInert = true) : k.isPlain = true := by
  simp only [isInert, Bool.and_eq_true] at h
  exact h.1.1.1.1.1

theorem isPlain_of_opensMember (h : k.opensMember = true) : k.isPlain = true := by
  unfold opensMember at h
  split at h <;> first | rfl | cases h

end TokenKind

def blockWords : List String := ["while", "for", "try", "switch"]

def handlerWords : List String := ["catch", "finally"]

def Signature (word : Keyword) : List Token → List Token → Prop :=
  Comp (Next (.keyword word)) (Comp (Optionally (Next (.symbol .ampersand)))
    (Comp PassedParameters
      (Comp (Optionally (Comp (Next (.keyword .kwUse)) (PassedGroup .leftParen .rightParen)))
        (Optionally PassedReturnType))))

def Ended (ts rest : List Token) : Prop :=
  Next (.symbol .semicolon) ts rest ∨ ts = [] ∧ rest = []

/-- An expression may begin with the tokens, and they do not begin with a word that begins another
statement. -/
structure BeginsExpression (ts : List Token) : Prop where
  kind : ∃ k later, Next k ts later ∧ k.beginsExpression = true
  word : ∀ later, ¬NextWord blockWords ts later

inductive Part where
  | expression
  | block
  | statements
  | handlers
  deriving DecidableEq

/-- The tokens from one place to another are a part of a body, and `written` are the tokens behind
each `return` in it, but for those in closures and in `switch` blocks. -/
inductive Spans : Part → List (List Token) → List Token → List Token → Prop
  | nothing {part : Part} (ts : List Token) : part ≠ .block → Spans part [] ts ts
  | append {part : Part} {written written' : List (List Token)} {ts mid rest : List Token} :
      part ≠ .block → Spans part written ts mid → Spans part written' mid rest →
      Spans part (written ++ written') ts rest
  | token {k : TokenKind} {ts rest : List Token} :
      k.isInert = true → Next k ts rest → Spans .expression [] ts rest
  | member {k : TokenKind} {ts rest : List Token} :
      k.opensMember = true → Comp (Next k) NextPlain ts rest → Spans .expression [] ts rest
  | grouped {s c : Symbol} {ts inner last rest : List Token} :
      (s, c) ∈ [(Symbol.leftParen, Symbol.rightParen), (.leftBracket, .rightBracket)] →
      Next (.symbol s) ts inner → Spans .expression [] inner last → Next (.symbol c) last rest →
      Spans .expression [] ts rest
  | arrow {ts rest : List Token} :
      Comp (Signature .kwFn) (Next (.symbol .fatArrow)) ts rest → Spans .expression [] ts rest
  | closure {written : List (List Token)} {ts mid rest : List Token} :
      Signature .kwFunction ts mid → Spans .block written mid rest → Spans .expression [] ts rest
  | block {written : List (List Token)} {ts inner last rest : List Token} :
      Next (.symbol .leftBrace) ts inner → Spans .statements written inner last →
      Next (.symbol .rightBrace) last rest → Spans .block written ts rest
  | nested {written : List (List Token)} {ts rest : List Token} :
      Spans .block written ts rest → Spans .statements written ts rest
  | empty {ts rest : List Token} :
      Next (.symbol .semicolon) ts rest ∨ (∃ text, Next (.docComment text) ts rest) →
      Spans .statements [] ts rest
  | expression {ts mid rest : List Token} :
      BeginsExpression ts → Spans .expression [] ts mid → Ended mid rest →
      Spans .statements [] ts rest
  | ret {ts mid last rest : List Token} :
      Next (.keyword .kwReturn) ts mid → Spans .expression [] mid last → Ended last rest →
      Spans .statements [mid] ts rest
  | condition {k : Keyword} {ts mid inner last rest : List Token} :
      k ∈ [Keyword.kwIf, .kwElseIf, .kwForeach] → Next (.keyword k) ts mid →
      Next (.symbol .leftParen) mid inner → Spans .expression [] inner last →
      Next (.symbol .rightParen) last rest → Spans .statements [] ts rest
  | otherwise {ts rest : List Token} :
      Next (.keyword .kwElse) ts rest → Spans .statements [] ts rest
  | loop {ts rest : List Token} :
      Comp (NextWord ["while", "for"]) (PassedGroup .leftParen .rightParen) ts rest → rest ≠ [] →
      Spans .statements [] ts rest
  | switch {ts rest : List Token} :
      Comp (NextWord ["switch"]) (Comp (PassedGroup .leftParen .rightParen)
        (PassedGroup .leftBrace .rightBrace)) ts rest →
      Spans .statements [] ts rest
  | tried {written written' : List (List Token)} {ts mid last rest : List Token} :
      NextWord ["try"] ts mid → Spans .block written mid last →
      Spans .handlers written' last rest → (∀ later, ¬NextWord handlerWords rest later) →
      Spans .statements (written ++ written') ts rest
  | caught {written : List (List Token)} {ts mid rest : List Token} :
      Comp (NextWord ["catch"]) (PassedGroup .leftParen .rightParen) ts mid →
      Spans .block written mid rest → Spans .handlers written ts rest
  | last {written : List (List Token)} {ts mid rest : List Token} :
      NextWord ["finally"] ts mid → Spans .block written mid rest → Spans .handlers written ts rest

namespace Spans

variable {ts mid rest : List Token}

theorem refl (ts : List Token) : Spans .expression [] ts ts := .nothing ts (by decide)

theorem trans (first : Spans .expression [] ts mid) (second : Spans .expression [] mid rest) :
    Spans .expression [] ts rest :=
  show Spans .expression ([] ++ []) ts rest from .append (by decide) first second

theorem optionally {k : TokenKind} (inert : k.isInert = true) (h : Optionally (Next k) ts rest) :
    Spans .expression [] ts rest := by
  rcases h with h | rfl
  · exact .token inert h
  · exact refl ts

end Spans

theorem NextWord.next {words : List String} {ts rest : List Token} (h : NextWord words ts rest) :
    Next .identifier ts rest := by
  obtain ⟨t, kind, -, here⟩ := h
  exact ⟨t, kind, here⟩

/-- A closure or an arrow function has no name. -/
theorem Signature.second {word : Keyword} {ts later rest : List Token}
    (h : Signature word ts rest) (first : Next (.keyword word) ts later) :
    ∀ after, ¬Next .identifier later after := by
  obtain ⟨ts₁, ⟨t, -, rfl⟩, ts₂, mark, ts₃, ⟨inner, opened, -⟩, -⟩ := h
  obtain ⟨t', -, same⟩ := first
  cases same
  intro after name
  rcases mark with mark | rfl
  · cases Next.unique mark name
  · cases Next.unique opened name

theorem Spans.unnamed {ts later rest : List Token} (h : Spans .expression [] ts rest)
    (more : ts ≠ rest) (function : Next (.keyword .kwFunction) ts later) :
    ∀ after, ¬Next .identifier later after := by
  generalize part : Part.expression = p at h
  generalize ([] : List (List Token)) = written at h
  induction h with
  | nothing => exact absurd rfl more
  | @append _ _ _ ts mid _ _ _ _ first second =>
    by_cases same : ts = mid
    · subst same
      exact second more function part
    · exact first same function part
  | token inert next =>
    cases next.unique function
    cases inert
  | member opens next =>
    obtain ⟨_, sign, -⟩ := next
    cases sign.unique function
    cases opens
  | grouped _ opened => cases opened.unique function
  | arrow next =>
    obtain ⟨_, ⟨_, fn, -⟩, -⟩ := next
    cases fn.unique function
  | closure signature => exact signature.second function
  | _ => cases part

end ResponseShape

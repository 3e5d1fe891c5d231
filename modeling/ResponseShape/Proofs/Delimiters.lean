import Mathlib.Logic.Relation
import ResponseShape.Grammar.Declaration

/-! Parts of a token list that are told by where they begin and what they leave: single tokens, and
regions in which only levels of delimiters are counted. -/
namespace ResponseShape

open Relation (Comp)

namespace TokenKind

/-- The delimiter that closes a group. -/
def closing? : TokenKind → Option Symbol
  | .symbol .leftParen => some .rightParen
  | .symbol .leftBracket | .symbol .attributeOpen => some .rightBracket
  | .symbol .leftBrace => some .rightBrace
  | _ => none

/-- No delimiter of groups. -/
def isPlain (k : TokenKind) : Bool := k.closing?.isNone && !Parser.closesLevel k

end TokenKind

/-- One token of a kind stands before the rest. -/
def Next (k : TokenKind) (ts rest : List Token) : Prop := ∃ t : Token, t.kind = k ∧ ts = t :: rest

theorem Next.ne_nil {k : TokenKind} {ts rest : List Token} (h : Next k ts rest) : ts ≠ [] := by
  obtain ⟨t, -, rfl⟩ := h
  exact List.cons_ne_nil t rest

theorem Next.unique {k k' : TokenKind} {ts rest rest' : List Token} (h : Next k ts rest)
    (h' : Next k' ts rest') : k = k' := by
  obtain ⟨t, rfl, rfl⟩ := h
  obtain ⟨t', rfl, same⟩ := h'
  cases same
  rfl

/-- One of a few words stands before the rest, in any letter case. -/
def NextWord (words : List String) (ts rest : List Token) : Prop :=
  ∃ t : Token, t.kind = .identifier ∧ Text.foldCase t.lexeme ∈ words ∧ ts = t :: rest

/-- One token that is no delimiter stands before the rest. -/
def NextPlain (ts rest : List Token) : Prop := ∃ t : Token, t.kind.isPlain ∧ ts = t :: rest

def Optionally (part : List Token → List Token → Prop) (ts rest : List Token) : Prop :=
  part ts rest ∨ ts = rest

section Counted

variable (opens closes : TokenKind → Bool)

/-- Some levels are open and are closed one after another, by delimiters of any kind. -/
inductive Counted : Nat → List Token → List Token → Prop
  | closed (rest : List Token) : Counted 0 rest rest
  | opening {n : Nat} {t : Token} {ts rest : List Token} :
      opens t.kind = true → Counted (n + 2) ts rest → Counted (n + 1) (t :: ts) rest
  | closing {n : Nat} {t : Token} {ts rest : List Token} :
      opens t.kind = false → closes t.kind = true → Counted n ts rest →
      Counted (n + 1) (t :: ts) rest
  | inside {n : Nat} {t : Token} {ts rest : List Token} :
      opens t.kind = false → closes t.kind = false → Counted (n + 1) ts rest →
      Counted (n + 1) (t :: ts) rest

/-- A region is open to the end of the tokens, and the last of them closes a level of it. -/
structure StillOpen (ts : List Token) : Prop where
  unclosed : ∀ after, ¬Counted opens closes 1 ts after
  last : ∃ t, ts.getLast? = some t ∧ closes t.kind = true

/-- What follows a region whose first delimiter has been read. -/
def Passed (ts rest : List Token) : Prop :=
  Counted opens closes 1 ts rest ∨ rest = [] ∧ StillOpen opens closes ts

variable {opens closes} {ts rest : List Token}

theorem Counted.suffix {n : Nat} (h : Counted opens closes n ts rest) : rest <:+ ts := by
  induction h with
  | closed rest => exact List.suffix_refl rest
  | opening _ _ ih | closing _ _ _ ih | inside _ _ _ ih => exact ih.trans (List.suffix_cons _ _)

theorem Passed.suffix (h : Passed opens closes ts rest) : rest <:+ ts := by
  rcases h with counted | ⟨rfl, -⟩
  · exact counted.suffix
  · exact List.nil_suffix

theorem Passed.counted (h : Passed opens closes ts rest) (more : rest ≠ []) :
    Counted opens closes 1 ts rest :=
  h.resolve_right fun still => more still.1

end Counted

def PassedGroup (opening closing : Symbol) : List Token → List Token → Prop :=
  Comp (Next (.symbol opening)) (Passed (· == .symbol opening) (· == .symbol closing))

def PassedParameters : List Token → List Token → Prop :=
  Comp (Next (.symbol .leftParen))
    (Passed (fun k => k == .symbol .leftParen || Parser.opensBracket k)
      (fun k => k == .symbol .rightParen || k == .symbol .rightBracket))

/-- Tokens up to one that is wanted, which is left. -/
def PassedTo (wanted : TokenKind → Bool) (ts rest : List Token) : Prop :=
  rest = ts.dropWhile fun t => !wanted t.kind

/-- What holds in front of the wanted token, and in front of one that is not wanted if it holds
behind it, holds in front of all tokens that are passed. -/
theorem PassedTo.fold {wanted : TokenKind → Bool} {R : List Token → Prop} {ts rest : List Token}
    (h : PassedTo wanted ts rest)
    (step : ∀ {t ts}, wanted t.kind = false → R ts → R (t :: ts)) (ended : R rest) : R ts := by
  subst h
  induction ts with
  | nil => exact ended
  | cons t ts ih =>
    rw [List.dropWhile_cons] at ended
    split at ended
    next unwanted => exact step (by simpa using unwanted) (ih ended)
    next => exact ended

def PassedReturnType : List Token → List Token → Prop :=
  Comp (Next (.symbol .colon))
    (PassedTo fun k => k == .symbol .leftBrace || k == .symbol .semicolon || k == .symbol .fatArrow)

/-- All tokens to the semicolon on the first level, and with it. -/
def PassedSemicolon (ts rest : List Token) : Prop := Parser.afterSemicolon? 0 ts = some rest

/-- What stands in a class before a member that is a constant, a property or the like. -/
def TokenKind.opensOtherMember : TokenKind → Bool
  | .docComment _ => false
  | .symbol .rightBrace | .symbol .semicolon | .symbol .attributeOpen => false
  | .keyword .kwUse | .keyword .kwFunction => false
  | .keyword .kwPublic | .keyword .kwProtected | .keyword .kwPrivate | .keyword .kwStatic
  | .keyword .kwAbstract | .keyword .kwFinal | .keyword .kwReadonly | .keyword .kwVar => false
  | _ => true

end ResponseShape

import ResponseShape.Grammar.Statement

/-!
Expressions and statements of any depth. A phrase is read with parsers for the phrases nested in
it, and these work only behind the tokens that the phrase has read; so the number of tokens left
bounds the depth.
-/

namespace ResponseShape.Grammar

open ResponseShape.Parser

mutual

def expression (min : Precedence) (s : TokenStream) : Except ParseError (Expr × TokenStream) :=
  Nested.expressionAt
    { expression := fun min s' =>
        if _h : s'.left < s.left then expression min s' else .error ⟨.stalled, s'.here⟩
      statement := fun s' =>
        if _h : s'.left < s.left then statement s' else .error ⟨.stalled, s'.here⟩ }
    min s
termination_by 2 * s.left

def statement (s : TokenStream) : Except ParseError (Option Stmt × TokenStream) :=
  Nested.anyStatement
    { expression := fun min s' =>
        if _h : s'.left ≤ s.left then expression min s' else .error ⟨.stalled, s'.here⟩
      statement := fun s' =>
        if _h : s'.left < s.left then statement s' else .error ⟨.stalled, s'.here⟩ }
    s
termination_by 2 * s.left + 1

end

def phrases : Nested := ⟨expression, statement⟩

end ResponseShape.Grammar

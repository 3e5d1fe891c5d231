import ResponseShape.Proofs.PrintedStatements
import ResponseShape.Proofs.ReturnScan
import ResponseShape.Proofs.Spanning

/-! The returns of a parsed body are those written in it, each with the value that its own tokens
are read as. Main statement: `Grammar.block_returns`. -/
namespace ResponseShape

/-- What a `return` gives back whose keyword stands before the tokens. Nothing if no expression can
be read there. -/
def valueBehind? (ts : List Token) : Option (Option Expr) :=
  if firstKind ts = some (.symbol .semicolon) then some none
  else match Grammar.expression .lowest ⟨ts, .start⟩ with
    | .ok (value, _) => some (some value)
    | .error _ => none

theorem firstKind_of_next {k : TokenKind} {ts rest : List Token} (h : Next k ts rest) :
    firstKind ts = some k := by
  obtain ⟨t, rfl, rfl⟩ := h
  rfl

theorem GivesBack.valueBehind {ts : List Token} {value : Option Expr} (h : GivesBack ts value) :
    valueBehind? ts = some value := by
  cases h with
  | nothing semicolon => exact if_pos (firstKind_of_next semicolon)
  | @value stop e rest read =>
    obtain ⟨k, later, next, begins⟩ := Nested.expression_begins read
    have noSemicolon : firstKind ts ≠ some (.symbol .semicolon) := by
      rw [firstKind_of_next next]
      rintro ⟨⟩
      cases begins
    have alike : TokenStream.Alike ⟨ts, stop⟩ ⟨ts, .start⟩ := TokenStream.Alike.refl ⟨ts, stop⟩
    obtain ⟨rest', read', -⟩ :=
      (Grammar.phrases_spanning.expression .lowest alike).answer read
    rw [valueBehind?, if_neg noSemicolon]
    rw [show Grammar.expression .lowest ⟨ts, .start⟩ = _ from read']

namespace Grammar

open ResponseShape.Parser

/-- A body keeps the returns that are written in its braces, but for those in closures and in
`switch` blocks, and the first of them is what it gives back. -/
theorem block_returns {s r : TokenStream} {body : List Stmt}
    (read : phrases.block s = .ok (body, r)) :
    (writtenReturns s.tokens).map valueBehind? = (returnsOfBody body).map some ∧
      returnValue? body = ((writtenReturns s.tokens).head?.bind valueBehind?).join := by
  obtain ⟨-, -, -, written, spans, returns⟩ :=
    (phrases_spanning.block (TokenStream.Alike.refl s)).answer read
  have same : writtenReturns s.tokens = written := spans.writtenReturns
  have values : written.map valueBehind? = (returnsOfBody body).map some :=
    List.forall₂_eq_eq_eq ▸ List.forall₂_map_left_iff.2
      (List.forall₂_map_right_iff.2 (returns.imp fun _ _ h => h.valueBehind))
  rw [same]
  refine ⟨values, ?_⟩
  have first : written.head?.map valueBehind? = (returnsOfBody body).head?.map some := by
    rw [← List.head?_map, ← List.head?_map, values]
  have value : written.head?.bind valueBehind? = (written.head?.map valueBehind?).join := by
    cases written.head? <;> rfl
  rw [returnValue?, value, first]
  cases (returnsOfBody body).head? <;> rfl

/-- `{ if ($a) { $f = function () { return 'inner'; }; return 'x'; } return; }` -/
def nestedReturns : List Stmt :=
  [.branch (.var "a")
    [.expr (.assign (.var "f") (.closure [] [.ret (some (.string "inner"))])),
      .ret (some (.string "x"))] [] none,
   .ret none]

theorem block_returns_nested :
    phrases.block ⟨Token.braced (tokensOfBody nestedReturns), .start⟩ =
        .ok (nestedReturns, ⟨[], .start⟩) ∧
      (writtenReturns (Token.braced (tokensOfBody nestedReturns))).map valueBehind? =
        [some (some (.string "x")), some none] ∧
      returnValue? nestedReturns = some (.string "x") := by
  have back : ∀ st ∈ nestedReturns, st.ReadsBack := readsBack_body nestedReturns (by
    simp [nestedReturns, allOfBody, allOfElseIfs, Stmt.All, Expr.All, Expr.IsWritten])
  have read := bodyReadsBack back [] .start
  rw [List.append_nil] at read
  exact ⟨read, (block_returns read).1, rfl⟩

theorem reads_passGroup {opening closing : Symbol} {inner rest : List Token}
    (apart : TokenKind.symbol closing ≠ .symbol opening)
    (flat : ∀ t ∈ inner, t.kind ≠ .symbol opening ∧ t.kind ≠ .symbol closing) :
    Reads (passGroup opening closing) (.symbol opening :: (inner ++ .symbol closing :: rest)) ()
      rest := by
  have group : Reads (group (· == .symbol opening) (· == .symbol closing) .unbalancedDelimiters)
      (.symbol opening :: (inner ++ .symbol closing :: rest)) inner rest :=
    reads_group
      (fun t mem => ⟨beq_false_of_ne (flat t mem).1, beq_false_of_ne (flat t mem).2⟩)
      (beq_false_of_ne apart) (beq_self_eq_true _)
  exact .ifSeen rfl (group.bind .pure)

def switchTokens (header block : List Token) : List Token :=
  .word "switch" :: (Token.grouped header ++ Token.braced block)

variable {header block : List Token}
  (flatHeader : ∀ t ∈ header, t.kind ≠ .symbol .leftParen ∧ t.kind ≠ .symbol .rightParen)
  (flatBlock : ∀ t ∈ block, t.kind ≠ .symbol .leftBrace ∧ t.kind ≠ .symbol .rightBrace)

include flatHeader flatBlock

theorem reads_switch (rest : List Token) :
    Reads phrases.statement (switchTokens header block ++ rest) (some (.block [])) rest := by
  have word : Text.foldCase "switch" = "switch" := by decide
  have run : phrases.wordStatement "switch" = Nested.switchStatement := by
    simp only [Nested.wordStatement, word]
  rw [switchTokens, List.cons_append, List.append_assoc, Token.grouped_append,
    Token.braced_append]
  refine reads_statement (.next (.bind ?_ .pure))
  show Reads (phrases.wordStatement "switch") _ _ _
  rw [run]
  exact .advance (.bind (reads_passGroup (by decide) flatHeader)
    (.bind (reads_passGroup (by decide) flatBlock) .pure))

theorem reads_switchBody {body : List Stmt} (back : ∀ st ∈ body, st.ReadsBack) :
    Reads phrases.block (Token.braced (switchTokens header block ++ tokensOfBody body))
      (.block [] :: rereadBody body) [] := by
  have later : Reads (iterate phrases.blockRound [.block []])
      (tokensOfBody body ++ [.symbol .rightBrace]) (.block [] :: rereadBody body) [] :=
    reads_blockRounds back [.block []]
  have first := reads_switch flatHeader flatBlock (tokensOfBody body ++ [.symbol .rightBrace])
  have round : Reads (phrases.blockRound [])
      (switchTokens header block ++ (tokensOfBody body ++ [.symbol .rightBrace]))
      (.inl [.block []]) (tokensOfBody body ++ [.symbol .rightBrace]) :=
    .ifRefused (firstKind_cons_ne rfl) ((Reads.notAtEnd rfl).bind (first.bind .pure))
  rw [← List.append_nil (Token.braced _), Token.braced_append, List.append_assoc]
  refine Reads.expect.bind (.again round ?_ later)
  have some : 0 < (switchTokens header block).length := Nat.succ_pos _
  simp only [List.length_append]
  omega

omit flatHeader flatBlock

/-- `{ switch ($x) { case $y: return 'a'; } return 'b'; }` -/
def returnInSwitch : List Token :=
  Token.braced (switchTokens [.ofKind (.var "x")]
      (.word "case" :: .ofKind (.var "y") :: .symbol .colon ::
        (Stmt.ret (some (.string "a"))).tokens) ++
    tokensOfBody [.ret (some (.string "b"))])

/-- Two returns are written outside of closures, and the body keeps one. -/
theorem returnInSwitch_unread :
    (returnInSwitch.map Token.kind).count (.keyword .kwReturn) = 2 ∧
      (returnInSwitch.map Token.kind).count (.keyword .kwFunction) = 0 ∧
      (returnInSwitch.map Token.kind).count (.keyword .kwFn) = 0 ∧
      phrases.block ⟨returnInSwitch, .start⟩ =
        .ok ([.block [], .ret (some (.string "b"))], ⟨[], .start⟩) := by
  refine ⟨by decide, by decide, by decide, ?_⟩
  have back : ∀ st ∈ [Stmt.ret (some (.string "b"))], st.ReadsBack :=
    readsBack_body _ (by simp [allOfBody, Stmt.All, Expr.All, Expr.IsWritten])
  exact reads_switchBody (by decide) (by decide) back .start

end Grammar

end ResponseShape

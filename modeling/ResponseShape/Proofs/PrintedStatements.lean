import ResponseShape.Proofs.PrintedExpressions

/-! Printed statements are read back, and with them the callables whose bodies they are. Main
statements: `Expr.readsBack` and `Stmt.readsBack`, by induction on both kinds of trees. -/
namespace ResponseShape

open ResponseShape.Parser ResponseShape.Grammar

variable {ts us rest : List Token}

theorem closeGroup?_flat {opens closes : TokenKind → Bool} {last : TokenKind} {inner : List Token}
    {t : Token} (flat : ∀ t ∈ inner, opens t.kind = false ∧ closes t.kind = false)
    (noOpen : opens t.kind = false) (close : closes t.kind = true) :
    closeGroup? opens closes 1 last (inner ++ t :: rest) = some (inner, rest) := by
  induction inner generalizing last with
  | nil => simp [closeGroup?, noOpen, close]
  | cons u inner ih =>
    obtain ⟨noOpen', noClose⟩ := flat u List.mem_cons_self
    simp [closeGroup?, noOpen', noClose, ih fun t mem => flat t (List.mem_cons_of_mem _ mem)]

theorem reads_group {opens closes : TokenKind → Bool} {fault : Fault} {inner : List Token}
    {t u : Token} (flat : ∀ t ∈ inner, opens t.kind = false ∧ closes t.kind = false)
    (noOpen : opens t.kind = false) (close : closes t.kind = true) :
    Reads (group opens closes fault) (u :: (inner ++ t :: rest)) inner rest := by
  intro stop
  unfold group
  dsimp only
  rw [closeGroup?_flat flat noOpen close]

def paramTokens (names : List String) : List Token :=
  Token.separated (names.map fun name => [.ofKind (.var name)])

theorem paramTokens_cons (name more : String) (names : List String) :
    paramTokens (name :: more :: names) =
      .ofKind (.var name) :: .symbol .comma :: paramTokens (more :: names) := rfl

theorem kind_of_mem_paramTokens {t : Token} :
    ∀ {names : List String}, t ∈ paramTokens names →
      t.kind = .symbol .comma ∨ ∃ name, t.kind = .var name
  | [name], mem => .inr ⟨name, by rw [List.mem_singleton.1 mem]; rfl⟩
  | name :: more :: names, mem => by
    rw [paramTokens_cons, List.mem_cons, List.mem_cons] at mem
    rcases mem with rfl | rfl | later
    · exact .inr ⟨name, rfl⟩
    · exact .inl rfl
    · exact kind_of_mem_paramTokens later

theorem variables_paramTokens :
    ∀ names : List String, (paramTokens names).filterMap variableName? = names
  | [] => rfl
  | [_] => rfl
  | name :: more :: names => congrArg (name :: ·) (variables_paramTokens (more :: names))

theorem reads_parameters (names : List String) :
    Reads parameters (Token.params names ++ rest) names rest := by
  have whole : Token.params names ++ rest =
      .symbol .leftParen :: (paramTokens names ++ .symbol .rightParen :: rest) :=
    Token.grouped_append _ _
  rw [whole]
  refine .ifSeen rfl ((reads_group (fun t mem => ?_) rfl rfl).bind ?_)
  · rcases kind_of_mem_paramTokens mem with comma | ⟨name, var⟩
    · rw [comma]
      exact ⟨rfl, rfl⟩
    · rw [var]
      exact ⟨rfl, rfl⟩
  · rw [variables_paramTokens]
    exact .pure

theorem reads_noReturnType (h : firstKind ts ≠ some (.symbol .colon)) :
    Reads passReturnType ts () ts :=
  .ifUnseen h .pure

theorem Expr.ReadsBack.arrowFunction {body : Expr} (params : List String) (back : body.ReadsBack) :
    (Expr.arrowFunction params body).ReadsBack where
  written := trivial
  closed {rest} closing := by
    rw [tokens, List.append_assoc, List.cons_append]
    refine reads_formed rfl rfl rfl (.next (.advance (.bind (.refuse ?_) ?_))) closing
    · exact firstKind_cons_ne rfl
    refine (reads_parameters params).bind (.bind (reads_noReturnType ?_) ?_)
    · exact firstKind_cons_ne rfl
    · exact Reads.expect.bind ((back.closed closing).bind .pure)

def BodyReadsBack (body : List Stmt) : Prop :=
  ∀ rest, Reads phrases.block (Token.braced (tokensOfBody body) ++ rest) (rereadBody body) rest

theorem Expr.ReadsBack.closure {body : List Stmt} (params : List String)
    (back : BodyReadsBack body) : (Expr.closure params body).ReadsBack where
  written := trivial
  closed {rest} closing := by
    rw [tokens, List.append_assoc, List.cons_append]
    refine reads_formed rfl rfl rfl (.next (.advance (.bind (.refuse ?_) ?_))) closing
    · exact firstKind_cons_ne rfl
    refine (reads_parameters params).bind (.ifRefused ?_ (.bind (reads_noReturnType ?_) ?_))
    · exact firstKind_cons_ne rfl
    · exact firstKind_cons_ne rfl
    · exact (back rest).bind .pure

/-- What is printed for the statement is read as its reread form, whatever follows unless it is
an `else`. -/
def Stmt.ReadsBack (s : Stmt) : Prop :=
  ∀ rest, firstKind rest ≠ some (.keyword .kwElse) → firstKind rest ≠ some (.keyword .kwElseIf) →
    Reads phrases.statement (s.tokens ++ rest) (some s.reread) rest

theorem reads_statement {s : Option Stmt} (h : Reads phrases.anyStatement ts s rest) :
    Reads phrases.statement ts s rest := by
  have run : phrases.statement = phrases.anyStatement := statement_eq
  rwa [run]

def TokenKind.opensStatement : TokenKind → Bool
  | keyword .kwReturn | keyword .kwIf | keyword .kwForeach | symbol .leftBrace => true
  | k => k.opensOperand

theorem TokenKind.opensStatement_of_opensOperand {k : TokenKind} (h : k.opensOperand = true) :
    k.opensStatement = true := by
  unfold opensStatement
  split <;> first | rfl | exact h

theorem Expr.standAlone_opens (e : Expr) (rest : List Token) :
    ∃ k, firstKind (e.standAlone e.tokens ++ rest) = some k ∧ k.opensOperand = true := by
  unfold standAlone
  split
  · rename_i atom
    obtain ⟨t, ht, opens, _⟩ := tokens_atom (Bool.and_eq_true_iff.1 atom).1
    rw [ht]
    exact ⟨_, rfl, opens⟩
  · exact ⟨_, rfl, rfl⟩

theorem Stmt.tokens_opens (s : Stmt) (rest : List Token) :
    ∃ k, firstKind (s.tokens ++ rest) = some k ∧ k.opensStatement = true := by
  cases s with
  | ret value => cases value <;> exact ⟨_, rfl, rfl⟩
  | expr e =>
    obtain ⟨k, first, opens⟩ := e.standAlone_opens ([.symbol .semicolon] ++ rest)
    rw [tokens, List.append_assoc]
    exact ⟨k, first, TokenKind.opensStatement_of_opensOperand opens⟩
  | branch _ _ _ otherwise => cases otherwise <;> exact ⟨_, rfl, rfl⟩
  | «foreach» _ key _ _ => cases key <;> exact ⟨_, rfl, rfl⟩
  | block _ => exact ⟨_, rfl, rfl⟩

theorem Stmt.tokens_ne (s : Stmt) (rest : List Token) {k : TokenKind}
    (h : k.opensStatement = false) : firstKind (s.tokens ++ rest) ≠ some k :=
  firstKind_ne (s.tokens_opens rest) h

theorem reads_statementEnd {expectation : Expectation} :
    Reads (Nested.statementEnd expectation) (.symbol .semicolon :: rest) () rest :=
  .ifAccepted rfl .pure

theorem reads_expressionStatement {e : Expr}
    (h : Reads phrases.anyExpression ts e (.symbol .semicolon :: rest)) :
    Reads phrases.expressionStatement ts (.expr e) rest :=
  h.bind (reads_statementEnd.bind .pure)

theorem reads_condition {e : Expr} (back : e.ReadsBack) :
    Reads phrases.condition (Token.grouped e.tokens ++ rest) e.reread rest := by
  rw [Token.grouped_append]
  exact Reads.expect.bind ((back.closed (.cons rfl)).bind (Reads.expect.bind .pure))

theorem reads_body {body : List Stmt} (back : BodyReadsBack body) :
    Reads phrases.body (Token.braced (tokensOfBody body) ++ rest) (rereadBody body) rest :=
  .ifSeen rfl (back rest)

theorem Stmt.readsBack_ret : (Stmt.ret none).ReadsBack := fun _ _ _ =>
  reads_statement (.next ((Reads.advance (.ifAccepted rfl .pure)).bind .pure))

theorem Stmt.readsBack_ret_some {e : Expr} (back : e.ReadsBack) :
    (Stmt.ret (some e)).ReadsBack := by
  intro rest _ _
  rw [tokens, List.append_assoc, List.cons_append]
  refine reads_statement (.next (.bind (.advance (.ifRefused (e.tokens_ne _ rfl) ?_)) .pure))
  exact (back.closed (.cons rfl)).bind (reads_statementEnd.bind .pure)

theorem Stmt.readsBack_block {body : List Stmt} (back : BodyReadsBack body) :
    (Stmt.block body).ReadsBack := fun rest _ _ =>
  reads_statement (.next ((back rest).bind .pure))

def PlainToken (t : Token) : Prop :=
  t.kind = .identifier → Text.foldCase t.lexeme ∉ Expr.statementWords

theorem reads_wordStatement {word : String} {s : Stmt}
    (plain : Text.foldCase word ∉ Expr.statementWords)
    (h : Reads phrases.expressionStatement ts s rest) :
    Reads (phrases.wordStatement word) ts s rest := by
  unfold Nested.wordStatement
  split
  case h_7 => exact h
  all_goals
    rename_i folded
    rw [folded] at plain
    exact absurd (by decide) plain

theorem reads_anyStatement {t : Token} {s : Stmt} (opens : t.kind.opensOperand = true)
    (plain : PlainToken t) (h : Reads phrases.expressionStatement (t :: ts) s rest) :
    Reads phrases.anyStatement (t :: ts) (some s) rest := by
  refine .next ?_
  split
  case h_7 word =>
    cases word
    exact (reads_wordStatement (plain rfl) h).bind .pure
  case h_8 => exact h.bind .pure
  all_goals
    rename_i sign
    cases sign
    cases opens

theorem Expr.tokens_plain {e : Expr} (atom : e.isAtom = true) (noWord : e.isStatementWord = false) :
    ∃ t, e.tokens = [t] ∧ t.kind.opensOperand = true ∧ PlainToken t := by
  cases e with
  | bool value => cases value <;> exact ⟨_, rfl, rfl, fun _ => by decide⟩
  | null => exact ⟨_, rfl, rfl, fun _ => by decide⟩
  | constant name =>
    refine ⟨_, rfl, (ofName_opens name).1, ?_⟩
    unfold Token.ofName
    split
    · exact nofun
    · intro _ word
      have listed : (constant name).isStatementWord = true := List.contains_iff_mem.2 word
      rw [listed] at noWord
      cases noWord
  | string _ | interpolated _ | number _ | var _ => exact ⟨_, rfl, rfl, nofun⟩
  | _ => cases atom

theorem noCast_statementWord {e : Expr} (word : e.isStatementWord = true) :
    NoCast (.symbol .leftParen :: (e.tokens ++ rest)) := by
  cases e with
  | constant name =>
    have listed : Text.foldCase name.written ∈ Expr.statementWords := List.contains_iff_mem.1 word
    have noCast : ∀ text ∈ Expr.statementWords, Nested.castTypes.contains text = false := by decide
    have run := noCast _ listed
    rw [Expr.tokens, Token.ofName]
    split
    · exact noCast_of_second (firstKind_cons_ne rfl)
    · intro stop
      unfold Nested.seesCast
      split
      · rename_i tokens
        injection tokens with _ tokens
        injection tokens with tokens _
        cases tokens
        rw [run]
      · rfl
  | _ => cases word

theorem Stmt.readsBack_expr {e : Expr} (back : e.ReadsBack) : (Stmt.expr e).ReadsBack := by
  intro rest _ _
  rw [tokens, List.append_assoc, Expr.standAlone]
  split
  · rename_i alone
    obtain ⟨atom, noWord⟩ := Bool.and_eq_true_iff.1 alone
    obtain ⟨t, ht, opens, plain⟩ := Expr.tokens_plain atom (by simpa using noWord)
    have closed : Reads phrases.anyExpression (e.tokens ++ .symbol .semicolon :: rest) e.reread
      (.symbol .semicolon :: rest) := back.closed (.cons rfl)
    rw [ht] at closed ⊢
    exact reads_statement (reads_anyStatement opens plain (reads_expressionStatement closed))
  · -- a statement word in parentheses, or a compound expression: neither is taken for a cast
    rename_i alone
    have noCast : NoCast (.symbol .leftParen ::
        (e.tokens ++ .symbol .rightParen :: .symbol .semicolon :: rest)) := by
      cases atom : e.isAtom with
      | true =>
        rw [atom] at alone
        exact noCast_statementWord (by simpa using alone)
      | false => exact noCast_grouped atom
    have closed : Reads phrases.anyExpression
        (Token.grouped e.tokens ++ .symbol .semicolon :: rest) e.reread
        (.symbol .semicolon :: rest) := reads_grouped back noCast (.cons rfl)
    rw [Token.grouped_append] at closed ⊢
    have plain : PlainToken (.symbol .leftParen) := fun same => absurd same (ne_of_beq_false rfl)
    exact reads_statement (reads_anyStatement rfl plain (reads_expressionStatement closed))

theorem Stmt.readsBack_foreach {subject value : Expr} {body : List Stmt}
    (back : subject.ReadsBack) (value' : value.ReadsBack) (body' : BodyReadsBack body) :
    (Stmt.foreach subject none value body).ReadsBack := by
  intro rest _ _
  rw [tokens, List.append_assoc, List.cons_append, Token.grouped_append, List.append_assoc,
    List.cons_append]
  refine reads_statement (.next (.bind (.advance (Reads.expect.bind ?_)) .pure))
  refine (back.closed ⟨_, rfl, rfl⟩).bind (.ifAccepted rfl ?_)
  refine Reads.bind (.bind (.refuse (value.tokens_ne _ rfl)) (value'.closed (.cons rfl))) ?_
  refine .ifRefused (firstKind_cons_ne rfl) (Reads.pure.bind (Reads.expect.bind ?_))
  exact (reads_body body').bind .pure

theorem Stmt.readsBack_foreach_key {subject key value : Expr} {body : List Stmt}
    (back : subject.ReadsBack) (key' : key.ReadsBack) (value' : value.ReadsBack)
    (body' : BodyReadsBack body) :
    (Stmt.foreach subject (some key) value body).ReadsBack := by
  intro rest _ _
  rw [tokens, List.append_assoc, List.cons_append, Token.grouped_append, List.append_assoc,
    List.append_assoc, List.cons_append, List.cons_append]
  refine reads_statement (.next (.bind (.advance (Reads.expect.bind ?_)) .pure))
  refine (back.closed ⟨_, rfl, rfl⟩).bind (.ifAccepted rfl ?_)
  refine Reads.bind (.bind (.refuse (key.tokens_ne _ rfl)) (key'.closed (.cons rfl))) ?_
  refine .ifAccepted rfl ?_
  refine Reads.bind (.bind (.refuse (value.tokens_ne _ rfl)) (value'.closed (.cons rfl))) ?_
  exact Reads.pure.bind (Reads.expect.bind ((reads_body body').bind .pure))

def ElseIfsReadBack (elseIfs : List ElseIf) : Prop :=
  ∀ condition body, .mk condition body ∈ elseIfs → condition.ReadsBack ∧ BodyReadsBack body

theorem reads_elseIfs {elseIfs : List ElseIf} (back : ElseIfsReadBack elseIfs)
    {otherwise : Option (List Stmt)}
    (last : ∀ before, Reads (phrases.elseRound before) ts (.inr (before, otherwise)) rest)
    (before : List ElseIf) :
    Reads (iterate phrases.elseRound before) (tokensOfElseIfs elseIfs ++ ts)
      (before ++ rereadElseIfs elseIfs, otherwise) rest := by
  rw [tokensOfElseIfs_eq_flatMap, rereadElseIfs_eq_map]
  refine .rounds (fun l => l) ElseIf.reread (fun elseIf mem before later next => ?_) before
    (.done (last _))
  obtain ⟨condition, body⟩ := elseIf
  obtain ⟨condition', body'⟩ := back condition body mem
  rw [ElseIf.tokens, List.append_assoc, List.cons_append]
  refine .again (.ifAccepted rfl ?_) ?_ next
  · exact (reads_condition condition').bind ((reads_body body').bind .pure)
  · simp
    omega

theorem Stmt.readsBack_branch {condition : Expr} {body : List Stmt} {elseIfs : List ElseIf}
    (back : condition.ReadsBack) (body' : BodyReadsBack body)
    (elseIfs' : ElseIfsReadBack elseIfs) :
    (Stmt.branch condition body elseIfs none).ReadsBack := by
  intro rest noElse noElseIf
  rw [tokens, List.append_assoc, List.append_assoc, List.cons_append]
  refine reads_statement (.next (.bind (.advance ?_) .pure))
  refine (reads_condition back).bind ((reads_body body').bind ?_)
  refine (reads_elseIfs elseIfs' (fun _ => ?_) []).bind .pure
  exact .ifRefused noElseIf (.ifRefused noElse .pure)

theorem Stmt.readsBack_branch_else {condition : Expr} {body otherwise : List Stmt}
    {elseIfs : List ElseIf} (back : condition.ReadsBack) (body' : BodyReadsBack body)
    (elseIfs' : ElseIfsReadBack elseIfs) (otherwise' : BodyReadsBack otherwise) :
    (Stmt.branch condition body elseIfs (some otherwise)).ReadsBack := by
  intro rest _ _
  rw [tokens, List.append_assoc, List.append_assoc, List.append_assoc, List.cons_append]
  refine reads_statement (.next (.bind (.advance ?_) .pure))
  refine (reads_condition back).bind ((reads_body body').bind ?_)
  refine (reads_elseIfs elseIfs' (fun _ => ?_) []).bind .pure
  exact .ifRefused (firstKind_cons_ne rfl) (.ifAccepted rfl ((reads_body otherwise').bind .pure))

theorem firstKind_body_ne (body : List Stmt) (rest : List Token) {k : TokenKind}
    (noStatement : k.opensStatement = false) (noBrace : k ≠ .symbol .rightBrace) :
    firstKind (body.flatMap Stmt.tokens ++ .symbol .rightBrace :: rest) ≠ some k := by
  cases body with
  | nil => exact fun same => noBrace (Option.some.inj same).symm
  | cons s later =>
    rw [List.flatMap_cons, List.append_assoc]
    exact s.tokens_ne _ noStatement

theorem reads_blockRounds {body : List Stmt} (back : ∀ s ∈ body, s.ReadsBack)
    (before : List Stmt) :
    Reads (iterate phrases.blockRound before)
      (tokensOfBody body ++ .symbol .rightBrace :: rest) (before ++ rereadBody body) rest := by
  rw [tokensOfBody_eq_flatMap, rereadBody_eq_map]
  refine .rounds (fun l => l) Stmt.reread (fun s mem before later next => ?_) before
    (.done (.ifAccepted rfl .pure))
  have here := back s mem _ (firstKind_body_ne later rest rfl nofun)
    (firstKind_body_ne later rest rfl nofun)
  obtain ⟨k, first, _⟩ := s.tokens_opens (later.flatMap Stmt.tokens ++ .symbol .rightBrace :: rest)
  refine .again (.ifRefused (s.tokens_ne _ rfl) ?_) ?_ next
  · exact (Reads.notAtEnd first).bind (here.bind .pure)
  · have := s.tokens_pos
    simp only [List.length_append]
    omega

theorem bodyReadsBack {body : List Stmt} (back : ∀ s ∈ body, s.ReadsBack) : BodyReadsBack body := by
  intro rest
  rw [Token.braced_append]
  exact Reads.expect.bind (reads_blockRounds back [])

mutual

theorem Expr.readsBack : ∀ e : Expr, e.All Expr.IsWritten → e.ReadsBack
  | .array items, h => .array h.1 (fun item mem => (readsBack_items items h.2 item mem).1)
      fun item mem => (readsBack_items items h.2 item mem).2
  | .property target name nullsafe, h => (Expr.readsBack target h.2).property name nullsafe
  | .methodCall target name args nullsafe, h =>
    (Expr.readsBack target h.2.1).methodCall name (readsBack_args args h.2.2) nullsafe
  | .staticCall _ name args, h => .staticCall h.1 name (readsBack_args args h.2)
  | .classConstant _ name, h => .classConstant h name
  | .call callee args, h => (Expr.readsBack callee h.2.1).call (readsBack_args args h.2.2)
  | .new _ args, h => .new h.1 (readsBack_args args h.2)
  | .arrowFunction params body, h => .arrowFunction params (Expr.readsBack body h.2)
  | .closure params body, h => .closure params (bodyReadsBack (readsBack_body body h.2))
  | .index target none, h => (Expr.readsBack target h.2).index
  | .index target (some index), h =>
    (Expr.readsBack target h.2.1).indexed (Expr.readsBack index h.2.2)
  | .binary op lhs rhs, h => .binary op (Expr.readsBack lhs h.2.1) (Expr.readsBack rhs h.2.2)
  | .unary op operand, h => .unary op (Expr.readsBack operand h.2)
  | .ternary condition none otherwise, h =>
    (Expr.readsBack condition h.2.1).ternary (Expr.readsBack otherwise h.2.2)
  | .ternary condition (some middle) otherwise, h =>
    (Expr.readsBack condition h.2.1).fullTernary (Expr.readsBack middle h.2.2.1)
      (Expr.readsBack otherwise h.2.2.2)
  | .assign target value, h => (Expr.readsBack target h.2.1).assign (Expr.readsBack value h.2.2)
  | .string _, h | .interpolated _, h | .number _, h | .bool _, h | .null, h | .var _, h
  | .constant _, h => .atom rfl h

theorem readsBack_args : ∀ args : List Expr, allOfArgs Expr.IsWritten args →
    ∀ e ∈ args, e.ReadsBack
  | e :: rest, h, e', mem => by
    rcases List.mem_cons.1 mem with same | later
    · exact same ▸ Expr.readsBack e h.1
    · exact readsBack_args rest h.2 e' later

theorem readsBack_items : ∀ items : List ArrayItem, allOfItems Expr.IsWritten items →
    ∀ item ∈ items, (∀ e, item.key = some e → e.ReadsBack) ∧ item.value.ReadsBack
  | .mk none value _ :: rest, h, item, mem => by
    rcases List.mem_cons.1 mem with same | later
    · exact same ▸ ⟨nofun, Expr.readsBack value h.1⟩
    · exact readsBack_items rest h.2 item later
  | .mk (some key) value _ :: rest, h, item, mem => by
    rcases List.mem_cons.1 mem with same | later
    · exact same ▸ ⟨by rintro _ ⟨⟩; exact Expr.readsBack key h.1, Expr.readsBack value h.2.1⟩
    · exact readsBack_items rest h.2.2 item later

theorem Stmt.readsBack : ∀ s : Stmt, s.All Expr.IsWritten → s.ReadsBack
  | .ret none, _ => Stmt.readsBack_ret
  | .ret (some value), h => Stmt.readsBack_ret_some (Expr.readsBack value h)
  | .expr e, h => Stmt.readsBack_expr (Expr.readsBack e h)
  | .branch condition body elseIfs none, h =>
    Stmt.readsBack_branch (Expr.readsBack condition h.1) (bodyReadsBack (readsBack_body body h.2.1))
      (readsBack_elseIfs elseIfs h.2.2)
  | .branch condition body elseIfs (some otherwise), h =>
    Stmt.readsBack_branch_else (Expr.readsBack condition h.1)
      (bodyReadsBack (readsBack_body body h.2.1)) (readsBack_elseIfs elseIfs h.2.2.1)
      (bodyReadsBack (readsBack_body otherwise h.2.2.2))
  | .foreach subject none value body, h =>
    Stmt.readsBack_foreach (Expr.readsBack subject h.1) (Expr.readsBack value h.2.1)
      (bodyReadsBack (readsBack_body body h.2.2))
  | .foreach subject (some key) value body, h =>
    Stmt.readsBack_foreach_key (Expr.readsBack subject h.1) (Expr.readsBack key h.2.1)
      (Expr.readsBack value h.2.2.1) (bodyReadsBack (readsBack_body body h.2.2.2))
  | .block body, h => Stmt.readsBack_block (bodyReadsBack (readsBack_body body h))

theorem readsBack_body : ∀ body : List Stmt, allOfBody Expr.IsWritten body →
    ∀ s ∈ body, s.ReadsBack
  | s :: rest, h, s', mem => by
    rcases List.mem_cons.1 mem with same | later
    · exact same ▸ Stmt.readsBack s h.1
    · exact readsBack_body rest h.2 s' later

theorem readsBack_elseIfs : ∀ elseIfs : List ElseIf, allOfElseIfs Expr.IsWritten elseIfs →
    ElseIfsReadBack elseIfs
  | .mk condition body :: rest, h, condition', body', mem => by
    rcases List.mem_cons.1 mem with same | later
    · cases same
      exact ⟨Expr.readsBack condition h.1, bodyReadsBack (readsBack_body body h.2.1)⟩
    · exact readsBack_elseIfs rest h.2.2 condition' body' later

end

end ResponseShape

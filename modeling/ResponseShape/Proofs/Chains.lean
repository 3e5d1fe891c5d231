import ResponseShape.Proofs.OperatorTrees
import ResponseShape.Proofs.OperandEnd

/-! Chains of operands and binary operators. Main statement: `expression_chain`. -/
namespace ResponseShape

open ResponseShape.Parser ResponseShape.Grammar

/-- Tokens that are read as one operand in front of any binary operator. -/
def IsOperand (ts : List Token) (e : Expr) : Prop :=
  ∀ (t : Token) (op : BinaryOp) (us : List Token), Infix.ofKind? t.kind = some (.binary op) →
    Reads phrases.operand (ts ++ t :: us) e (t :: us)

/-- The tokens that may go on with an expression before them. -/
def TokenKind.continuesExpression (k : TokenKind) : Bool :=
  (Infix.ofKind? k).isSome || k.joinsOperand

def Ends (rest : List Token) : Prop :=
  ∀ k, firstKind rest = some k → k.continuesExpression = false

theorem Ends.noInfix {rest : List Token} (ends : Ends rest) {k : TokenKind}
    (first : firstKind rest = some k) : Infix.ofKind? k = none :=
  Option.not_isSome_iff_eq_none.1
    (Bool.eq_false_iff.1 (Bool.or_eq_false_iff.1 (ends k first)).1)

theorem Expr.ReadsBack.isOperand {e : Expr} (back : e.ReadsBack) :
    IsOperand e.operandTokens e.reread := fun _ _ _ operator =>
  reads_target back (follows_operator operator)
    (suffixes_done rfl (TokenKind.opensSuffix_of_infix operator))

/-- An operand is also read from its tokens where no operator follows. -/
theorem IsOperand.reads_end {ts rest : List Token} {e : Expr} (h : IsOperand ts e)
    (ends : Ends rest) : Reads phrases.operand (ts ++ rest) e rest := by
  intro stop
  have parted : Parted [.symbol .star] rest :=
    { more := List.cons_ne_nil _ _
      first := by rintro _ ⟨⟩; rfl
      second := fun k first => (Bool.or_eq_false_iff.1 (ends k first)).2
      noInfix := fun k first => ends.noInfix first }
  have starred := h (.symbol .star) .mul [] rfl stop
  have nested : phrases.Locally [.symbol .star] ⟨rest, stop⟩ 0 phrases := phrases_locally parted
  obtain ⟨-, same⟩ := nested.operand e _ starred
  obtain ⟨r, run, beside⟩ := same (Nat.le_refl _) ⟨ts ++ rest, stop⟩ (.mk ts stop)
  obtain ⟨-, rfl⟩ := beside.tokens_of_left rfl
  exact run

/-- An operator and the operand behind it, as they are written and as they are read. -/
structure ChainLink where
  operator : Token
  op : BinaryOp
  tokens : List Token
  value : Expr

namespace ChainLink

def written (link : ChainLink) : List Token := link.operator :: link.tokens

def read (link : ChainLink) : BinaryOp × Expr := (link.op, link.value)

/-- The operator is written as its token, and the operand as tokens that are read as one. -/
structure IsWritten (link : ChainLink) : Prop where
  operator : Infix.ofKind? link.operator.kind = some (.binary link.op)
  operand : IsOperand link.tokens link.value

def printed (op : BinaryOp) (e : Expr) : ChainLink :=
  ⟨.ofKind op.kind, op, e.operandTokens, e.reread⟩

theorem IsWritten.printed (op : BinaryOp) {e : Expr} (back : e.ReadsBack) :
    (ChainLink.printed op e).IsWritten where
  operator := by cases op <;> rfl
  operand := back.isOperand

end ChainLink

def writtenChain (links : List ChainLink) (rest : List Token) : List Token :=
  links.flatMap ChainLink.written ++ rest

theorem writtenChain_cons (link : ChainLink) (links : List ChainLink) (rest : List Token) :
    writtenChain (link :: links) rest =
      link.operator :: (link.tokens ++ writtenChain links rest) := by
  simp [writtenChain, ChainLink.written]

theorem writtenChain_append (front back : List ChainLink) (rest : List Token) :
    writtenChain (front ++ back) rest =
      front.flatMap ChainLink.written ++ writtenChain back rest := by
  simp [writtenChain]

variable {links : List ChainLink} {rest : List Token}

theorem IsOperand.reads_links {ts : List Token} {e : Expr} (h : IsOperand ts e) (ends : Ends rest)
    (written : ∀ link ∈ links, link.IsWritten) :
    Reads phrases.operand (ts ++ writtenChain links rest) e (writtenChain links rest) := by
  cases links with
  | nil => exact h.reads_end ends
  | cons link links =>
    rw [writtenChain_cons]
    exact h _ _ _ (written link List.mem_cons_self).operator

namespace Infix

theorem rank_injective {p p' : Precedence} (same : p.rank = p'.rank) : p = p' := by
  cases p <;> cases p' <;> first | rfl | cases same

theorem groupsRight_binary (op : BinaryOp) :
    (binary op).groupsRight = true ↔ op = .coalesce := by
  cases op <;> simp [groupsRight]

theorem fitsLeft_of_stops {op op' : BinaryOp}
    (stops : (binary op').continuesAt op.precedence = false) : op.FitsLeft op' := by
  obtain ⟨noTighter, apart⟩ := Bool.or_eq_false_iff.1 stops
  have le : op'.rank ≤ op.rank := Nat.le_of_not_lt (of_decide_eq_false noTighter)
  unfold BinaryOp.FitsLeft
  split
  next coalesce =>
    rw [(groupsRight_binary op').2 coalesce, Bool.and_true] at apart
    exact Nat.lt_of_le_of_ne le fun same =>
      of_decide_eq_false apart (rank_injective same.symm)
  next => exact le

theorem fitsRight_of_continues {op op' : BinaryOp}
    (continues : (binary op').continuesAt op.precedence = true) : op'.FitsRight op := by
  have cases := Bool.or_eq_true_iff.1 continues
  unfold BinaryOp.FitsRight
  split
  next coalesce =>
    rcases cases with tighter | level
    · exact Nat.le_of_lt (of_decide_eq_true tighter)
    · have same := of_decide_eq_true (Bool.and_eq_true_iff.1 level).1
      exact Nat.le_of_eq (congrArg Precedence.rank same)
  next other =>
    rcases cases with tighter | level
    · exact of_decide_eq_true tighter
    · obtain ⟨same, right⟩ := Bool.and_eq_true_iff.1 level
      obtain rfl := (groupsRight_binary op').1 right
      exact (other (BinaryOp.rank_eq_coalesce
        (congrArg Precedence.rank (of_decide_eq_true same)))).elim

end Infix

/-- The next operator of the chain, if there is one, is left at this level. -/
def StopsAt (min : Precedence) (links : List ChainLink) : Prop :=
  ∀ link, links.head? = some link → (Infix.binary link.op).continuesAt min = false

/-- The tree can stand where operators of this level go on. -/
def OperatorTree.FitsAt (min : Precedence) (t : OperatorTree) : Prop :=
  ∀ op, t.root? = some op → (Infix.binary op).continuesAt min = true

/-- From the tokens of a chain `p` makes a grouped tree of the links at its front, behind those of
`before`, and leaves the links from the first one that does not go on at the level. -/
def ReadsTree (p : Parser Expr) (min : Precedence) (before : Expr × List (BinaryOp × Expr))
    (ts : List Token) (links : List ChainLink) (rest : List Token) : Prop :=
  ∃ (t : OperatorTree) (front back : List ChainLink), links = front ++ back ∧
    t.chain = (before.1, before.2 ++ front.map ChainLink.read) ∧ t.Grouped ∧ t.FitsAt min ∧
    StopsAt min back ∧ Reads p ts t.toExpr (writtenChain back rest)

theorem operators_stop {min : Precedence} (e : Expr) (ends : Ends rest)
    (written : ∀ link ∈ links, link.IsWritten) (stops : StopsAt min links) :
    Reads (iterate (phrases.operatorRound min) e) (writtenChain links rest) e
      (writtenChain links rest) := by
  refine .done fun stop => Nested.Locally.operatorRound_done e fun k first o operator => ?_
  cases links with
  | nil =>
    rw [ends.noInfix first] at operator
    cases operator
  | cons link links =>
    rw [writtenChain_cons] at first
    cases first
    rw [(written link List.mem_cons_self).operator] at operator
    cases operator
    exact stops link rfl

def ReadsLinks (links : List ChainLink) (rest : List Token) : Prop :=
  ∀ (min : Precedence) (ts : List Token) (e : Expr), IsOperand ts e →
    ReadsTree (phrases.expression min) min (e, []) (ts ++ writtenChain links rest) links rest

theorem reads_operatorRound {min : Precedence} {link : ChainLink} {ts us : List Token}
    (lhs : Expr) {rhs : Expr} (operator : Infix.ofKind? link.operator.kind = some (.binary link.op))
    (continues : (Infix.binary link.op).continuesAt min = true)
    (right : Reads (phrases.expression link.op.precedence) ts rhs us) :
    Reads (phrases.operatorRound min lhs) (link.operator :: ts) (.inl (.binary link.op lhs rhs))
      us := by
  refine .kind rfl ?_
  rw [Option.bind_some, operator]
  dsimp only
  rw [if_pos continues]
  have part : Reads (phrases.rightPart lhs (.binary link.op)) ts (.binary link.op lhs rhs) us :=
    right.bind .pure
  exact .advance (part.bind .pure)

/-- The loop over operators keeps a grouped tree whose root the next operator does not go on
behind, so that it may become the left part of that operator. -/
theorem operators_readTree (ends : Ends rest) (min : Precedence) (left : OperatorTree)
    (written : ∀ link ∈ links, link.IsWritten)
    (shorter : ∀ later, later.length < links.length → (∀ link ∈ later, link.IsWritten) →
      ReadsLinks later rest)
    (grouped : left.Grouped) (fits : left.FitsAt min)
    (next : ∀ op, left.root? = some op → StopsAt op.precedence links) :
    ReadsTree (iterate (phrases.operatorRound min) left.toExpr) min left.chain
      (writtenChain links rest) links rest := by
  induction n : links.length using Nat.strongRecOn generalizing links left with
  | ind n ih =>
    subst n
    by_cases stops : StopsAt min links
    · exact ⟨left, [], links, rfl, by simp [OperatorTree.chain], grouped, fits, stops,
        operators_stop _ ends written stops⟩
    -- the next operator goes on: it takes the tree for its left part and reads its right part
    cases links with
    | nil => exact (stops fun link head => by cases head).elim
    | cons link more =>
      have continues : (Infix.binary link.op).continuesAt min = true := by
        by_contra other
        refine stops fun link' head => ?_
        cases head
        exact Bool.eq_false_iff.2 other
      obtain ⟨operator, operand⟩ := written link List.mem_cons_self
      have writtenMore : ∀ link ∈ more, link.IsWritten := fun link' mem =>
        written link' (List.mem_cons_of_mem _ mem)
      obtain ⟨right, front, back, rfl, chain, groupedRight, fitsRight, stopsBack, readsRight⟩ :=
        shorter more (Nat.lt_succ_self _) writtenMore link.op.precedence link.tokens link.value
          operand
      let node : OperatorTree := .node link.op left right
      have groupedNode : node.Grouped :=
        ⟨fun child root => Infix.fitsLeft_of_stops (next child root link rfl),
          fun child root => Infix.fitsRight_of_continues (fitsRight child root),
          grouped, groupedRight⟩
      have writtenBack : ∀ link ∈ back, link.IsWritten := fun link' mem =>
        writtenMore link' (List.mem_append_right _ mem)
      have fewer : back.length < (link :: (front ++ back)).length := by
        simp only [List.length_cons, List.length_append]
        omega
      obtain ⟨t, front', back', rfl, chain', groupedTree, fitsTree, stopsTree, readsTree⟩ :=
        ih back.length fewer node writtenBack
          (fun later less => shorter later (Nat.lt_trans less fewer)) groupedNode
          (fun op root => by cases root; exact continues)
          (fun op root => by cases root; exact stopsBack) rfl
      refine ⟨t, link :: (front ++ front'), back', by simp, ?_, groupedTree, fitsTree, stopsTree,
        ?_⟩
      · obtain ⟨first, later⟩ := Prod.mk.inj chain
        rw [chain']
        simp [node, OperatorTree.chain, OperatorTree.first, OperatorTree.links, first, later,
          ChainLink.read]
      · rw [writtenChain_cons]
        refine .again (reads_operatorRound _ operator continues readsRight) ?_ readsTree
        rw [writtenChain_append front]
        simp only [List.length_cons, List.length_append]
        omega

theorem readsLinks (ends : Ends rest) (written : ∀ link ∈ links, link.IsWritten) :
    ReadsLinks links rest := by
  induction n : links.length using Nat.strongRecOn generalizing links with
  | ind n ih =>
    subst n
    intro min ts e operand
    obtain ⟨t, front, back, same, chain, grouped, fits, stops, reads⟩ :=
      operators_readTree ends min (.operand e) written
        (fun later less written => ih later.length less written rfl) trivial nofun nofun
    exact ⟨t, front, back, same, chain, grouped, fits, stops,
      reads_expression (operand.reads_links ends written) reads⟩

/-- A chain of operands and binary operators is read whole, and as the only tree of its operands
and operators in which these are grouped by their levels. -/
theorem expression_chain {ts : List Token} {e : Expr} (operand : IsOperand ts e)
    (written : ∀ link ∈ links, link.IsWritten) (ends : Ends rest) :
    ∃ t : OperatorTree, t.chain = (e, links.map ChainLink.read) ∧ t.Grouped ∧
      (∀ t' : OperatorTree, t'.chain = (e, links.map ChainLink.read) → t'.Grouped → t' = t) ∧
      Reads (Grammar.expression .lowest) (ts ++ writtenChain links rest) t.toExpr rest := by
  obtain ⟨t, front, back, rfl, chain, grouped, -, stops, reads⟩ :=
    readsLinks ends written .lowest ts e operand
  have all : back = [] := by
    cases back with
    | nil => rfl
    | cons link back => cases (Infix.continuesAt_lowest _).symm.trans (stops link rfl)
  subst all
  rw [List.append_nil] at reads ⊢
  exact ⟨t, chain, grouped, fun t' chain' grouped' =>
    grouped'.eq_of_chain grouped (chain'.trans chain.symm), reads⟩

theorem expression_chain_mixed :
    Reads (Grammar.expression .lowest)
      ((Expr.var "a").operandTokens ++ writtenChain
        [.printed .coalesce (.var "b"), .printed .concat (.assign (.var "c") (.var "d")),
          .printed .add (.var "e"), .printed .mul (.var "f"), .printed .coalesce (.var "g")]
        [.symbol .semicolon])
      (.binary .coalesce (.var "a") (.binary .coalesce
        (.binary .concat (.var "b") (.binary .add (.assign (.var "c") (.var "d"))
          (.binary .mul (.var "e") (.var "f"))))
        (.var "g")))
      [.symbol .semicolon] := by
  have var : ∀ name, (Expr.var name).ReadsBack := fun name => .atom rfl trivial
  have written : ∀ link ∈ [ChainLink.printed .coalesce (.var "b"),
      .printed .concat (.assign (.var "c") (.var "d")), .printed .add (.var "e"),
      .printed .mul (.var "f"), .printed .coalesce (.var "g")], link.IsWritten := by
    simp only [List.forall_mem_cons, List.not_mem_nil, false_imp_iff, implies_true, and_true]
    exact ⟨.printed _ (var "b"), .printed _ (.assign (var "c") (var "d")), .printed _ (var "e"),
      .printed _ (var "f"), .printed _ (var "g")⟩
  have ends : Ends [.symbol .semicolon] := by rintro _ ⟨⟩; rfl
  obtain ⟨t, -, -, only, reads⟩ := expression_chain (var "a").isOperand written ends
  rwa [← only (.node .coalesce (.operand (.var "a")) (.node .coalesce
    (.node .concat (.operand (.var "b")) (.node .add (.operand (.assign (.var "c") (.var "d")))
      (.node .mul (.operand (.var "e")) (.operand (.var "f")))))
    (.operand (.var "g")))) rfl (by simp [OperatorTree.Grouped, OperatorTree.root?,
      BinaryOp.FitsLeft, BinaryOp.FitsRight, BinaryOp.rank, BinaryOp.precedence,
      Precedence.rank])]
    at reads

end ResponseShape

import ResponseShape.Grammar.Phrase
import ResponseShape.Proofs.Parsing
import ResponseShape.Proofs.Rereading

/-! The forms of expressions and statements, read by two families of parsers for the phrases nested
in them. Where these agree on shorter streams the forms agree, they read at least one token, and
the trees they answer with can be written. Main statements: `Grammar.expression_eq` and
`Grammar.statement_eq`, every phrase is read by the forms alone. -/
namespace ResponseShape

namespace Name

def IsWritten (n : Name) : Prop := ofWritten n.written = n

theorem written_ofWritten (text : String) : (ofWritten text).written = text := by
  unfold ofWritten
  split
  · rfl
  · rename_i c rest h
    split
    · rename_i lead
      simp only [written]
      rw [← String.toList_inj, h, lead]
      simp
    · split <;> rfl

theorem isWritten_ofWritten (text : String) : (ofWritten text).IsWritten := by
  rw [IsWritten, written_ofWritten]

end Name

/-- Words that stand for a value and not for a constant. -/
def literalWords : List String := ["true", "false", "null"]

def Name.IsConstant (n : Name) : Prop :=
  n.IsWritten ∧ Text.foldCase n.written ∉ literalWords

def ArrayItem.IsWritten (item : ArrayItem) : Prop := item.unpacked = true → item.key = none

/-- Names are what is written for them, no constant is named as a value is, and what is unpacked
has no key. -/
def Expr.IsWritten : Expr → Prop
  | .constant name | .classConstant name _ | .staticCall name _ _ => name.IsConstant
  | .new owner _ => owner.IsWritten
  | .array items => ∀ item ∈ items, item.IsWritten
  | _ => True

open ResponseShape.Parser

theorem forall_mem_snoc {α : Type} {P : α → Prop} {l : List α} {a : α} (h : ∀ b ∈ l, P b)
    (last : P a) : ∀ b ∈ l ++ [a], P b :=
  List.forall_mem_append.2 ⟨h, List.forall_mem_singleton.2 last⟩

namespace Nested

/-- Parsers for nested phrases answer alike: for expressions where fewer than `n` tokens are left,
for statements where fewer than `m` are. -/
structure Agrees (N M : Nested) (n m : Nat) : Prop where
  expression : ∀ {s min}, s.left < n →
    SameAt s (Fewer s.left (Expr.All Expr.IsWritten)) (N.expression min) (M.expression min)
  statement : ∀ {s}, s.left < m →
    SameAt s (Fewer s.left fun o => allOfBody Expr.IsWritten o.toList) N.statement M.statement

variable {N M : Nested} {n m : Nat} {s : TokenStream}

theorem passArgumentName_same :
    SameAt s (fun _ rest => rest.left ≤ s.left) passArgumentName passArgumentName := by
  refine .step (p := sees .identifier) rfl (.step (p := secondKind?) rfl ?_)
  split
  · refine SameAt.pass.bind fun _ s₁ h₁ => SameAt.pass.mono fun _ s₂ h₂ => ?_
    exact Nat.le_trans h₂ h₁
  · exact .pure (Nat.le_refl _)

theorem statementEnd_same (expectation : Expectation) :
    SameAt s (fun _ rest => rest.left ≤ s.left) (statementEnd expectation)
      (statementEnd expectation) := by
  refine .ifAccept (fun s₁ h₁ => .pure (Nat.le_of_lt h₁)) (.step (p := atEnd) rfl ?_)
  split
  · exact .pure (Nat.le_refl _)
  · exact .reject _

theorem seesWord_same (word : String) :
    SameAt s (fun b rest => rest = s ∧ (b = true → 0 < s.left)) (seesWord word)
      (seesWord word) := by
  refine .next (.pure ⟨rfl, nofun⟩) fun t more => ?_
  split <;> exact .pure ⟨rfl, fun _ => more⟩

theorem switchStatement_same (more : 0 < s.left) :
    SameAt s (Fewer s.left (Stmt.All Expr.IsWritten)) switchStatement switchStatement := by
  refine .advance more fun s₁ h₁ => (SameAt.passGroup _ _).bind fun _ s₂ h₂ => ?_
  exact (SameAt.passGroup _ _).bind fun _ s₃ h₃ => .pure ⟨by omega, trivial⟩

theorem seesCast_same :
    SameAt s (fun b rest => rest = s ∧ (b = true → 0 < s.left)) seesCast seesCast := by
  refine .refl ?_
  unfold seesCast
  split
  · rename_i tokens
    refine ⟨rfl, fun _ => ?_⟩
    rw [TokenStream.left, tokens]
    exact Nat.succ_pos _
  · exact ⟨rfl, fun seen => absurd seen Bool.false_ne_true⟩

namespace Agrees

variable (h : N.Agrees M n m)

include h

theorem anyExpression (short : s.left < n) :
    SameAt s (Fewer s.left (Expr.All Expr.IsWritten)) N.anyExpression M.anyExpression :=
  h.expression short

theorem arrayItem (short : s.left < n) :
    SameAt s (Fewer s.left fun item => item.IsWritten ∧ allOfItems Expr.IsWritten [item])
      N.arrayItem M.arrayItem := by
  refine .ifAccept (fun s₁ h₁ => ?_) ?_
  · refine (h.anyExpression (by omega)).bind fun e s₂ ⟨h₂, he⟩ => ?_
    exact .pure ⟨by omega, fun _ => rfl, he, trivial⟩
  · refine (SameAt.mark _).bind fun _ s₁ h₁ => ?_
    refine (h.anyExpression (by omega)).bind fun first s₂ ⟨h₂, hfirst⟩ => ?_
    refine .ifAccept (fun s₃ h₃ => ?_) ?_
    · refine (SameAt.mark _).bind fun _ s₄ h₄ => ?_
      refine (h.anyExpression (by omega)).bind fun value s₅ ⟨h₅, hvalue⟩ => ?_
      exact .pure ⟨by omega, nofun, hfirst, hvalue, trivial⟩
    · exact .pure ⟨by omega, fun _ => rfl, hfirst, trivial⟩

theorem arrayRound (closing : Symbol) (short : s.left < n) {items : List ArrayItem}
    (known : (Expr.array items).All Expr.IsWritten) :
    SameAt s
      (SameAt.Round s (fun items => (Expr.array items).All Expr.IsWritten)
        fun items => (Expr.array items).All Expr.IsWritten)
      (N.arrayRound closing items) (M.arrayRound closing items) := by
  refine .ifSees (fun _ => .pure ⟨Nat.le_refl _, known⟩) ?_
  refine .ifAccept (fun s₁ h₁ => .pure ⟨h₁, known⟩) ?_
  refine (h.arrayItem short).bind fun item s₁ ⟨h₁, hitem⟩ => ?_
  have longer : (Expr.array (items ++ [item])).All Expr.IsWritten :=
    ⟨forall_mem_snoc known.1 hitem.1, (allOfItems_append _ _ _).2 ⟨known.2, hitem.2⟩⟩
  exact .commaOrEnd longer h₁

theorem arrayItems (closing : Symbol) (short : s.left < n) :
    SameAt s (Fewer s.left (Expr.All Expr.IsWritten)) (N.arrayItems closing)
      (M.arrayItems closing) := by
  have empty : (Expr.array []).All Expr.IsWritten := ⟨nofun, trivial⟩
  refine (SameAt.iterate (fun _ s' le => h.arrayRound closing (by omega)) empty).bind
    fun items s₁ ⟨h₁, hitems⟩ => ?_
  refine (SameAt.expect _ _).bind fun _ s₂ h₂ => ?_
  exact .pure ⟨by omega, hitems⟩

theorem argumentRound (short : s.left < n) {args : List Expr}
    (known : allOfArgs Expr.IsWritten args) :
    SameAt s (SameAt.Round s (allOfArgs Expr.IsWritten) (allOfArgs Expr.IsWritten))
      (N.argumentRound args) (M.argumentRound args) := by
  refine .ifSees (fun _ => .pure ⟨Nat.le_refl _, known⟩) ?_
  refine .ifAccept (fun s₁ h₁ => .ifSees (fun _ => .pure ⟨by omega, known⟩) ?_) ?_
  -- the argument, behind an ellipsis or not
  all_goals
    refine passArgumentName_same.bind fun _ s₂ h₂ => ?_
    refine (h.anyExpression (by omega)).bind fun e s₃ ⟨h₃, he⟩ => ?_
    have longer : allOfArgs Expr.IsWritten (args ++ [e]) :=
      (allOfArgs_append _ _ _).2 ⟨known, he, trivial⟩
    exact .commaOrEnd longer (by omega)

theorem arguments (short : s.left ≤ n) :
    SameAt s (Fewer s.left (allOfArgs Expr.IsWritten)) N.arguments M.arguments := by
  refine (SameAt.expect _ _).bind fun _ s₁ h₁ => ?_
  refine (SameAt.iterate (fun _ s' le => h.argumentRound (by omega))
    (show allOfArgs Expr.IsWritten [] from trivial)).bind
    fun args s₂ ⟨h₂, hargs⟩ => ?_
  refine (SameAt.expect _ _).bind fun _ s₃ h₃ => ?_
  exact .pure ⟨by omega, hargs⟩

theorem blockRound (short : s.left < m) {body : List Stmt}
    (known : allOfBody Expr.IsWritten body) :
    SameAt s (SameAt.Round s (allOfBody Expr.IsWritten) (allOfBody Expr.IsWritten))
      (N.blockRound body) (M.blockRound body) := by
  refine .ifAccept (fun s₁ h₁ => .pure ⟨Nat.le_of_lt h₁, known⟩) ?_
  refine .step (p := atEnd) rfl ?_
  split
  · exact .rejectThen _
  · refine (h.statement short).bind fun o s₁ ⟨h₁, ho⟩ => ?_
    exact .pure ⟨h₁, (allOfBody_append _ _ _).2 ⟨known, ho⟩⟩

theorem block (short : s.left ≤ m) :
    SameAt s (Fewer s.left (allOfBody Expr.IsWritten)) N.block M.block := by
  refine (SameAt.expect _ _).bind fun _ s₁ h₁ => ?_
  refine (SameAt.iterate (fun _ s' le => h.blockRound (by omega))
    (show allOfBody Expr.IsWritten [] from trivial)).mono ?_
  exact fun body rest ⟨h₂, hbody⟩ => ⟨by omega, hbody⟩

theorem construction (more : 0 < s.left) (short : s.left ≤ n) :
    SameAt s (Fewer s.left (Expr.All Expr.IsWritten)) N.construction M.construction := by
  refine .advance more fun s₁ h₁ => .next (.rejectThen _) fun t more₁ => ?_
  split
  case h_3 => exact .rejectThen _
  case h_4 => exact .rejectThen _
  all_goals
    refine .advance more₁ fun s₂ h₂ => .step (p := pure _) rfl ?_
    refine .ifSees (fun _ => ?_) (.pure ⟨by omega, Name.isWritten_ofWritten _, trivial⟩)
    refine (h.arguments (by omega)).bind fun args s₃ ⟨h₃, hargs⟩ => ?_
    exact .pure ⟨by omega, Name.isWritten_ofWritten _, hargs⟩

theorem arrowFunction (more : 0 < s.left) (short : s.left ≤ n) :
    SameAt s (Fewer s.left (Expr.All Expr.IsWritten)) N.arrowFunction M.arrowFunction := by
  refine .advance more fun s₁ h₁ => ?_
  refine (SameAt.mark _).bind fun _ s₂ h₂ => ?_
  refine SameAt.parameters.bind fun params s₃ h₃ => ?_
  refine SameAt.passReturnType.bind fun _ s₄ h₄ => ?_
  refine (SameAt.expect _ _).bind fun _ s₅ h₅ => ?_
  refine (h.anyExpression (by omega)).bind fun body s₆ ⟨h₆, hbody⟩ => ?_
  exact .pure ⟨by omega, trivial, hbody⟩

theorem closure (more : 0 < s.left) (short : s.left ≤ m) :
    SameAt s (Fewer s.left (Expr.All Expr.IsWritten)) N.closure M.closure := by
  refine .advance more fun s₁ h₁ => ?_
  refine (SameAt.mark _).bind fun _ s₂ h₂ => ?_
  refine SameAt.parameters.bind fun params s₃ h₃ => ?_
  refine .ifAccept (fun s₄ h₄ => (SameAt.passGroup _ _).bind fun _ s₅ h₅ => ?_) ?_
  all_goals
    refine SameAt.passReturnType.bind fun _ s₆ h₆ => ?_
    refine (h.block (by omega)).bind fun body s₇ ⟨h₇, hbody⟩ => ?_
    exact .pure ⟨by omega, trivial, hbody⟩

theorem wordExpression (lexeme : String) (short : s.left < n) :
    SameAt s (Fewer (s.left + 1) (Expr.All Expr.IsWritten)) (N.wordExpression lexeme)
      (M.wordExpression lexeme) := by
  unfold Nested.wordExpression
  split
  · exact .pure ⟨by omega, trivial⟩
  · exact .pure ⟨by omega, trivial⟩
  · exact .pure ⟨by omega, trivial⟩
  · rename_i word
    refine .ifAccept (fun s₁ h₁ => ?_) (.pure ⟨by omega, ?_⟩)
    · exact (h.arrayItems _ (by omega)).mono fun _ _ ⟨h₂, he⟩ => ⟨by omega, he⟩
    · refine ⟨Name.isWritten_ofWritten _, ?_⟩
      rw [Name.written_ofWritten, word]
      decide
  · rename_i notTrue notFalse notNull _
    refine .pure ⟨by omega, Name.isWritten_ofWritten _, ?_⟩
    rw [Name.written_ofWritten]
    simp only [literalWords, List.mem_cons, List.not_mem_nil, or_false, not_or]
    exact ⟨notTrue, notFalse, notNull⟩

theorem primary (short : s.left ≤ n) (short' : s.left ≤ m) :
    SameAt s (Fewer s.left (Expr.All Expr.IsWritten)) N.primary M.primary := by
  refine .next (.refl nofun) fun t more => ?_
  obtain ⟨kind, lexeme, position⟩ := t
  dsimp only
  split
  · exact .advance more fun s₁ h₁ => .pure ⟨h₁, trivial⟩
  · exact .advance more fun s₁ h₁ => .pure ⟨h₁, trivial⟩
  · exact .advance more fun s₁ h₁ => .pure ⟨h₁, trivial⟩
  · exact .advance more fun s₁ h₁ => .pure ⟨h₁, trivial⟩
  · refine .advance more fun s₁ h₁ => (h.arrayItems _ (by omega)).mono ?_
    exact fun _ _ ⟨h₂, he⟩ => ⟨by omega, he⟩
  · refine .advance more fun s₁ h₁ => ?_
    refine (h.anyExpression (by omega)).bind fun e s₂ ⟨h₂, he⟩ => ?_
    exact (SameAt.expect _ _).bind fun _ s₃ h₃ => .pure ⟨by omega, he⟩
  · exact h.construction more short
  · exact h.arrowFunction more short
  · exact h.closure more short'
  · refine .advance more fun s₁ h₁ => ?_
    have less : ∀ e rest, Fewer s₁.left (Expr.All Expr.IsWritten) e rest →
        Fewer s.left (Expr.All Expr.IsWritten) e rest := fun e rest ⟨h₂, he⟩ => ⟨by omega, he⟩
    refine .ifSees (fun more₁ => (h.arrowFunction more₁ (by omega)).mono less) ?_
    refine .ifSees (fun more₁ => (h.closure more₁ (by omega)).mono less) ?_
    exact .pure ⟨h₁, Name.isWritten_ofWritten _, by decide⟩
  · refine .advance more fun s₁ h₁ => (h.wordExpression _ (by omega)).mono ?_
    exact fun _ _ ⟨h₂, he⟩ => ⟨by omega, he⟩
  · exact .refl nofun

theorem memberAccess {target : Expr} (known : target.All Expr.IsWritten) (nullsafe : Bool)
    (more : 0 < s.left) (short : s.left ≤ n) :
    SameAt s (Fewer s.left (Expr.All Expr.IsWritten)) (N.memberAccess target nullsafe)
      (M.memberAccess target nullsafe) := by
  refine .advance more fun s₁ h₁ => (SameAt.memberName _).bind fun name s₂ h₂ => ?_
  refine .ifSees (fun _ => ?_) (.pure ⟨by omega, trivial, known⟩)
  refine (h.arguments (by omega)).bind fun args s₃ ⟨h₃, hargs⟩ => ?_
  exact .pure ⟨by omega, trivial, known, hargs⟩

theorem staticAccess {target : Expr} (known : target.All Expr.IsWritten)
    (more : 0 < s.left) (short : s.left ≤ n) :
    SameAt s (Fewer s.left (Expr.All Expr.IsWritten)) (N.staticAccess target)
      (M.staticAccess target) := by
  cases target with
  | constant owner =>
    refine .advance more fun s₁ h₁ => (SameAt.memberName _).bind fun name s₂ h₂ => ?_
    refine .ifSees (fun _ => ?_) (.pure ⟨by omega, known⟩)
    refine (h.arguments (by omega)).bind fun args s₃ ⟨h₃, hargs⟩ => ?_
    exact .pure ⟨by omega, known, hargs⟩
  | _ => exact .reject _

theorem indexing {target : Expr} (known : target.All Expr.IsWritten)
    (more : 0 < s.left) (short : s.left ≤ n) :
    SameAt s (Fewer s.left (Expr.All Expr.IsWritten)) (N.indexing target)
      (M.indexing target) := by
  refine .advance more fun s₁ h₁ => .ifSees (fun _ => .step (p := pure _) rfl ?_) ?_
  · exact (SameAt.expect _ _).bind fun _ s₂ h₂ => .pure ⟨by omega, trivial, known⟩
  · have index := (h.anyExpression (s := s₁) (by omega)).map (f := some)
      (S := fun o rest => ∃ e, o = some e ∧ Fewer s₁.left (Expr.All Expr.IsWritten) e rest)
      fun e rest he => ⟨e, rfl, he⟩
    refine index.bind fun o s₂ found => ?_
    obtain ⟨e, rfl, h₂, he⟩ := found
    exact (SameAt.expect _ _).bind fun _ s₃ h₃ => .pure ⟨by omega, trivial, known, he⟩

theorem suffixRound {target : Expr} (known : target.All Expr.IsWritten) (short : s.left ≤ n) :
    SameAt s (SameAt.Round s (Expr.All Expr.IsWritten) (Expr.All Expr.IsWritten))
      (N.suffixRound target) (M.suffixRound target) := by
  have again : ∀ {p q : Parser Expr},
      SameAt s (Fewer s.left (Expr.All Expr.IsWritten)) p q →
      SameAt s (SameAt.Round s (Expr.All Expr.IsWritten) (Expr.All Expr.IsWritten))
        (do return .inl (← p)) (do return .inl (← q)) :=
    fun same => same.bind fun e rest he => .pure he
  have stop : ∀ {state : Expr ⊕ Expr}, state = .inr target →
      SameAt s (SameAt.Round s (Expr.All Expr.IsWritten) (Expr.All Expr.IsWritten))
        (pure state) (pure state) := by
    rintro _ rfl
    exact .pure ⟨Nat.le_refl _, known⟩
  refine .kind (stop rfl) fun k more => ?_
  split
  · exact again (h.memberAccess known false more short)
  · exact again (h.memberAccess known true more short)
  · exact again (h.staticAccess known more short)
  · refine (h.arguments short).bind fun args s₁ ⟨h₁, hargs⟩ => ?_
    exact .pure ⟨h₁, trivial, known, hargs⟩
  · exact again (h.indexing known more short)
  · exact stop rfl

theorem operand (short : s.left ≤ n) (short' : s.left ≤ m) :
    SameAt s (Fewer s.left (Expr.All Expr.IsWritten)) N.operand M.operand := by
  have behind : ∀ {s' : TokenStream}, s'.left < s.left →
      SameAt s' (Fewer s.left (Expr.All Expr.IsWritten)) (N.expression .unary)
        (M.expression .unary) := fun {s'} h' =>
    (h.expression (by omega)).mono fun e rest ⟨h₂, he⟩ => ⟨by omega, he⟩
  refine .kind ?ended fun k more => ?next
  case' next =>
    split
    case h_1 | h_2 =>
      exact .advance more fun s₁ h₁ => (behind h₁).bind fun e s₂ ⟨h₂, he⟩ =>
        .pure ⟨h₂, trivial, he⟩
    case h_3 | h_4 => exact .advance more fun s₁ h₁ => behind h₁
  -- no sign of an operator is next: a cast or a plain operand
  all_goals
    refine seesCast_same.bind fun b s₁ ⟨same, more⟩ => ?_
    subst same
    split
    · rename_i cast
      refine .advance (more cast) fun s₂ h₂ => ?_
      refine SameAt.pass.bind fun _ s₃ h₃ => SameAt.pass.bind fun _ s₄ h₄ => ?_
      exact behind (by omega)
    · refine (h.primary short short').bind fun e s₂ ⟨h₂, he⟩ => ?_
      refine (SameAt.iterate (fun _ s' le known => h.suffixRound known (by omega)) he).mono ?_
      exact fun e rest ⟨h₃, he⟩ => ⟨by omega, he⟩

theorem rightPart {lhs : Expr} (known : lhs.All Expr.IsWritten) (o : Infix) (short : s.left < n) :
    SameAt s (Fewer s.left (Expr.All Expr.IsWritten)) (N.rightPart lhs o) (M.rightPart lhs o) := by
  cases o with
  | assign =>
    refine (SameAt.mark _).bind fun _ s₁ h₁ => ?_
    refine (h.anyExpression (by omega)).bind fun value s₂ ⟨h₂, hvalue⟩ => ?_
    exact .pure ⟨by omega, trivial, known, hvalue⟩
  | ternary =>
    refine .ifSees (fun more => .step (p := pure _) rfl ?_) ?_
    · refine (SameAt.expect _ _).bind fun _ s₁ h₁ => ?_
      refine (h.expression (by omega)).bind fun otherwise s₂ ⟨h₂, hotherwise⟩ => ?_
      exact .pure ⟨by omega, trivial, known, hotherwise⟩
    · have middle := (h.anyExpression short).map (f := some)
        (S := fun o rest =>
          ∃ e, o = some e ∧ Fewer s.left (Expr.All Expr.IsWritten) e rest)
        fun e rest he => ⟨e, rfl, he⟩
      refine middle.bind fun o s₁ found => ?_
      obtain ⟨e, rfl, h₁, he⟩ := found
      refine (SameAt.expect _ _).bind fun _ s₂ h₂ => ?_
      refine (h.expression (by omega)).bind fun otherwise s₃ ⟨h₃, hotherwise⟩ => ?_
      exact .pure ⟨by omega, trivial, known, he, hotherwise⟩
  | binary op =>
    refine (h.expression short).bind fun rhs s₁ ⟨h₁, hrhs⟩ => ?_
    exact .pure ⟨h₁, trivial, known, hrhs⟩

theorem operatorRound (min : Precedence) {lhs : Expr} (known : lhs.All Expr.IsWritten)
    (short : s.left ≤ n) :
    SameAt s (SameAt.Round s (Expr.All Expr.IsWritten) (Expr.All Expr.IsWritten))
      (N.operatorRound min lhs) (M.operatorRound min lhs) := by
  refine .kind (.pure ⟨Nat.le_refl _, known⟩) fun k more => ?_
  split
  · exact .pure ⟨Nat.le_refl _, known⟩
  · rename_i o _
    split
    · refine .advance more fun s₁ h₁ => ?_
      refine (h.rightPart known o (by omega)).bind fun e s₂ ⟨h₂, he⟩ => ?_
      exact .pure ⟨by omega, he⟩
    · exact .pure ⟨Nat.le_refl _, known⟩

theorem expressionAt (min : Precedence) (short : s.left ≤ n) (short' : s.left ≤ m) :
    SameAt s (Fewer s.left (Expr.All Expr.IsWritten)) (N.expressionAt min)
      (M.expressionAt min) := by
  refine (h.operand short short').bind fun e s₁ ⟨h₁, he⟩ => ?_
  refine (SameAt.iterate (fun _ s' le known => h.operatorRound min known (by omega)) he).mono ?_
  exact fun e rest ⟨h₂, he⟩ => ⟨by omega, he⟩

theorem body (short : s.left < m) :
    SameAt s (Fewer s.left (allOfBody Expr.IsWritten)) N.body M.body := by
  refine .ifSees (fun _ => h.block (by omega)) ?_
  exact (h.statement short).bind fun o s₁ ho => .pure ho

theorem returnStatement (more : 0 < s.left) (short : s.left ≤ n) :
    SameAt s (Fewer s.left (Stmt.All Expr.IsWritten)) N.returnStatement M.returnStatement := by
  refine .advance more fun s₁ h₁ => .ifAccept (fun s₂ h₂ => .pure ⟨by omega, trivial⟩) ?_
  refine (h.anyExpression (by omega)).bind fun e s₂ ⟨h₂, he⟩ => ?_
  exact (statementEnd_same _).bind fun _ s₃ h₃ => .pure ⟨by omega, he⟩

theorem condition (short : s.left ≤ n) :
    SameAt s (Fewer s.left (Expr.All Expr.IsWritten)) N.condition M.condition := by
  refine (SameAt.expect _ _).bind fun _ s₁ h₁ => ?_
  refine (h.anyExpression (by omega)).bind fun e s₂ ⟨h₂, he⟩ => ?_
  exact (SameAt.expect _ _).bind fun _ s₃ h₃ => .pure ⟨by omega, he⟩

theorem elseRound (short : s.left ≤ n) (short' : s.left ≤ m) {elseIfs : List ElseIf}
    (known : allOfElseIfs Expr.IsWritten elseIfs) :
    SameAt s
      (SameAt.Round s (allOfElseIfs Expr.IsWritten) fun r =>
        allOfElseIfs Expr.IsWritten r.1 ∧ ∀ body, r.2 = some body → allOfBody Expr.IsWritten body)
      (N.elseRound elseIfs) (M.elseRound elseIfs) := by
  refine .ifAccept (fun s₁ h₁ => ?_) (.ifAccept (fun s₁ h₁ => ?_) ?_)
  · refine (h.condition (by omega)).bind fun e s₂ ⟨h₂, he⟩ => ?_
    refine (h.body (by omega)).bind fun body s₃ ⟨h₃, hbody⟩ => ?_
    exact .pure ⟨by omega, (allOfElseIfs_append _ _ _).2 ⟨known, he, hbody, trivial⟩⟩
  · refine (h.body (by omega)).bind fun body s₂ ⟨h₂, hbody⟩ => ?_
    exact .pure ⟨by omega, known, by rintro _ ⟨⟩; exact hbody⟩
  · exact .pure ⟨Nat.le_refl _, known, nofun⟩

theorem ifStatement (more : 0 < s.left) (short : s.left ≤ n) (short' : s.left ≤ m) :
    SameAt s (Fewer s.left (Stmt.All Expr.IsWritten)) N.ifStatement M.ifStatement := by
  refine .advance more fun s₁ h₁ => ?_
  refine (h.condition (by omega)).bind fun e s₂ ⟨h₂, he⟩ => ?_
  refine (h.body (by omega)).bind fun body s₃ ⟨h₃, hbody⟩ => ?_
  refine (SameAt.iterate (fun _ s' le known => h.elseRound (by omega) (by omega) known)
    (show allOfElseIfs Expr.IsWritten [] from trivial)).bind fun r s₄ ⟨h₄, hr⟩ => ?_
  obtain ⟨elseIfs, _ | otherwise⟩ := r
  · exact .pure ⟨by omega, he, hbody, hr.1⟩
  · exact .pure ⟨by omega, he, hbody, hr.1, hr.2 _ rfl⟩

theorem foreachTarget (short : s.left < n) :
    SameAt s (Fewer s.left (Expr.All Expr.IsWritten)) N.foreachTarget M.foreachTarget := by
  refine (SameAt.mark _).bind fun _ s₁ h₁ => (h.anyExpression (by omega)).mono ?_
  exact fun e rest ⟨h₂, he⟩ => ⟨by omega, he⟩

theorem foreachStatement (more : 0 < s.left) (short : s.left ≤ n) (short' : s.left ≤ m) :
    SameAt s (Fewer s.left (Stmt.All Expr.IsWritten)) N.foreachStatement M.foreachStatement := by
  refine .advance more fun s₁ h₁ => (SameAt.expect _ _).bind fun _ s₂ h₂ => ?_
  refine (h.anyExpression (by omega)).bind fun subject s₃ ⟨h₃, hsubject⟩ => ?_
  refine .ifAccept (fun s₄ h₄ => ?_) (.reject _)
  refine (h.foreachTarget (by omega)).bind fun first s₅ ⟨h₅, hfirst⟩ => ?_
  refine .ifAccept (fun s₆ h₆ => ?_) (.step (p := pure _) rfl ?_)
  · refine (h.foreachTarget (by omega)).bind fun value s₇ ⟨h₇, hvalue⟩ => ?_
    refine .step (p := pure _) rfl ((SameAt.expect _ _).bind fun _ s₈ h₈ => ?_)
    refine (h.body (by omega)).bind fun body s₉ ⟨h₉, hbody⟩ => ?_
    exact .pure ⟨by omega, hsubject, hfirst, hvalue, hbody⟩
  · refine (SameAt.expect _ _).bind fun _ s₆ h₆ => ?_
    refine (h.body (by omega)).bind fun body s₇ ⟨h₇, hbody⟩ => ?_
    exact .pure ⟨by omega, hsubject, hfirst, hbody⟩

theorem loopStatement (more : 0 < s.left) (short' : s.left ≤ m) :
    SameAt s (Fewer s.left (Stmt.All Expr.IsWritten)) N.loopStatement M.loopStatement := by
  refine .advance more fun s₁ h₁ => (SameAt.passGroup _ _).bind fun _ s₂ h₂ => ?_
  exact (h.body (by omega)).bind fun body s₃ ⟨h₃, hbody⟩ => .pure ⟨by omega, hbody⟩

theorem handlerRound (short : s.left ≤ m) {blocks : List Stmt}
    (known : allOfBody Expr.IsWritten blocks) :
    SameAt s (SameAt.Round s (allOfBody Expr.IsWritten) (allOfBody Expr.IsWritten))
      (N.handlerRound blocks) (M.handlerRound blocks) := by
  have handled : ∀ {body : List Stmt}, allOfBody Expr.IsWritten body →
      allOfBody Expr.IsWritten (blocks ++ [.block body]) := fun hbody =>
    (allOfBody_append _ _ _).2 ⟨known, hbody, trivial⟩
  refine (seesWord_same _).bind fun b s₁ ⟨same, more⟩ => ?_
  subst same
  split
  · rename_i seen
    refine .advance (more seen) fun s₂ h₂ => (SameAt.passGroup _ _).bind fun _ s₃ h₃ => ?_
    refine (h.block (by omega)).bind fun body s₄ ⟨h₄, hbody⟩ => ?_
    exact .pure ⟨by omega, handled hbody⟩
  · refine (seesWord_same _).bind fun b s₂ ⟨same, more⟩ => ?_
    subst same
    split
    · rename_i seen
      refine .advance (more seen) fun s₃ h₃ => ?_
      refine (h.block (by omega)).bind fun body s₄ ⟨h₄, hbody⟩ => ?_
      exact .pure ⟨by omega, handled hbody⟩
    · exact .pure ⟨Nat.le_refl _, known⟩

theorem tryStatement (more : 0 < s.left) (short : s.left ≤ m) :
    SameAt s (Fewer s.left (Stmt.All Expr.IsWritten)) N.tryStatement M.tryStatement := by
  refine .advance more fun s₁ h₁ => (h.block (by omega)).bind fun body s₂ ⟨h₂, hbody⟩ => ?_
  refine (SameAt.iterate (fun _ s' le known => h.handlerRound (by omega) known)
    (show allOfBody Expr.IsWritten [.block body] from ⟨hbody, trivial⟩)).bind
    fun blocks s₃ ⟨h₃, hblocks⟩ => ?_
  exact .pure ⟨by omega, hblocks⟩

theorem expressionStatement (short : s.left < n) :
    SameAt s (Fewer s.left (Stmt.All Expr.IsWritten)) N.expressionStatement
      M.expressionStatement := by
  refine (h.anyExpression short).bind fun e s₁ ⟨h₁, he⟩ => ?_
  exact (statementEnd_same _).bind fun _ s₂ h₂ => .pure ⟨by omega, he⟩

theorem wordStatement (lexeme : String) (more : 0 < s.left) (short : s.left < n)
    (short' : s.left ≤ m) :
    SameAt s (Fewer s.left (Stmt.All Expr.IsWritten)) (N.wordStatement lexeme)
      (M.wordStatement lexeme) := by
  unfold Nested.wordStatement
  split
  case h_1 | h_2 => exact h.loopStatement more short'
  case h_3 => exact h.tryStatement more short'
  case h_4 => exact switchStatement_same more
  case h_5 | h_6 =>
    refine .step (p := secondKind?) rfl ?_
    split
    · refine .advance more fun s₁ h₁ => (h.expressionStatement (by omega)).mono ?_
      exact fun st rest ⟨h₂, hst⟩ => ⟨by omega, hst⟩
    · exact h.expressionStatement short
  case h_7 => exact h.expressionStatement short

theorem anyStatement (short : s.left < n) (short' : s.left ≤ m) :
    SameAt s (Fewer s.left fun o => allOfBody Expr.IsWritten o.toList) N.anyStatement
      M.anyStatement := by
  have one : ∀ {p q : Parser Stmt}, SameAt s (Fewer s.left (Stmt.All Expr.IsWritten)) p q →
      SameAt s (Fewer s.left fun o => allOfBody Expr.IsWritten o.toList)
        (do return some (← p)) (do return some (← q)) := fun same =>
    same.bind fun st rest hst => .pure ⟨hst.1, hst.2, trivial⟩
  refine .next (one (h.expressionStatement short)) fun t more => ?_
  split
  · exact .advance more fun s₁ h₁ => .pure ⟨h₁, trivial⟩
  · exact .advance more fun s₁ h₁ => .pure ⟨h₁, trivial⟩
  · exact (h.block short').bind fun body s₁ hbody => .pure ⟨hbody.1, hbody.2, trivial⟩
  · exact one (h.returnStatement more (by omega))
  · exact one (h.ifStatement more (by omega) short')
  · exact one (h.foreachStatement more (by omega) short')
  · exact one (h.wordStatement _ more short short')
  · exact one (h.expressionStatement short)

end Agrees

end Nested

namespace Grammar

/-- The parsers for nested phrases that a phrase gives to its form: they work only behind what the
phrase has read. -/
def guarded (n m : Nat) : Nested where
  expression min := below n (expression min)
  statement := below m statement

theorem expression_run (min : Precedence) (s : TokenStream) :
    expression min s = (guarded s.left s.left).expressionAt min s := by
  rw [expression]
  rfl

theorem statement_run (s : TokenStream) :
    statement s = (guarded (s.left + 1) s.left).anyStatement s := by
  rw [statement]
  simp only [← Nat.lt_succ_iff]
  rfl

theorem guarded_agrees {n m : Nat} (h : phrases.Agrees phrases n m) :
    (guarded n m).Agrees phrases n m where
  expression {s min} short := by
    have run : (guarded n m).expression min s = phrases.expression min s := if_pos short
    exact ⟨run, (h.expression short).outcome⟩
  statement {s} short := by
    have run : (guarded n m).statement s = phrases.statement s := if_pos short
    exact ⟨run, (h.statement short).outcome⟩

theorem expression_same {s : TokenStream} (h : phrases.Agrees phrases s.left s.left)
    (min : Precedence) :
    SameAt s (Fewer s.left (Expr.All Expr.IsWritten)) (expression min)
      (phrases.expressionAt min) := by
  have form := (guarded_agrees h).expressionAt min (Nat.le_refl _) (Nat.le_refl _)
  exact ⟨(expression_run min s).trans form.same, form.outcome⟩

theorem statement_same {s : TokenStream} (h : phrases.Agrees phrases (s.left + 1) s.left) :
    SameAt s (Fewer s.left fun o => allOfBody Expr.IsWritten o.toList) statement
      phrases.anyStatement := by
  have form := (guarded_agrees h).anyStatement (Nat.lt_succ_self _) (Nat.le_refl _)
  exact ⟨(statement_run s).trans form.same, form.outcome⟩

/-- Every phrase reads a token, does not stall, and answers with a tree that can be written. -/
theorem phrases_agree (n : Nat) : phrases.Agrees phrases n n := by
  induction n with
  | zero => exact ⟨nofun, nofun⟩
  | succ n ih =>
    -- a statement may begin with an expression that has all its tokens, so expressions go first
    have expressions : ∀ {s : TokenStream} {min}, s.left < n + 1 →
        SameAt s (Fewer s.left (Expr.All Expr.IsWritten)) (phrases.expression min)
          (phrases.expression min) := by
      intro s min short
      have fewer : phrases.Agrees phrases s.left s.left :=
        ⟨fun h => ih.expression (by omega), fun h => ih.statement (by omega)⟩
      have form := expression_same fewer min
      exact .refl (Eq.mpr (congrArg _ form.same) form.outcome)
    refine ⟨expressions, fun {s} short => ?_⟩
    have fewer : phrases.Agrees phrases (s.left + 1) s.left :=
      ⟨fun h => expressions (by omega), fun h => ih.statement (by omega)⟩
    have form := statement_same fewer
    exact .refl (Eq.mpr (congrArg _ form.same) form.outcome)

theorem phrases_agree_below (n m : Nat) : phrases.Agrees phrases n m :=
  ⟨fun _ => (phrases_agree _).expression (Nat.lt_succ_self _),
    fun _ => (phrases_agree _).statement (Nat.lt_succ_self _)⟩

theorem expression_eq (min : Precedence) : expression min = phrases.expressionAt min :=
  funext fun _ => (expression_same (phrases_agree_below _ _) min).same

theorem statement_eq : statement = phrases.anyStatement :=
  funext fun _ => (statement_same (phrases_agree_below _ _)).same

end Grammar

end ResponseShape

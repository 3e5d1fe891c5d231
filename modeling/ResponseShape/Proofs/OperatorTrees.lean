import ResponseShape.Grammar.Precedence

/-! Trees of binary operators over operands. A chain of operands and operators has one tree in which
the levels of binding are respected. Main statement: `OperatorTree.Grouped.eq_of_chain`. -/
namespace ResponseShape

namespace BinaryOp

def rank (op : BinaryOp) : Nat := op.precedence.rank

/-- An operator may stand in the left part of another if it binds at least as tightly; in the left
part of `??` only if it binds more tightly. -/
def FitsLeft (op parent : BinaryOp) : Prop :=
  if parent = .coalesce then parent.rank < op.rank else parent.rank ≤ op.rank

/-- The same for right parts, with the two conditions exchanged. -/
def FitsRight (op parent : BinaryOp) : Prop :=
  if parent = .coalesce then parent.rank ≤ op.rank else parent.rank < op.rank

instance (op parent : BinaryOp) : Decidable (op.FitsLeft parent) :=
  inferInstanceAs (Decidable (ite _ _ _))

instance (op parent : BinaryOp) : Decidable (op.FitsRight parent) :=
  inferInstanceAs (Decidable (ite _ _ _))

variable {op op' parent : BinaryOp}

theorem rank_eq_coalesce (same : op.rank = coalesce.rank) : op = .coalesce := by
  cases op <;> first | rfl | cases same

theorem FitsLeft.mono (fits : op.FitsLeft parent) (le : op.rank ≤ op'.rank) :
    op'.FitsLeft parent := by
  unfold FitsLeft at fits ⊢
  split at fits <;> split <;> first | contradiction | omega

theorem FitsRight.mono (fits : op.FitsRight parent) (le : op.rank ≤ op'.rank) :
    op'.FitsRight parent := by
  unfold FitsRight at fits ⊢
  split at fits <;> split <;> first | contradiction | omega

theorem FitsLeft.rank_le (fits : op.FitsLeft parent) : parent.rank ≤ op.rank := by
  unfold FitsLeft at fits
  split at fits <;> omega

theorem FitsRight.rank_le (fits : op.FitsRight parent) : parent.rank ≤ op.rank := by
  unfold FitsRight at fits
  split at fits <;> omega

/-- Of two operators one after the other only one can stand above the other. -/
theorem not_fitsRight_of_fitsLeft (fits : op.FitsLeft op') : ¬op'.FitsRight op := by
  intro fits'
  have same : op.rank = op'.rank := by
    have := fits.rank_le
    have := fits'.rank_le
    omega
  unfold FitsLeft at fits
  unfold FitsRight at fits'
  by_cases coalesce' : op' = .coalesce
  · rw [if_pos coalesce'] at fits
    omega
  · by_cases coalesce : op = .coalesce
    · subst coalesce
      exact coalesce' (rank_eq_coalesce same.symm)
    · rw [if_neg coalesce] at fits'
      omega

end BinaryOp

inductive OperatorTree where
  | operand (e : Expr)
  | node (op : BinaryOp) (left right : OperatorTree)

namespace OperatorTree

def toExpr : OperatorTree → Expr
  | operand e => e
  | node op left right => .binary op left.toExpr right.toExpr

def first : OperatorTree → Expr
  | operand e => e
  | node _ left _ => left.first

def links : OperatorTree → List (BinaryOp × Expr)
  | operand _ => []
  | node op left right => left.links ++ (op, right.first) :: right.links

def chain (t : OperatorTree) : Expr × List (BinaryOp × Expr) := (t.first, t.links)

def root? : OperatorTree → Option BinaryOp
  | operand _ => none
  | node op _ _ => some op

/-- The operators below an operator bind as tightly as their side asks. -/
def Grouped : OperatorTree → Prop
  | operand _ => True
  | node op left right =>
    (∀ child, left.root? = some child → child.FitsLeft op) ∧
      (∀ child, right.root? = some child → child.FitsRight op) ∧ left.Grouped ∧ right.Grouped

variable {t t' left right : OperatorTree} {op : BinaryOp}

theorem Grouped.rank_le (grouped : t.Grouped) {root : BinaryOp} (h : t.root? = some root) :
    ∀ link ∈ t.links, root.rank ≤ link.1.rank := by
  induction t generalizing root with
  | operand e => cases h
  | node op left right ihLeft ihRight =>
    obtain ⟨fitsLeft, fitsRight, groupedLeft, groupedRight⟩ := grouped
    cases h
    have below : ∀ (part : OperatorTree), (∀ c, part.root? = some c → op.rank ≤ c.rank) →
        (∀ {c}, part.root? = some c → ∀ link ∈ part.links, c.rank ≤ link.1.rank) →
        ∀ link ∈ part.links, op.rank ≤ link.1.rank := by
      intro part above within link mem
      cases part with
      | operand e => cases mem
      | node c l r => exact Nat.le_trans (above c rfl) (within rfl link mem)
    intro link mem
    rcases List.mem_append.1 mem with mem | mem
    · exact below left (fun c h => (fitsLeft c h).rank_le) (ihLeft groupedLeft) link mem
    · rcases List.mem_cons.1 mem with rfl | mem
      · exact Nat.le_refl _
      · exact below right (fun c h => (fitsRight c h).rank_le) (ihRight groupedRight) link mem

theorem Grouped.fitsLeft (grouped : (node op left right).Grouped) :
    ∀ link ∈ left.links, link.1.FitsLeft op := by
  intro link mem
  cases left with
  | operand e => cases mem
  | node c l r => exact (grouped.1 c rfl).mono (grouped.2.2.1.rank_le rfl link mem)

theorem Grouped.fitsRight (grouped : (node op left right).Grouped) :
    ∀ link ∈ right.links, link.1.FitsRight op := by
  intro link mem
  cases right with
  | operand e => cases mem
  | node c l r => exact (grouped.2.1 c rfl).mono (grouped.2.2.2.rank_le rfl link mem)

/-- If a root stands further left than that of another tree, it would have to be below this one and
above it. -/
theorem Grouped.roots_together {op' : BinaryOp} {left' right' : OperatorTree}
    (grouped : (node op left right).Grouped) (grouped' : (node op' left' right').Grouped)
    {between : List (BinaryOp × Expr)}
    (front : left'.links = left.links ++ (op, right.first) :: between)
    (back : right.links = between ++ (op', right'.first) :: right'.links) : False := by
  have below : op.FitsLeft op' := by
    apply grouped'.fitsLeft (op, right.first)
    simp [front]
  have above : op'.FitsRight op := by
    apply grouped.fitsRight (op', right'.first)
    simp [back]
  exact BinaryOp.not_fitsRight_of_fitsLeft below above

theorem Grouped.root_place {op' : BinaryOp} {left' right' : OperatorTree}
    (grouped : (node op left right).Grouped) (grouped' : (node op' left' right').Grouped)
    (same : (node op left right).links = (node op' left' right').links) :
    left.links = left'.links ∧
      (op, right.first) :: right.links = (op', right'.first) :: right'.links := by
  rcases List.append_eq_append_iff.1 same with ⟨between, front, back⟩ | ⟨between, front, back⟩
  · cases between with
    | nil => exact ⟨by rw [front, List.append_nil], back⟩
    | cons link between =>
      obtain ⟨here, back'⟩ := List.cons.inj back
      exact (grouped.roots_together grouped' (here ▸ front) back').elim
  · cases between with
    | nil => exact ⟨by rw [front, List.append_nil], back.symm⟩
    | cons link between =>
      obtain ⟨here, back'⟩ := List.cons.inj back
      exact (grouped'.roots_together grouped (here ▸ front) back').elim

/-- A chain has one tree at most in which the operators are grouped by their levels. -/
theorem Grouped.eq_of_chain (grouped : t.Grouped) (grouped' : t'.Grouped)
    (same : t.chain = t'.chain) : t = t' := by
  obtain ⟨first, later⟩ := Prod.mk.inj same
  induction t generalizing t' with
  | operand e =>
    cases t' with
    | operand e' => exact congrArg operand first
    | node op' left' right' => simp [links] at later
  | node op left right ihLeft ihRight =>
    cases t' with
    | operand e' => simp [links] at later
    | node op' left' right' =>
      obtain ⟨front, back⟩ := grouped.root_place grouped' later
      obtain ⟨here, last⟩ := List.cons.inj back
      obtain ⟨rfl, first'⟩ := Prod.mk.inj here
      rw [ihLeft grouped.2.2.1 grouped'.2.2.1 (Prod.ext first front) first front,
        ihRight grouped.2.2.2 grouped'.2.2.2 (Prod.ext first' last) first' last]

end OperatorTree

end ResponseShape

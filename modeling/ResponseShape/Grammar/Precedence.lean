import ResponseShape.Source.Tree
import ResponseShape.Token.Basic

/-!
The infix operators and how tightly they bind.
-/

namespace ResponseShape

inductive Precedence where
  | lowest
  | assignment
  | ternary
  | coalesce
  | or
  | and
  | equality
  | comparison
  | concat
  | term
  | factor
  | instanceOf
  | unary
  deriving DecidableEq, Repr

def Precedence.rank : Precedence → Nat
  | lowest => 0
  | assignment => 1
  | ternary => 2
  | coalesce => 3
  | or => 4
  | and => 5
  | equality => 6
  | comparison => 7
  | concat => 8
  | term => 9
  | factor => 10
  | instanceOf => 11
  | unary => 12

def BinaryOp.precedence : BinaryOp → Precedence
  | coalesce => .coalesce
  | or => .or
  | and => .and
  | equal | notEqual | identical | notIdentical => .equality
  | less | lessEqual | greater | greaterEqual => .comparison
  | concat => .concat
  | add | sub => .term
  | mul | div | mod => .factor
  | instanceOf => .instanceOf

inductive Infix where
  | assign
  | ternary
  | binary (op : BinaryOp)
  deriving DecidableEq, Repr

namespace Infix

def ofKind? : TokenKind → Option Infix
  | .symbol .equal | .symbol .compoundAssign => some .assign
  | .symbol .question => some .ternary
  | .symbol .doubleQuestion => some (.binary .coalesce)
  | .symbol .doublePipe | .keyword .kwOr => some (.binary .or)
  | .symbol .doubleAmpersand | .keyword .kwAnd => some (.binary .and)
  | .symbol .doubleEqual => some (.binary .equal)
  | .symbol .bangEqual => some (.binary .notEqual)
  | .symbol .tripleEqual => some (.binary .identical)
  | .symbol .bangDoubleEqual => some (.binary .notIdentical)
  | .symbol .less => some (.binary .less)
  | .symbol .lessEqual => some (.binary .lessEqual)
  | .symbol .greater => some (.binary .greater)
  | .symbol .greaterEqual => some (.binary .greaterEqual)
  | .symbol .dot => some (.binary .concat)
  | .symbol .plus => some (.binary .add)
  | .symbol .minus => some (.binary .sub)
  | .symbol .star => some (.binary .mul)
  | .symbol .slash => some (.binary .div)
  | .symbol .percent => some (.binary .mod)
  | .keyword .kwInstanceof => some (.binary .instanceOf)
  | _ => none

def precedence : Infix → Precedence
  | assign => .assignment
  | ternary => .ternary
  | binary op => op.precedence

def groupsRight : Infix → Bool
  | assign | binary .coalesce => true
  | _ => false

def continuesAt (o : Infix) (min : Precedence) : Bool :=
  min.rank < o.precedence.rank || (min = o.precedence && o.groupsRight)

end Infix

end ResponseShape

import ResponseShape.Number.Binary64

/-!
The shortest decimal that reads back as a given number: of all decimals that round to it, those
with the fewest digits, and of these the nearest; an exact tie goes to the even digit.
-/

namespace ResponseShape

structure Decimal where
  digits : Nat
  exponent : Int
  deriving DecidableEq, Repr

namespace Decimal

def compareScaled (a : Nat) (i : Int) (n : Nat) (j : Int) : Ordering :=
  compare (a * Nat.pow 10 i.toNat * Nat.pow 2 (-j).toNat)
    (n * Nat.pow 2 j.toNat * Nat.pow 10 (-i).toNat)

/-- Whether the decimal lies among the reals that round to the magnitude of `x`. Below a power of
two the gap to the neighbour is half as wide. -/
def readsBack (x : Binary64) (d : Decimal) : Bool :=
  let m := x.mantissa
  let narrow := x.fraction = 0 && x.exponentField > 1
  let low := if narrow then 4 * m - 1 else 4 * m - 2
  let q := x.unitExponent - 2
  let above := compareScaled d.digits d.exponent low q
  let below := compareScaled d.digits d.exponent (4 * m + 2) q
  let closed := m % 2 = 0
  (above == .gt || (closed && above == .eq)) && (below == .lt || (closed && below == .eq))

/-- The least `k` with `m * 2 ^ q < 10 ^ k`, found from the binary logarithm and corrected. -/
def scale (m : Nat) (q : Int) : Int :=
  let guess := ((m.log2 : Int) + q) * 30103 / 100000 - 1
  let fits := fun k : Int => compareScaled 1 k m q == .gt
  ((List.range 4).map fun i : Nat => guess + i).find? fits |>.getD (guess + 4)

/-- Of the two grid points beside the magnitude of `x` the one to write, if one reads back. -/
def onGrid (x : Binary64) (grid : Int) : Option Decimal :=
  let num := x.mantissa * Nat.pow 2 x.unitExponent.toNat * Nat.pow 10 (-grid).toNat
  let den := Nat.pow 2 (-x.unitExponent).toNat * Nat.pow 10 grid.toNat
  let down : Decimal := ⟨num / den, grid⟩
  let up : Decimal := ⟨num / den + 1, grid⟩
  let near : Decimal := ⟨roundDiv num den, grid⟩
  if readsBack x down && readsBack x up then some near
  else if readsBack x down then some down
  else if readsBack x up then some up
  else none

def strip : Nat → Decimal → Decimal
  | 0, d => d
  | fuel + 1, d =>
    if d.digits ≠ 0 ∧ d.digits % 10 = 0 then strip fuel ⟨d.digits / 10, d.exponent + 1⟩ else d

def exact (x : Binary64) : Decimal :=
  if 0 ≤ x.unitExponent then ⟨x.mantissa * Nat.pow 2 x.unitExponent.toNat, 0⟩
  else ⟨x.mantissa * Nat.pow 5 (-x.unitExponent).toNat, x.unitExponent⟩

def shortest (x : Binary64) : Decimal :=
  let k := scale x.mantissa x.unitExponent
  let found := (List.range 17).findSome? fun n : Nat => onGrid x (k - 1 - n)
  let d := found.getD (exact x)
  strip d.digits.log2 d

end Decimal

end ResponseShape

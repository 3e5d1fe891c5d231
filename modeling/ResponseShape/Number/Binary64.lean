/-!
Binary floating-point numbers of 64 bits, held by their bit pattern so that equality is decidable.
Every operation computes the exact quotient of two naturals and rounds it once, to nearest, ties
to even.
-/

namespace ResponseShape

structure Binary64 where
  bits : UInt64
  deriving DecidableEq, Repr, Inhabited

def roundDiv (num den : Nat) : Nat :=
  let whole := num / den
  let twice := 2 * (num % den)
  if twice < den then whole
  else if den < twice then whole + 1
  else if whole % 2 = 0 then whole else whole + 1

namespace Binary64

def infinity : Binary64 := ⟨0x7FF0000000000000⟩

/-- The exponent of the greatest power of two that is at most `num / den`, both positive. -/
def binaryExponent (num den : Nat) : Int :=
  let e : Int := num.log2 - den.log2
  if num * Nat.pow 2 (-e).toNat < den * Nat.pow 2 e.toNat then e - 1 else e

/-- The number nearest to `num / den`. The mantissa is taken in units of the last place, so a
carry out of it moves on to the next exponent by itself. -/
def ofRatio (num den : Nat) : Binary64 :=
  if num = 0 then ⟨0⟩
  else
    let unit := max (binaryExponent num den - 52) (-1074)
    let mantissa := roundDiv (num * Nat.pow 2 (-unit).toNat) (den * Nat.pow 2 unit.toNat)
    let bits := mantissa + (unit + 1074).toNat * Nat.pow 2 52
    if 0x7FF0000000000000 ≤ bits then infinity else ⟨bits.toUInt64⟩

/-- The number nearest to `digits / 10 ^ places`. -/
def ofDecimal (digits places : Nat) : Binary64 := ofRatio digits (Nat.pow 10 places)

def isNegative (x : Binary64) : Bool := x.bits >>> 63 == 1

def neg (x : Binary64) : Binary64 := ⟨x.bits ^^^ 0x8000000000000000⟩

def exponentField (x : Binary64) : Nat := ((x.bits >>> 52) &&& 0x7FF).toNat

def fraction (x : Binary64) : Nat := (x.bits &&& 0xFFFFFFFFFFFFF).toNat

def isFinite (x : Binary64) : Bool := x.exponentField != 0x7FF

/-- The whole number `m` of a finite magnitude `m * 2 ^ q`. -/
def mantissa (x : Binary64) : Nat :=
  if x.exponentField = 0 then x.fraction else Nat.pow 2 52 + x.fraction

/-- The exponent `q` of a finite magnitude `m * 2 ^ q`. -/
def unitExponent (x : Binary64) : Int :=
  if x.exponentField = 0 then -1074 else x.exponentField - 1075

def isZero (x : Binary64) : Bool := x.exponentField = 0 && x.fraction = 0

def ratio (x : Binary64) : Nat × Nat :=
  (x.mantissa * Nat.pow 2 x.unitExponent.toNat, Nat.pow 2 (-x.unitExponent).toNat)

def mulMagnitude (x y : Binary64) : Binary64 :=
  ofRatio (x.ratio.1 * y.ratio.1) (x.ratio.2 * y.ratio.2)

def divMagnitude (x y : Binary64) : Binary64 :=
  ofRatio (x.ratio.1 * y.ratio.2) (x.ratio.2 * y.ratio.1)

end Binary64

end ResponseShape

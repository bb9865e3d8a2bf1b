/-!
# Double-precision numbers

A double is its 64 bits: a sign, eleven exponent bits and 52 fraction bits. Every finite double
is `mantissa * 2 ^ scale`, and all arithmetic on it here is exact arithmetic on that pair.

An exact fraction is rounded to the double nearest to it, a tie going to the even mantissa. The
mantissa is one rounded quotient, so the rounding is right by the law of `roundDiv`: the result is
within half a unit of the last place.
-/

namespace CheckedIR

/-- A binary64 number, given by its bits. -/
structure Double where
  bits : UInt64
  deriving DecidableEq, Repr, Inhabited

namespace Double

def isNegative (x : Double) : Bool := Nat.pow 2 63 ≤ x.bits.toNat

def exponentField (x : Double) : Nat := x.bits.toNat / Nat.pow 2 52 % Nat.pow 2 11

def fractionField (x : Double) : Nat := x.bits.toNat % Nat.pow 2 52

def isNaN (x : Double) : Bool := x.exponentField == 2047 && x.fractionField != 0

def isInfinite (x : Double) : Bool := x.exponentField == 2047 && x.fractionField == 0

def isFinite (x : Double) : Bool := x.exponentField != 2047

def mantissa (x : Double) : Nat :=
  if x.exponentField = 0 then x.fractionField else Nat.pow 2 52 + x.fractionField

def scale (x : Double) : Int :=
  if x.exponentField = 0 then -1074 else (x.exponentField : Int) - 1075

def isZero (x : Double) : Bool := x.isFinite && x.mantissa == 0

def ofFields (negative : Bool) (exponent fraction : Nat) : Double :=
  ⟨((if negative then Nat.pow 2 63 else 0) + exponent % Nat.pow 2 11 * Nat.pow 2 52 + fraction %
    Nat.pow 2 52).toUInt64⟩

def zero : Double := ofFields false 0 0

def infinity (negative : Bool) : Double := ofFields negative 2047 0

def nan : Double := ofFields false 2047 (Nat.pow 2 51)

def twoPow (s : Int) : Nat × Nat :=
  if 0 ≤ s then (Nat.pow 2 s.toNat, 1) else (1, Nat.pow 2 (-s).toNat)

def magnitude (x : Double) : Nat × Nat :=
  let (n, d) := twoPow x.scale
  (x.mantissa * n, d)

def truncate (x : Double) : Int :=
  let (n, d) := x.magnitude
  if x.isNegative then -((n / d : Nat) : Int) else (n / d : Nat)

end Double

/-! ## Rounding -/

def roundDiv (n d : Nat) : Nat :=
  if 2 * (n % d) < d ∨ 2 * (n % d) = d ∧ n / d % 2 = 0 then n / d else n / d + 1

namespace Double

def inUnits (n d : Nat) (e : Int) : Nat × Nat :=
  if 0 ≤ e then (n, d * Nat.pow 2 e.toNat) else (n * Nat.pow 2 (-e).toNat, d)

/-- The power of two of the last mantissa bit of the double nearest to `n / d`. -/
def unitExponent (n d : Nat) : Int :=
  let e : Int := (n.log2 : Int) - d.log2 - 52
  let (a, b) := inUnits n d e
  -- The logarithms are off by at most one; below the normal doubles the unit stays the same.
  max (if a / b < Nat.pow 2 52 then e - 1 else e) (-1074)

/-- The double with mantissa `q` and scale `e`; `none` when it is too large. -/
def ofMantissa? (negative : Bool) (q : Nat) (e : Int) : Option Double :=
  -- Rounding up can carry into the next power of two.
  let (q, e) := if q = Nat.pow 2 53 then (Nat.pow 2 52, e + 1) else (q, e)
  if q < Nat.pow 2 52 then some (ofFields negative 0 q)
  else if 971 < e then none
  else some (ofFields negative (e + 1075).toNat (q - Nat.pow 2 52))

def ofRatio? (negative : Bool) (n d : Nat) : Option Double :=
  if n = 0 then some (ofFields negative 0 0)
  else
    let e := unitExponent n d
    let (a, b) := inUnits n d e
    ofMantissa? negative (roundDiv a b) e

/-- The double nearest to `digits * 10 ^ exponent`. Far outside the range of doubles the answer
needs no arithmetic. -/
def ofDecimal? (negative : Bool) (digits : Nat) (exponent : Int) : Option Double :=
  let places : Int := (Nat.toDigits 10 digits).length + exponent
  if digits = 0 ∨ places < -400 then some (ofFields negative 0 0)
  else if 400 < places then none
  else if 0 ≤ exponent then ofRatio? negative (digits * Nat.pow 10 exponent.toNat) 1
  else ofRatio? negative digits (Nat.pow 10 (-exponent).toNat)

def ofInt (i : Int) : Double := (ofRatio? (i < 0) i.natAbs 1).getD (infinity (i < 0))

end Double

end CheckedIR

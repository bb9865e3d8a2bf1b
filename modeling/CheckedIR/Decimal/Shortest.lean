import CheckedIR.Decimal.Double

/-!
# Shortest decimal

The decimal with the fewest digits that reads back as a given double. A decimal reads back when
it lies in the double's rounding interval, whose ends belong to it exactly when the mantissa is
even. For one, two, ... digits the two neighbours of the double on that decimal grid are tried:
the first grid with a hit wins, and of two hits the nearer one. If any point of a grid lies in
the interval then so does a neighbour, hence no shorter decimal reads back.
-/

namespace CheckedIR

structure Decimal where
  digits : Nat
  exponent : Int
  deriving DecidableEq, Repr

namespace Decimal

def order (d : Decimal) : Int := d.exponent + (Nat.toDigits 10 d.digits).length - 1

def trim : Nat → Decimal → Decimal
  | 0, d => d
  | n + 1, d => if d.digits % 10 = 0 then trim n ⟨d.digits / 10, d.exponent + 1⟩ else d

def inTens (a b : Nat) (e : Int) : Nat × Nat :=
  if 0 ≤ e then (a, b * Nat.pow 10 e.toNat) else (a * Nat.pow 10 (-e).toNat, b)

end Decimal

namespace Double

structure Interval where
  low : Nat
  value : Nat
  high : Nat
  den : Nat
  closed : Bool

/-- The rounding interval of a finite nonzero double. Below a power of two the neighbours are
half as far apart. -/
def interval (x : Double) : Interval :=
  let below := if x.mantissa = Nat.pow 2 52 ∧ 1 < x.exponentField then 1 else 2
  let (n, d) := twoPow (x.scale - 2)
  { low := (4 * x.mantissa - below) * n
    value := 4 * x.mantissa * n
    high := (4 * x.mantissa + 2) * n
    den := d
    closed := x.mantissa % 2 == 0 }

def Interval.contains (i : Interval) (c : Nat) (e : Int) : Bool :=
  let (lo, d) := Decimal.inTens i.low i.den e
  let (hi, _) := Decimal.inTens i.high i.den e
  if i.closed then lo ≤ c * d && c * d ≤ hi else lo < c * d && c * d < hi

/-- The nearer neighbour of the value on the grid of step `10 ^ e` that lies in the interval; of two
equally near ones the even one. -/
def Interval.neighbour? (i : Interval) (e : Int) : Option Nat :=
  let (v, d) := Decimal.inTens i.value i.den e
  let c := v / d
  let nearUp := d < 2 * (v % d) || (d == 2 * (v % d) && c % 2 == 1)
  match i.contains c e, i.contains (c + 1) e with
  | true, true => some (if nearUp then c + 1 else c)
  | true, false => some c
  | false, true => some (c + 1)
  | false, false => none

def Interval.search (i : Interval) (top : Int) : Nat → Nat → Decimal
  -- Not reached, since seventeen digits suffice.
  | 0, k =>
    ⟨(Decimal.inTens i.value i.den (top - k)).1 / (Decimal.inTens i.value i.den (top - k)).2,
      top - k⟩
  | n + 1, k =>
    match i.neighbour? (top - k) with
    | some c => ⟨c, top - k⟩
    | none => search i top n (k + 1)

/-- The shortest decimal of the magnitude of a finite nonzero double. Seventeen digits always
suffice. -/
def shortest (x : Double) : Decimal :=
  let i := x.interval
  let top : Int := (Nat.toDigits 10 (i.value * Nat.pow 10 340 / i.den)).length - 340
  (i.search top 17 1).trim 17

def equalsDecimal (x : Double) (d : Decimal) : Bool :=
  let (n, m) := x.magnitude
  let (a, b) := Decimal.inTens n m d.exponent
  a == d.digits * b

end Double

end CheckedIR

/-! ## Notation

A decimal is written positionally or with an exponent. The exponent form has one digit before the
point, a signed exponent and at least two exponent digits; it is used when the leading digit stands
below the ten-thousandths or from the millions on. -/

namespace CheckedIR.Decimal

def isPositional (d : Decimal) : Bool := -4 ≤ d.order && d.order < 6

def exponentText (e : Int) : List Char :=
  let ds := Nat.toDigits 10 e.natAbs
  (if e < 0 then '-' else '+') :: (if ds.length < 2 then '0' :: ds else ds)

def pointAfter (n : Nat) (ds : List Char) : List Char :=
  match ds.drop n with
  | [] => ds
  | rest => ds.take n ++ '.' :: rest

def general (d : Decimal) : List Char :=
  let ds := Nat.toDigits 10 d.digits
  if ! d.isPositional then pointAfter 1 ds ++ 'e' :: exponentText d.order
  else if d.order < 0 then '0' :: '.' :: List.replicate (-d.order - 1).toNat '0' ++ ds
  else if 0 ≤ d.exponent then ds ++ List.replicate d.exponent.toNat '0'
  else pointAfter (d.order + 1).toNat ds

end CheckedIR.Decimal

namespace CheckedIR.Double

def sourceText (x : Double) : String :=
  if x.isNaN then "NaN"
  else if x.isInfinite then if x.isNegative then "-Inf" else "+Inf"
  else
    let body := if x.isZero then ['0'] else x.shortest.general
    String.ofList (if x.isNegative then '-' :: body else body)

end CheckedIR.Double

import CheckedIR.Decimal.Shortest
import CheckedIR.Ir.Type

/-!
# Constants

The constants that operands can be and their text. Integers are decimal unless their hexadecimal
spelling is much plainer; doubles are decimal if their shortest decimal is exact and their bits in
hexadecimal otherwise. A truth value other than zero and one has no text.
-/

namespace CheckedIR.Ir

abbrev GlobalId := Nat

inductive Const
  | int (bits : Nat) (value : Int)
  | double (x : Double)
  | text (record : RecordId) (global : GlobalId) (length : Nat)
  | undef (type : Ty)
  deriving DecidableEq, Repr

def Const.type : Const → Ty
  | .int bits _ => .int bits
  | .double _ => .double
  | .text record _ _ => .record record
  | .undef t => t

/-! ## Integers -/

/-- The share of different digits among the digits of `n` in base `b`, as a double; no more digits
count than there are in the base. -/
def digitVariety (b n : Nat) : Double :=
  let ds := Nat.toDigits b n
  (Double.ofRatio? false ds.eraseDups.length (min ds.length b)).getD .zero

def plainVariety (h : Nat) : Double :=
  (if h < 4 then some Double.zero
    else if h ≤ 6 then Double.ofRatio? false 2 h
    else if h ≤ 10 then Double.ofRatio? false 3 h
    else Double.ofRatio? false 4 (min h 16)).getD .zero

/-- `x` plus a number of hundredths, rounded to a double; for doubles that are not negative. -/
def plusHundredths (x : Double) (h : Nat) : Double :=
  let (n, d) := x.magnitude
  let (m, e) := ((Double.ofRatio? false h 100).getD .zero).magnitude
  (Double.ofRatio? false (n * e + m * d) (d * e)).getD .zero

/-- Whether a number is written in hexadecimal: from 4096 on, if that spelling repeats its digits
and does so clearly more than the decimal one. -/
def prefersHex (n : Nat) : Bool :=
  let hex := digitVariety 16 n
  let limit := plusHundredths (plainVariety (Text.digitCount 16 n)) 1
  4096 ≤ n && hex.bits ≤ limit.bits && (plusHundredths hex 20).bits ≤ (digitVariety 10 n).bits

def intText (bits : Nat) (i : Int) : Option String :=
  if bits = 1 then
    if i = 0 then some "false" else if i = 1 then some "true" else none
  else if 0 ≤ i ∧ prefersHex i.toNat then
    some ("u0x" ++ String.ofList (Text.hexShort .upper i.toNat))
  else some (toString i)

end CheckedIR.Ir

namespace CheckedIR.Decimal

def pointed (d : Decimal) : List Char :=
  let (mantissa, exponent) := d.general.span (· != 'e')
  (if mantissa.contains '.' then mantissa else mantissa ++ ['.', '0']) ++ exponent

end CheckedIR.Decimal

namespace CheckedIR.Double

def bitsText (x : Double) : String := "0x" ++ String.ofList (Text.hexShort .upper x.bits.toNat)

def constantText (x : Double) : String :=
  if x.isNaN then (ofFields x.isNegative 2047 (Nat.pow 2 51)).bitsText
  else if x.isInfinite then x.bitsText
  else if x.isZero then if x.isNegative then "-0.0" else "0.0"
  else
    let d := x.shortest
    if x.equalsDecimal d then
      String.ofList (if x.isNegative then '-' :: d.pointed else d.pointed)
    else x.bitsText

end CheckedIR.Double

namespace CheckedIR.Ir

def Const.identWith (global : GlobalId → String) : Const → Option String
  | .int bits i => intText bits i
  | .double x => some x.constantText
  | .text _ g length => do
    let array := (Ty.array (length + 1) .i8).textWith fun _ => ""
    let pointer := "i8* getelementptr (" ++ array ++ ", " ++ array ++ "* " ++ global g ++
      ", i32 0, i32 0)"
    return "\x7b " ++ pointer ++ ", i32 " ++ (← intText 32 length) ++ " \x7d"
  | .undef _ => some "undef"

end CheckedIR.Ir

import CheckedIR.Text.Escapes

/-!
# Integer literals

Integers as they are typed at a command line: a sign, a mark for base 2, 8 or 16 (a leading zero
alone also means 8), and digits that single underscores may separate.
-/

namespace CheckedIR.Text

inductive IntegerError
  | malformed
  | outOfRange
  deriving DecidableEq, Repr

def IntegerError.message : IntegerError → String
  | .malformed => "parse error"
  | .outOfRange => "value out of range"

def baseAndDigits : List Char → Nat × Bool × List Char
  | '0' :: m :: c :: cs =>
    if m == 'x' || m == 'X' then (16, true, c :: cs)
    else if m == 'o' || m == 'O' then (8, true, c :: cs)
    else if m == 'b' || m == 'B' then (2, true, c :: cs)
    else (8, false, m :: c :: cs)
  | '0' :: cs => (8, false, cs)
  | cs => (10, false, cs)

/-- The value of digits, of which underscores are skipped, behind the value `n`. The first digit
that is wrong or too much decides. -/
def digitsValue (base : Nat) (n : Nat) : List Char → Except IntegerError Nat
  | [] => pure n
  | c :: cs =>
    if c == '_' then digitsValue base n cs
    else
      match hexValue? c with
      | some d =>
        if d < base then
          if n * base + d < Nat.pow 2 64 then digitsValue base (n * base + d) cs
          else throw .outOfRange
        else throw .malformed
      | none => throw .malformed

/-- Every underscore stands between two digits; `afterDigit` tells what stands in front. -/
def underscoresSeparate (afterDigit : Bool) : List Char → Bool
  | [] => true
  | '_' :: c :: cs => afterDigit && c != '_' && underscoresSeparate true cs
  | c :: cs => c != '_' && underscoresSeparate true cs

def unsignedInteger (cs : List Char) : Except IntegerError Nat := do
  if cs.isEmpty then throw .malformed
  let (base, marked, digits) := baseAndDigits cs
  let n ← digitsValue base 0 digits
  if underscoresSeparate (marked || base = 8) digits then return n else throw .malformed

def integer (s : String) : Except IntegerError Int := do
  match s.toList with
  | '-' :: cs =>
    let n ← unsignedInteger cs
    if n ≤ Nat.pow 2 63 then return -(n : Int) else throw .outOfRange
  | '+' :: cs =>
    let n ← unsignedInteger cs
    if n < Nat.pow 2 63 then return n else throw .outOfRange
  | cs =>
    let n ← unsignedInteger cs
    if n < Nat.pow 2 63 then return n else throw .outOfRange

def truth? (s : String) : Option Bool :=
  if s ∈ ["1", "t", "T", "TRUE", "true", "True"] then some true
  else if s ∈ ["0", "f", "F", "FALSE", "false", "False"] then some false
  else none

end CheckedIR.Text

import CheckedIR.Decimal.Double
import CheckedIR.Text.Escapes

/-!
# Numbers and dates in documents

The spellings of integers and floats. An integer has 64 bits, with a sign or without, and may be
written in base two, eight, ten or sixteen; a float is a decimal with a point or an exponent. A date
has a year of four digits, a month and a day of one or two, and perhaps a time of day. A time behind
a `T` ends with its zone; one behind spaces has none.
-/

namespace CheckedIR.Document

def digits? (b : Nat) (cs : List Char) : Option Nat :=
  if cs.isEmpty then none
  else
    cs.foldlM (fun n c => do
      let d ← Text.hexValue? c
      if d < b then some (n * b + d) else none) 0

/-! ## Integers -/

/-- An integer literal without sign: a base mark, a leading zero for octal, or decimal. -/
def unsigned? : List Char → Option Nat
  | '0' :: 'x' :: cs | '0' :: 'X' :: cs => digits? 16 cs
  | '0' :: 'b' :: cs | '0' :: 'B' :: cs => digits? 2 cs
  | '0' :: 'o' :: cs | '0' :: 'O' :: cs => digits? 8 cs
  | ['0'] => some 0
  | '0' :: cs => digits? 8 cs
  | cs => digits? 10 cs

def signed? (negative : Bool) (n : Nat) : Option Int :=
  if negative then if n ≤ Nat.pow 2 63 then some (-(n : Int)) else none
  else if n < Nat.pow 2 63 then some n else none

/-- A signed 64-bit integer literal, or an unsigned one that needs all 64 bits. -/
def integer? : List Char → Option Int
  | '-' :: cs => (unsigned? cs).bind (signed? true)
  | '+' :: cs => (unsigned? cs).bind (signed? false)
  | cs => (unsigned? cs).bind fun n => if n < Nat.pow 2 64 then some n else none

def innerSigned? : List Char → Option Int
  | '0' :: 'b' :: '-' :: cs => (digits? 2 cs).bind (signed? true)
  | '0' :: 'b' :: '+' :: cs => (digits? 2 cs).bind (signed? false)
  | '0' :: 'o' :: '-' :: cs => (digits? 8 cs).bind (signed? true)
  | '0' :: 'o' :: '+' :: cs => (digits? 8 cs).bind (signed? false)
  | _ => none

/-! ## Floats -/

def exponent? : List Char → Option Int
  | [] => some 0
  | c :: cs =>
    if c == 'e' || c == 'E' then
      match cs with
      | '-' :: ds => (digits? 10 ds).map fun n => -(n : Int)
      | '+' :: ds => (digits? 10 ds).map fun n => (n : Int)
      | ds => (digits? 10 ds).map fun n => (n : Int)
    else none

def decimal? (negative : Bool) (cs : List Char) : Option Double :=
  let (whole, rest) := cs.span Char.isDigit
  let (fraction, tail) :=
    match rest with
    | '.' :: rest => rest.span Char.isDigit
    | rest => ([], rest)
  match digits? 10 (whole ++ fraction), exponent? tail with
  | some n, some e => Double.ofDecimal? negative n (e - fraction.length)
  | _, _ => none

/-- A decimal literal with an optional sign. One beyond the largest double is none. -/
def float? : List Char → Option Double
  | '-' :: cs => decimal? true cs
  | '+' :: cs => decimal? false cs
  | cs => decimal? false cs

/-- Removes underscores that stand between digits; any other underscore refuses the text. -/
def joinDigits? : List Char → Option (List Char)
  | [] => some []
  | a :: '_' :: b :: cs =>
    if a.isDigit && b.isDigit then (joinDigits? (b :: cs)).map (a :: ·) else none
  | c :: cs => if c == '_' then none else (joinDigits? cs).map (c :: ·)

/-! ## Dates -/

def daysInMonth (year month : Nat) : Nat :=
  if month = 2 then if year % 4 = 0 ∧ (year % 100 ≠ 0 ∨ year % 400 = 0) then 29 else 28
  else if month ∈ [4, 6, 9, 11] then 30
  else 31

def oneOrTwo? (cs : List Char) : Option (Nat × List Char) :=
  let (ds, rest) := (cs.take 2).span Char.isDigit
  (digits? 10 ds).map fun n => (n, rest ++ cs.drop 2)

def isZone : List Char → Bool
  | ['Z'] => true
  | [s, a, b, ':', c, d] =>
    (s == '+' || s == '-') &&
      ((digits? 10 [a, b]).any (· ≤ 24)) && ((digits? 10 [c, d]).any (· ≤ 60))
  | _ => false

def dropFraction : List Char → List Char
  | p :: d :: cs =>
    if (p == '.' || p == ',') && d.isDigit then cs.dropWhile Char.isDigit else p :: d :: cs
  | cs => cs

/-- A time of day; with `zone` a zone has to follow, without it nothing may. -/
def isTime (zone : Bool) (cs : List Char) : Bool :=
  match oneOrTwo? cs with
  | some (h, ':' :: cs) =>
    match oneOrTwo? cs with
    | some (m, ':' :: cs) =>
      match oneOrTwo? cs with
      | some (s, cs) =>
        let rest := dropFraction cs
        h < 24 && m < 60 && s < 60 && (if zone then isZone rest else rest.isEmpty)
      | none => false
    | _ => false
  | _ => false

def isDate (cs : List Char) : Bool :=
  let (year, rest) := cs.span Char.isDigit
  match decide (year.length = 4), rest with
  | true, '-' :: rest =>
    match oneOrTwo? rest with
    | some (month, '-' :: rest) =>
      match oneOrTwo? rest with
      | some (day, rest) =>
        let y := (digits? 10 year).getD 0
        1 ≤ month && month ≤ 12 && 1 ≤ day && day ≤ daysInMonth y month &&
          (match rest with
          | [] => true
          | 'T' :: time | 't' :: time => isTime true time
          | ' ' :: time => isTime false (time.dropWhile (· == ' '))
          | _ => false)
      | none => false
    | _ => false
  | _, _ => false

end CheckedIR.Document

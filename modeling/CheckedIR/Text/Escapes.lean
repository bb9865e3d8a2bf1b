import CheckedIR.Text.Printable

/-!
# Escapes

Hexadecimal digits, and text between double quotes as diagnostics and JSON show it.
-/

namespace CheckedIR.Text

/-! ## Hexadecimal digits -/

inductive HexCase
  | lower
  | upper
  deriving DecidableEq, Repr

def hexDigit (h : HexCase) (n : Nat) : Char :=
  if n < 10 then Char.ofNat (48 + n)
  else match h with
    | .lower => Char.ofNat (87 + n)
    | .upper => Char.ofNat (55 + n)

def hexFixed (h : HexCase) : Nat → Nat → List Char
  | 0, _ => []
  | w + 1, n => hexFixed h w (n / 16) ++ [hexDigit h (n % 16)]

def digitCount (b n : Nat) : Nat := (Nat.toDigits b n).length

def hexShort (h : HexCase) (n : Nat) : List Char := hexFixed h (digitCount 16 n) n

def hexValue? (c : Char) : Option Nat :=
  if '0' ≤ c ∧ c ≤ '9' then some (c.toNat - 48)
  else if 'a' ≤ c ∧ c ≤ 'f' then some (c.toNat - 87)
  else if 'A' ≤ c ∧ c ≤ 'F' then some (c.toNat - 55)
  else none

/-! ## Quoted text

A printable character stands for itself; the quote, the backslash and the usual control characters
have short escapes; every other character is written by its number. -/

def shortEscape? : Char → Option Char
  | '\x07' => some 'a'
  | '\x08' => some 'b'
  | '\x0c' => some 'f'
  | '\n' => some 'n'
  | '\r' => some 'r'
  | '\t' => some 't'
  | '\x0b' => some 'v'
  | '\\' => some '\\'
  | '"' => some '"'
  | _ => none

def codeEscape (c : Char) : List Char :=
  if c.toNat < 0x80 then '\\' :: 'x' :: hexFixed .lower 2 c.toNat
  else if c.toNat < 0x10000 then '\\' :: 'u' :: hexFixed .lower 4 c.toNat
  else '\\' :: 'U' :: hexFixed .lower 8 c.toNat

def quotedChar (c : Char) : List Char :=
  match shortEscape? c with
  | some e => ['\\', e]
  | none => if isPrintable c then [c] else codeEscape c

def quoted (s : String) : String :=
  String.ofList ('"' :: s.toList.flatMap quotedChar ++ ['"'])

/-! ## JSON strings

A string may also stand inside markup: the characters that mean something there are escaped like
control characters. -/

def jsonChar (c : Char) : List Char :=
  if c == '"' || c == '\\' then ['\\', c]
  else if c == '\x08' then ['\\', 'b']
  else if c == '\x0c' then ['\\', 'f']
  else if c == '\n' then ['\\', 'n']
  else if c == '\r' then ['\\', 'r']
  else if c == '\t' then ['\\', 't']
  else if c.toNat < 0x20 || c ∈ ['<', '>', '&', '\u2028', '\u2029'] then
    '\\' :: 'u' :: hexFixed .lower 4 c.toNat
  else [c]

def jsonQuoted (s : String) : String :=
  String.ofList ('"' :: s.toList.flatMap jsonChar ++ ['"'])

end CheckedIR.Text

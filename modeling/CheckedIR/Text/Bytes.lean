/-!
# Bytes as text

Texts as they are stored in bytes, and bytes written in base 64.
-/

namespace CheckedIR.Text

/-! ## Characters

A character takes one to four bytes: the first one tells how many follow, and each of those carries
six more bits. -/

def leadByte? (b : Nat) : Option (Nat × Nat) :=
  if b < 0x80 then some (0, b)
  else if b / 0x20 == 0x6 then some (1, b % 0x20)
  else if b / 0x10 == 0xE then some (2, b % 0x10)
  else if b / 0x8 == 0x1E then some (3, b % 0x8)
  else none

def trailByte? (b : Nat) : Option Nat := if b / 0x40 == 0x2 then some (b % 0x40) else none

def leastCode : Nat → Nat
  | 0 => 0
  | 1 => 0x80
  | 2 => 0x800
  | _ => 0x10000

def charOfBytes? (b : Nat) (rest : List Nat) : Option (Char × Nat) := do
  let (n, bits) ← leadByte? b
  guard (n ≤ rest.length)
  let code ← (rest.take n).foldlM (fun code t => (trailByte? t).map (code * 0x40 + ·)) bits
  guard (leastCode n ≤ code && code.isValidChar)
  return (Char.ofNat code, n)

def charsOfBytes (skip : Nat) : List Nat → List Char
  | [] => []
  | b :: rest =>
    if 0 < skip then charsOfBytes (skip - 1) rest
    else
      match charOfBytes? b rest with
      | some (c, n) => c :: charsOfBytes n rest
      | none => '\ufffd' :: charsOfBytes 0 rest

/-- The text that bytes stand for; a byte that belongs to no character becomes a replacement
character. -/
def textOfBytes (bytes : List Nat) : String := String.ofList (charsOfBytes 0 bytes)

/-! ## Base 64

Every four digits hold three bytes. Equals signs fill up the last four, and line ends may stand
anywhere. -/

def base64Digit? (c : Char) : Option Nat :=
  if 'A' ≤ c ∧ c ≤ 'Z' then some (c.toNat - 65)
  else if 'a' ≤ c ∧ c ≤ 'z' then some (c.toNat - 71)
  else if '0' ≤ c ∧ c ≤ '9' then some (c.toNat + 4)
  else if c == '+' then some 62
  else if c == '/' then some 63
  else none

def base64Number? (cs : List Char) : Option Nat :=
  cs.foldlM (fun n c => (base64Digit? c).map (n * 64 + ·)) 0

/-- The bytes of a text without line ends. The bits behind the last byte are ignored. -/
def base64Bytes? : List Char → Option (List Nat)
  | [] => some []
  | [a, b, '=', '='] => do
    let n ← base64Number? [a, b]
    return [n / 16]
  | [a, b, c, '='] => do
    let n ← base64Number? [a, b, c]
    return [n / 1024, n / 4 % 256]
  | a :: b :: c :: d :: rest => do
    let n ← base64Number? [a, b, c, d]
    return n / 65536 :: n / 256 % 256 :: n % 256 :: (← base64Bytes? rest)
  | _ => none

/-- The text whose bytes are written in base 64. A text consists of characters, so bytes that are no
part of one are not kept: U+FFFD stands in for them. -/
def ofBase64? (s : String) : Option String :=
  (base64Bytes? (s.toList.filter fun c => c != '\n' && c != '\r')).map textOfBytes

end CheckedIR.Text

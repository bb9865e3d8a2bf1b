/-!
# Placed characters

A document text is read as a list of characters that know where they stand. A line ends with a
line feed, a carriage return or both, which all become one line feed, or with one of three
characters beyond ASCII, which stay as they are.
-/

namespace CheckedIR.Document

structure Spot where
  char : Char
  index : Nat
  line : Nat
  column : Nat
  deriving DecidableEq, Repr

def isBreak (c : Char) : Bool := c == '\n' || c == '\u0085' || c == '\u2028' || c == '\u2029'

def isBlank (c : Char) : Bool := c == ' ' || c == '\t'

def byteOrderMark : Char := '\uFEFF'

def isAllowed (c : Char) : Bool :=
  let n := c.toNat
  n == 0x09 || n == 0x0A || n == 0x0D || (0x20 ≤ n && n ≤ 0x7E) || n == 0x85 ||
    (0xA0 ≤ n && n ≤ 0xD7FF) || (0xE000 ≤ n && n ≤ 0xFFFD) || 0x10000 ≤ n

def placeFrom (index line column : Nat) : List Char → List Spot
  | [] => []
  | '\r' :: '\n' :: cs => ⟨'\n', index, line, column⟩ :: placeFrom (index + 2) (line + 1) 0 cs
  | c :: cs =>
    let c := if c == '\r' then '\n' else c
    ⟨c, index, line, column⟩ ::
      if isBreak c then placeFrom (index + 1) (line + 1) 0 cs
      else placeFrom (index + 1) line (column + 1) cs

def place (text : String) : List Spot :=
  let cs := text.toList
  placeFrom 0 0 0 (if cs.head? == some byteOrderMark then cs.tail else cs)

namespace Spot

def lineEnd (s : Spot) : Char := if s.char == '\u0085' then '\n' else s.char

end Spot

/-! ## Looking ahead -/

def atSpace : List Spot → Bool
  | [] => true
  | s :: _ => isBlank s.char || isBreak s.char

/-- The spots open with a document mark: three of `c` at the start of a line, then a space. -/
def atMarkOf (c : Char) : List Spot → Bool
  | x :: y :: z :: rest =>
    x.column == 0 && x.char == c && y.char == c && z.char == c && atSpace rest
  | _ => false

def atMark (spots : List Spot) : Bool := atMarkOf '-' spots || atMarkOf '.' spots

end CheckedIR.Document

import CheckedIR.Text.Escapes

/-!
# Templates

Texts with places for arguments. A place is a percent sign, then how the argument is laid out, then
a letter that says what is shown of it: `s` and `v` show the argument itself, `q` its quoted form,
`x` and `X` its bytes, `T` its type. Between the sign and the letter may stand

* flags, in any order: `-` pads on the right, `0` pads with zeros, and `#`, `+` and the space change
  what some letters show,
* a least width,
* a point and the number of characters that are shown at most,
* in front of the width, of the limit or of the letter the number of an argument in brackets.

A place that cannot be filled, an argument without a place and an unknown letter are shown in the
text, so that nothing is lost.
-/

namespace CheckedIR.Text

structure ArgumentLayout where
  sharp : Bool
  zero : Bool
  plus : Bool
  minus : Bool
  space : Bool
  width : Option Nat
  limit : Option Nat
  deriving DecidableEq, Repr

namespace ArgumentLayout

def bare : ArgumentLayout := ⟨false, false, false, false, false, none, none⟩

def flag? (l : ArgumentLayout) : Char → Option ArgumentLayout
  | '#' => some { l with sharp := true }
  | '0' => some { l with zero := true }
  | '+' => some { l with plus := true }
  | '-' => some { l with minus := true }
  | ' ' => some { l with space := true }
  | _ => none

def flags (l : ArgumentLayout) : List Char → ArgumentLayout × List Char
  | [] => (l, [])
  | c :: cs =>
    match l.flag? c with
    | some l => l.flags cs
    | none => (l, c :: cs)

def pad (l : ArgumentLayout) (cs : List Char) : List Char :=
  let fill := List.replicate (l.width.getD 0 - cs.length) (if l.zero && !l.minus then '0' else ' ')
  if l.minus then cs ++ fill else fill ++ cs

def cut (l : ArgumentLayout) (cs : List Char) : List Char :=
  match l.limit with
  | some n => cs.take n
  | none => cs

def shown (l : ArgumentLayout) (arg : String) : List Char := l.pad (l.cut arg.toList)

def isRaw (cs : List Char) : Bool :=
  cs.all fun c =>
    let n := c.toNat
    (0x20 ≤ n || c == '\t') && n != 0x60 && n != 0x7F && n != 0xFEFF

def shownQuoted (l : ArgumentLayout) (raw ascii : Bool) (arg : String) : List Char :=
  let cs := l.cut arg.toList
  if raw && isRaw cs then l.pad ('\x60' :: cs ++ ['\x60'])
  else
    let escaped (c : Char) : List Char :=
      if ascii && 0x80 ≤ c.toNat then codeEscape c else quotedChar c
    l.pad ('"' :: cs.flatMap escaped ++ ['"'])

/-- The bytes in hexadecimal, two digits for each. With `space` they stand apart; `sharp` marks
them as hexadecimal, once or, if they stand apart, one by one. The limit counts bytes. -/
def shownBytes (l : ArgumentLayout) (h : HexCase) (arg : String) : List Char :=
  let bytes := arg.toUTF8.toList.map UInt8.toNat
  let bytes := match l.limit with
    | some n => bytes.take n
    | none => bytes
  let mark := if l.sharp then ['0', match h with | .lower => 'x' | .upper => 'X'] else []
  let digits := bytes.map (hexFixed h 2)
  l.pad (if bytes.isEmpty then []
    else if l.space then [' '].intercalate (digits.map (mark ++ ·))
    else mark ++ digits.flatten)

def placed (l : ArgumentLayout) (letter : Char) (arg : String) : List Char :=
  -- With `v` and `w` the sharp sign asks for the quoted form.
  let whole := if l.sharp && (letter == 'v' || letter == 'w') then l.shownQuoted false false arg
    else l.shown arg
  match letter with
  | 's' => l.shown arg
  | 'v' => whole
  | 'q' => l.shownQuoted l.sharp l.plus arg
  | 'x' => l.shownBytes .lower arg
  | 'X' => l.shownBytes .upper arg
  | 'T' => l.shown "string"
  | c => "%!".toList ++ c :: "(string=".toList ++ whole ++ [')']

end ArgumentLayout

/-! ## Filling -/

/-- A number at the front of a text. One beyond a million with a digit behind it is refused with
all that follows. -/
def leadingNumber (value : Option Nat) : List Char → Option Nat × List Char
  | [] => (value, [])
  | c :: cs =>
    if c.isDigit then
      if 1000000 < value.getD 0 then (none, [])
      else leadingNumber (some (value.getD 0 * 10 + (c.toNat - 48))) cs
    else (value, c :: cs)

/-- Where the filling of a template stands: the text still to be read, the number of the next
argument, whether a place named its argument, and whether the names in the current place are
right. -/
structure Filling where
  rest : List Char
  next : Nat
  reordered : Bool
  goodIndex : Bool
  deriving Repr

namespace Filling

/-- The number in brackets at the front of a text and the text behind it. Without a closing bracket
only the opening one is taken. -/
def bracketed (cs : List Char) : Option Nat × List Char :=
  let (inside, rest) := (cs.drop 1).span (· != ']')
  if rest.isEmpty || cs.length < 3 then (none, cs.drop 1)
  else
    match leadingNumber none inside with
    | (some n, []) => (some n, rest.drop 1)
    | _ => (none, rest.drop 1)

/-- Takes the number of an argument in brackets, if one stands here. Arguments count from one. The
flag tells whether a number was read. -/
def index (count : Nat) (f : Filling) : Filling × Bool :=
  if f.rest.head? == some '[' then
    match bracketed f.rest with
    | (some n, rest) =>
      if 1 ≤ n ∧ n ≤ count then ({ f with rest, next := n - 1, reordered := true }, true)
      else ({ f with rest, reordered := true, goodIndex := false }, true)
    | (none, rest) => ({ f with rest, reordered := true, goodIndex := false }, false)
  else (f, false)

/-- A star takes a number from an argument. Texts are no numbers, so it only uses one up. -/
def star (count : Nat) (f : Filling) : Filling :=
  { f with rest := f.rest.drop 1, next := if f.next < count then f.next + 1 else f.next }

def width (count : Nat) (afterIndex : Bool) (f : Filling) : Filling × Option Nat × Bool × String :=
  if f.rest.head? == some '*' then (f.star count, none, false, "%!(BADWIDTH)")
  else
    let (w, rest) := leadingNumber none f.rest
    ({ f with rest, goodIndex := f.goodIndex && !(afterIndex && w.isSome) }, w, afterIndex, "")

def limit (count : Nat) (afterIndex : Bool) (f : Filling) : Filling × Option Nat × Bool × String :=
  if f.rest.head? != some '.' then (f, none, afterIndex, "")
  else
    let f := { f with rest := f.rest.drop 1, goodIndex := f.goodIndex && !afterIndex }
    let (f, found) := f.index count
    if f.rest.head? == some '*' then (f.star count, none, false, "%!(BADPREC)")
    else
      let (n, rest) := leadingNumber none f.rest
      ({ f with rest }, some (n.getD 0), found, "")

def place (args : List String) (f : Filling) : String × Filling × Bool :=
  let (l, rest) := ArgumentLayout.bare.flags f.rest
  let f := { f with rest, goodIndex := true }
  let (f, found) := f.index args.length
  let (f, w, found, badWidth) := f.width args.length found
  let (f, n, found, badLimit) := f.limit args.length found
  let (f, _) := if found then (f, true) else f.index args.length
  let before := badWidth ++ badLimit
  match f.rest with
  | [] => (before ++ "%!(NOVERB)", f, false)
  | letter :: rest =>
    let f := { f with rest }
    let complaint (what : String) := before ++ "%!" ++ String.singleton letter ++ what
    if letter == '%' then (before ++ "%", f, true)
    else if !f.goodIndex then (complaint "(BADINDEX)", f, true)
    else
      match args[f.next]? with
      | none => (complaint "(MISSING)", f, true)
      | some arg =>
        let shown := { l with width := w, limit := n }.placed letter arg
        (before ++ String.ofList shown, { f with next := f.next + 1 }, true)

def extra (args : List String) (f : Filling) : String :=
  if f.reordered || args.length ≤ f.next then ""
  else "%!(EXTRA " ++ ", ".intercalate ((args.drop f.next).map ("string=" ++ ·)) ++ ")"

def run (args : List String) : Nat → Filling → String
  | 0, f => f.extra args
  | fuel + 1, f =>
    let (before, rest) := f.rest.span (· != '%')
    match rest with
    | [] => String.ofList before ++ { f with rest := [] }.extra args
    | _ :: rest =>
      let (text, f, goesOn) := place args { f with rest }
      String.ofList before ++ text ++ if goesOn then run args fuel f else f.extra args

end Filling

def fill (template : String) (args : List String) : String :=
  Filling.run args (template.length + 1) ⟨template.toList, 0, false, true⟩

end CheckedIR.Text

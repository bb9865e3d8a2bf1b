import CheckedIR.Document.ScalarText
import CheckedIR.Document.Scalar
import CheckedIR.Document.TagText

/-!
# Scanning documents

Turns the spots of a text into tokens, as few at a time as are needed: what is not asked for is not
looked at. Indentation becomes tokens: a collection written by indentation opens when a line goes
deeper and ends when a line comes back.

Whether something is the key of a table shows only at the colon behind it. The scan therefore
remembers, for every depth of brackets, where the last possible key started, and the colon puts the
`key` token there. A possible key is given up at the end of its line or after 1024 characters; one
that stands where its table requires a key is then an error. A token where a key may have started
is held back until that is settled.

Every step fails on a malformed text.
-/

namespace CheckedIR.Document

/-- The marks, scalars and collection bounds that a text consists of. Collections written by
indentation have bounds like the bracketed ones, although no character stands for them. -/
inductive Token
  | version (major minor : Nat)
  | handle (name start : String)
  | documentStart
  | documentEnd
  | textEnd
  | listStart
  | tableStart
  | blockEnd
  | flowListStart
  | flowListEnd
  | flowTableStart
  | flowTableEnd
  | item
  | comma
  | key
  | value
  | anchor (name : String)
  | alias (name : String)
  | tag (handle suffix : String)
  | scalar (text : String) (style : Style)
  deriving DecidableEq, Repr

/-- A place where a key of a table may have started: whether that is still possible, whether only a
key may stand there, the number of its first token, and its first spot. -/
structure KeySlot where
  possible : Bool
  required : Bool
  number : Nat
  spot : Spot
  deriving DecidableEq, Repr

def longestKey : Nat := 1024

def KeySlot.isStale (k : KeySlot) : List Spot → Bool
  | [] => true
  | here :: _ => k.spot.line < here.line || k.spot.index + longestKey < here.index

def KeySlot.settle (k : KeySlot) (rest : List Spot) : Option (Bool × KeySlot) :=
  if !k.possible then some (false, k)
  else if !k.isStale rest then some (true, k)
  else if k.required then none
  else some (false, { k with possible := false })

/-- The state of a scan: the number of spots in the text, whether it opens with a second byte order
mark, the spots to come, the tokens read but not yet taken, and how many were taken. The key slot
and the indentation are those of the innermost collection; the outer slots stand outermost first and
the outer indentations innermost first. `waiting` tells by the number of a token in whose slot,
counted from the outermost, it may have started a key. -/
structure Scan where
  size : Nat
  marked : Bool
  rest : List Spot
  queue : List Token
  taken : Nat
  indent : Int
  outerIndents : List Int
  keyAllowed : Bool
  slot : KeySlot
  outerSlots : Array KeySlot
  waiting : List (Nat × Nat)
  deriving Repr

namespace Scan

def start (spots : List Spot) : Scan :=
  { size := spots.length
    marked := spots.head?.any (·.char == byteOrderMark)
    rest := spots
    queue := []
    taken := 0
    indent := -1
    outerIndents := []
    keyAllowed := true
    slot := ⟨false, false, 0, ⟨' ', 0, 0, 0⟩⟩
    outerSlots := #[]
    waiting := [] }

def deepest : Nat := 10000

def inFlow (s : Scan) : Bool := !s.outerSlots.isEmpty

def nextNumber (s : Scan) : Nat := s.taken + s.queue.length

def push (t : Token) (s : Scan) : Scan := { s with queue := s.queue ++ [t] }

def insert (number : Nat) (t : Token) (s : Scan) : Scan :=
  if number < s.taken then s.push t
  else
    { s with
      queue := s.queue.take (number - s.taken) ++ t :: s.queue.drop (number - s.taken) }

/-! ## Possible keys -/

def forget (number : Nat) (s : Scan) : Scan :=
  { s with waiting := s.waiting.eraseP (·.1 == number) }

def dropKey (s : Scan) : Option Scan :=
  if !s.slot.possible then some s
  else if s.slot.required then none
  else some ({ s with slot := { s.slot with possible := false } }.forget s.slot.number)

def noteKey (here : Spot) (s : Scan) : Option Scan :=
  if s.keyAllowed then do
    let s ← s.dropKey
    let number := s.nextNumber
    return { s with
      slot := ⟨true, !s.inFlow && s.indent == here.column, number, here⟩
      waiting := (number, s.outerSlots.size) :: s.waiting }
  else some s

def slotAt? (depth : Nat) (s : Scan) : Option KeySlot :=
  if depth = s.outerSlots.size then some s.slot else s.outerSlots[depth]?

def setSlotAt (depth : Nat) (k : KeySlot) (s : Scan) : Scan :=
  if depth = s.outerSlots.size then { s with slot := k }
  else { s with outerSlots := s.outerSlots.setIfInBounds depth k }

/-! ## Indentation -/

def openIndent (column : Nat) (number : Nat) (t : Token) (s : Scan) : Option Scan :=
  if !s.inFlow && s.indent < column then do
    let s := { s.insert number t with indent := column, outerIndents := s.indent :: s.outerIndents }
    guard (s.outerIndents.length ≤ deepest)
    return s
  else some s

def leave (column indent : Int) : List Int → Int × List Int × Nat
  | [] => (indent, [], 0)
  | outer :: outers =>
    if column < indent then
      let (i, os, n) := leave column outer outers
      (i, os, n + 1)
    else (indent, outer :: outers, 0)

def closeIndents (column : Int) (s : Scan) : Scan :=
  if s.inFlow then s
  else
    let (indent, outers, n) := leave column s.indent s.outerIndents
    { s with
      queue := s.queue ++ List.replicate n .blockEnd
      indent := indent
      outerIndents := outers }

/-! ## Blanks and comments -/

def commentReach : Nat := 512

/-- Where blanks are skipped: outside comments, in a comment, or on the way to the next one. -/
inductive Skipping
  | blanks
  | comment
  | gap
  deriving DecidableEq, Repr

/-- Only blanks and line ends stand between a place and the next comment, which starts before the
index `reach`. Line ends beyond ASCII hide a comment. -/
def commentFollows (reach : Nat) : List Spot → Bool
  | [] => false
  | s :: rest =>
    s.index < reach &&
      (s.char == '#' || ((isBlank s.char || s.char == '\n') && commentFollows reach rest))

/-- Skips blanks, comments and line ends. A tab counts as a blank only where no key may start, but
for the lines between two comments. At a line end outside brackets a key may start again. With
`marked` the first character of a line is skipped, whatever it is. -/
def skipBlanks (marked inFlow : Bool) (keyAllowed : Bool) :
    Skipping → List Spot → Bool × List Spot
  | _, [] => (keyAllowed, [])
  | .comment, s :: rest =>
    if !isBreak s.char then skipBlanks marked inFlow keyAllowed .comment rest
    else if s.char == '\n' && commentFollows (s.index + commentReach) rest then
      skipBlanks marked inFlow keyAllowed .gap rest
    else skipBlanks marked inFlow (keyAllowed || !inFlow) .blanks rest
  | .gap, s :: rest =>
    skipBlanks marked inFlow keyAllowed (if s.char == '#' then .comment else .gap) rest
  | .blanks, s :: rest =>
    if isBreak s.char then skipBlanks marked inFlow (keyAllowed || !inFlow) .blanks rest
    else if marked && s.column == 0 then skipBlanks marked inFlow keyAllowed .blanks rest
    else if s.char == '#' then skipBlanks marked inFlow keyAllowed .comment rest
    else if s.char == ' ' || (s.char == '\t' && (inFlow || !keyAllowed)) then
      skipBlanks marked inFlow keyAllowed .blanks rest
    else (keyAllowed, s :: rest)

def skip (s : Scan) : Scan :=
  let (keyAllowed, rest) := skipBlanks s.marked s.inFlow s.keyAllowed .blanks s.rest
  { s with keyAllowed := keyAllowed, rest := rest }

def skipComment (s : Scan) : Scan :=
  match s.rest, s.rest.dropWhile fun t => isBlank t.char with
  | here :: _, c :: rest =>
    if c.char == '#' && c.index < here.index + commentReach then
      { s with rest := rest.dropWhile fun t => !isBreak t.char }
    else s
  | _, _ => s

/-! ## Single tokens

Each function reads one kind of token whose first spot is `here`, with `rest` behind it. -/

def closeAll (s : Scan) : Option Scan := do
  let s ← (s.closeIndents (-1)).dropKey
  return { s with keyAllowed := false }

def documentMark (t : Token) (rest : List Spot) (s : Scan) : Option Scan := do
  let s ← s.closeAll
  return { s with rest := rest.drop 2 }.push t

def flowStart (t : Token) (here : Spot) (rest : List Spot) (s : Scan) : Option Scan := do
  let s ← s.noteKey here
  guard (s.outerSlots.size < deepest)
  return { s with
    rest := rest
    keyAllowed := true
    slot := ⟨false, false, s.nextNumber, here⟩
    outerSlots := s.outerSlots.push s.slot }.push t

/-- Leaves the innermost brackets. The number of their slot is that of the opening bracket as long
as no key was possible inside, and then the bracket itself waits no more. -/
def flowEnd (t : Token) (rest : List Spot) (s : Scan) : Option Scan := do
  let s ← s.dropKey
  let s := { s with rest := rest, keyAllowed := false }
  return (match s.outerSlots.back? with
    | none => s
    | some k => { s.forget s.slot.number with slot := k, outerSlots := s.outerSlots.pop }).push t

def comma (rest : List Spot) (s : Scan) : Option Scan := do
  let s ← s.dropKey
  return { s with rest := rest, keyAllowed := true }.push .comma

def item (here : Spot) (rest : List Spot) (s : Scan) : Option Scan := do
  guard (s.inFlow || s.keyAllowed)
  let s ← (← s.openIndent here.column s.nextNumber .listStart).dropKey
  return { s with rest := rest, keyAllowed := true }.push .item

def explicitKey (here : Spot) (rest : List Spot) (s : Scan) : Option Scan := do
  guard (s.inFlow || s.keyAllowed)
  let s ← (← s.openIndent here.column s.nextNumber .tableStart).dropKey
  return { s with rest := rest, keyAllowed := !s.inFlow }.push .key

def value (here : Spot) (rest : List Spot) (s : Scan) : Option Scan := do
  let (complete, k) ← s.slot.settle s.rest
  let s := { s with slot := { k with possible := false } }
  if complete then
    let s ← (s.insert k.number .key).openIndent k.spot.column k.number .tableStart
    return { s.forget k.number with rest := rest, keyAllowed := false }.push .value
  else
    guard (s.inFlow || s.keyAllowed)
    let s ← s.openIndent here.column s.nextNumber .tableStart
    return { s with rest := rest, keyAllowed := !s.inFlow }.push .value

def reference (make : String → Token) (here : Spot) (rest : List Spot) (s : Scan) :
    Option Scan := do
  let s ← s.noteKey here
  let (name, rest) := spanText isNameChar rest
  guard (!name.isEmpty)
  guard (atSpace rest ||
    (rest.head?.any fun t => t.char ∈ ['?', ':', ',', ']', '}', '%', '@', Char.ofNat 96]))
  return { s with rest := rest, keyAllowed := false }.push (make (String.ofList name))

def tag (here : Spot) (rest : List Spot) (s : Scan) : Option Scan := do
  let s ← s.noteKey here
  let (handle, suffix, rest) ← writtenTag rest
  guard (atSpace rest)
  return { s with rest := rest, keyAllowed := false }.push (.tag handle suffix)

def scalarToken (r : Read) (style : Style) (s : Scan) : Scan :=
  { s with rest := r.rest }.push (.scalar (String.ofList r.text) style)

def block (literal : Bool) (rest : List Spot) (s : Scan) : Option Scan := do
  let s ← s.dropKey
  return { s with keyAllowed := true }.scalarToken (← blockText literal s.indent rest) .quoted

def quoted (double : Bool) (here : Spot) (rest : List Spot) (s : Scan) : Option Scan := do
  let s ← s.noteKey here
  let r ← if double then doubleQuoted .outside .none [] rest else singleQuoted .none [] rest
  return { s with keyAllowed := false }.scalarToken r .quoted

/-- Bare text. Line ends behind it belong to it, and then so does no comment. -/
def plain (here : Spot) (rest : List Spot) (s : Scan) : Option Scan := do
  let s ← s.noteKey here
  let (r, lineEnded) ← plainText s.inFlow (s.indent + 1) .none [] (here :: rest)
  let s := { s with keyAllowed := lineEnded }.scalarToken r .plain
  return if lineEnded then s else s.skipComment

/-! ## Directives -/

def versionNumber? (cs : List Char) : Option Nat := if cs.length ≤ 2 then digits? 10 cs else none

def directive (rest : List Spot) (s : Scan) : Option Scan := do
  let s ← s.closeAll
  let (name, rest) := spanText isNameChar rest
  guard (atSpace rest)
  let (_, rest) := spanText isBlank rest
  let (token, rest) ← match String.ofList name with
    | "YAML" => version rest
    | "TAG" => handle rest
    | _ => none
  return { s with rest := ← blankLine false rest }.push token
where
  version (rest : List Spot) : Option (Token × List Spot) := do
    let (major, rest) := spanText Char.isDigit rest
    guard (rest.head?.any (·.char == '.'))
    let (minor, rest) := spanText Char.isDigit rest.tail
    return (.version (← versionNumber? major) (← versionNumber? minor), rest)
  handle (rest : List Spot) : Option (Token × List Spot) := do
    let (name, rest) ← writtenHandle rest
    guard (rest.head?.any (isBlank ·.char))
    let (_, rest) := spanText isBlank rest
    let (start, rest) := spanText isTagChar rest
    guard (!start.isEmpty && atSpace rest)
    return (.handle name (← tagText? start), rest)

/-! ## Any token -/

def isIndicator (c : Char) : Bool :=
  c ∈ "-?:,[]#&*!|>\"%@".toList || c ∈ ['{', '}', Char.ofNat 39, Char.ofNat 96]

def startsPlain (inFlow : Bool) (c : Char) (rest : List Spot) : Bool :=
  (!isIndicator c && !isBlank c) || (c == '-' && !(rest.head?.any fun s => isBlank s.char)) ||
    (!inFlow && (c == '?' || c == ':') && !atSpace rest)

def token (here : Spot) (rest : List Spot) (s : Scan) : Option Scan :=
  if here.column == 0 && here.char == '%' then s.directive rest
  else if atMarkOf '-' (here :: rest) then s.documentMark .documentStart rest
  else if atMarkOf '.' (here :: rest) then s.documentMark .documentEnd rest
  else
    match here.char with
    | '[' => (s.flowStart .flowListStart here rest).map skipComment
    | '{' => (s.flowStart .flowTableStart here rest).map skipComment
    | ']' => (s.flowEnd .flowListEnd rest).map skipComment
    | '}' => (s.flowEnd .flowTableEnd rest).map skipComment
    | ',' => (s.comma rest).map skipComment
    | '*' => (s.reference .alias here rest).map skipComment
    | '&' => (s.reference .anchor here rest).map skipComment
    | '!' => (s.tag here rest).map skipComment
    | '"' => (s.quoted true here rest).map skipComment
    | c =>
      if c.toNat == 39 then (s.quoted false here rest).map skipComment
      else if c == '-' && atSpace rest then s.item here rest
      else if c == '?' && (s.inFlow || atSpace rest) then (s.explicitKey here rest).map skipComment
      else if c == ':' && (s.inFlow || atSpace rest) then (s.value here rest).map skipComment
      else if c == '|' && !s.inFlow then s.block true rest
      else if c == '>' && !s.inFlow then s.block false rest
      else if startsPlain s.inFlow c rest then s.plain here rest
      else none

def fetch (s : Scan) : Option Scan :=
  let s := s.skip
  match s.rest with
  | [] => s.closeAll.map (push .textEnd)
  | here :: rest => (s.closeIndents here.column).token here rest

/-! ## Taking tokens -/

/-- Reads tokens until three are there and the first one is known to start no key. -/
def readyFrom : Nat → Scan → Option Scan
  | 0, _ => none
  | fuel + 1, s =>
    match s.queue with
    | _ :: _ :: _ :: _ =>
      match (s.waiting.lookup s.taken).bind fun depth => (s.slotAt? depth).map (depth, ·) with
      | none => some s
      | some (depth, k) => do
        match ← k.settle s.rest with
        | (true, _) => readyFrom fuel (← s.fetch)
        | (false, k) => return s.setSlotAt depth k
    | _ => s.fetch.bind (readyFrom fuel)

/-- Makes sure of the next token. Every token but those at the end of the text takes a character, so
there are enough steps. -/
def ready (s : Scan) : Option Scan := readyFrom (s.size + 4) s

def drop (s : Scan) : Scan :=
  { s with
    queue := s.queue.tail
    taken := s.taken + 1
    waiting := s.waiting.filter (s.taken < ·.1) }

end Scan

end CheckedIR.Document

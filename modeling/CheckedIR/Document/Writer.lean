import CheckedIR.Document.Spot
import CheckedIR.Document.Scalar

/-!
# Writing texts into documents

A text of several lines is written as a block if a block can hold it. Any other text is written bare
if it reads back as the same text, in single quotes if only its marks or blanks are in the way, and
in double quotes, where every character can be escaped, if nothing else will do.
-/

namespace CheckedIR.Document

/-- Words and spellings that other readers take for truth values or sexagesimal numbers. -/
def isMistakable (s : String) : Bool :=
  s ∈ ["y", "Y", "yes", "Yes", "YES", "on", "On", "ON", "n", "N", "no", "No", "NO", "off", "Off",
    "OFF"] || sexagesimal s.toList
where
  sexagesimal (cs : List Char) : Bool :=
    let cs := match cs with
      | '-' :: cs | '+' :: cs => cs
      | cs => cs
    match cs.splitOn ':' with
    | whole :: part :: parts =>
      let (last, fraction) := ((part :: parts).getLast?.getD []).span (· != '.')
      (whole.head?.any Char.isDigit) && whole.all (fun c => c.isDigit || c == '_') &&
        ((part :: parts).dropLast ++ [last]).all isSixtieth &&
        (fraction.isEmpty || fraction.tail.all fun c => c.isDigit || c == '_')
    | _ => false
  /-- One or two digits below sixty. -/
  isSixtieth : List Char → Bool
    | [d] => d.isDigit
    | [t, d] => t.isDigit && t.toNat ≤ 53 && d.isDigit
    | _ => false

/-- A character that may stand unescaped in a written document; a tab is left to the caller. -/
def isShown (c : Char) : Bool :=
  let n := c.toNat
  n == 0x0A || (0x20 ≤ n && n ≤ 0x7E) || (0xA0 ≤ n && n ≤ 0xD7FF) ||
    (0xE000 ≤ n && n ≤ 0xFFFD && n != 0xFEFF)

/-- Whether a mark inside a text would be read as one. -/
def hasInnerMark : List Char → Bool
  | ':' :: rest => rest.isEmpty || isBlank (rest.headD ' ') || hasInnerMark rest
  | c :: '#' :: rest => isBlank c || hasInnerMark ('#' :: rest)
  | _ :: rest => hasInnerMark rest
  | [] => false

/-- Whether the first character of a text would be read as a mark. -/
def hasLeadingMark : List Char → Bool
  | [] => false
  | c :: rest =>
    c ∈ "#,[]&*!|>\"%@".toList || c ∈ ['{', '}', Char.ofNat 39, Char.ofNat 96] ||
      ((c == '?' || c == ':' || c == '-') && (rest.isEmpty || isBlank (rest.headD ' '))) ||
      ["---".toList, "...".toList].any (·.isPrefixOf (c :: rest))

/-! ## Forms -/

/-- What a text is like: whether it starts or ends with a space or a line end, has a line end, has
one next to a space on either side, has tabs, or characters that are not shown. -/
structure TextShape where
  startsBlank : Bool
  endsInSpace : Bool
  endsInBreak : Bool
  hasBreak : Bool
  breakThenSpace : Bool
  spaceThenBreak : Bool
  hasTab : Bool
  hasHidden : Bool
  deriving DecidableEq, Repr

def TextShape.of (cs : List Char) : TextShape :=
  let pairs := cs.zip cs.tail
  { startsBlank := cs.head?.any fun c => c == ' ' || isBreak c
    endsInSpace := cs.getLast? == some ' '
    endsInBreak := cs.getLast?.any isBreak
    hasBreak := cs.any isBreak
    breakThenSpace := pairs.any fun (a, b) => isBreak a && b == ' '
    spaceThenBreak := pairs.any fun (a, b) => a == ' ' && isBreak b
    hasTab := cs.contains '\t'
    hasHidden := cs.any fun c => !isShown c && c != '\t' }

namespace TextShape

/-- A block can hold the text. -/
def fitsBlock (t : TextShape) : Bool := !(t.endsInSpace || t.spaceThenBreak || t.hasHidden)

/-- Single quotes can hold the text. -/
def fitsSingle (t : TextShape) : Bool :=
  !(t.breakThenSpace || t.spaceThenBreak || t.hasTab || t.hasHidden)

/-- The text has nothing but marks that could keep it from standing bare. -/
def fitsBare (t : TextShape) : Bool :=
  t.fitsSingle && !(t.startsBlank || t.endsInSpace || t.endsInBreak || t.hasBreak)

end TextShape

/-- A bare spelling of the text would mean something else. -/
def hasOtherMeaning (s : String) : Bool :=
  plainMeaning s != .text s || isMistakable s

/-! ## Double quotes -/

def escapedChar (c : Char) : List Char :=
  let n := c.toNat
  let short? : Option Char :=
    match n with
    | 0x00 => some '0'
    | 0x07 => some 'a'
    | 0x08 => some 'b'
    | 0x09 => some 't'
    | 0x0A => some 'n'
    | 0x0B => some 'v'
    | 0x0C => some 'f'
    | 0x0D => some 'r'
    | 0x1B => some 'e'
    | 0x22 => some '"'
    | 0x5C => some '\\'
    | 0x85 => some 'N'
    | 0xA0 => some '_'
    | 0x2028 => some 'L'
    | 0x2029 => some 'P'
    | _ => none
  match short? with
  | some e => ['\\', e]
  | none =>
    if n ≤ 0xFF then '\\' :: 'x' :: Text.hexFixed .upper 2 n
    else if n ≤ 0xFFFF then '\\' :: 'u' :: Text.hexFixed .upper 4 n
    else '\\' :: 'U' :: Text.hexFixed .upper 8 n

/-- The text in double quotes. Behind a byte order mark every character is escaped. -/
def inDoubleQuotes (cs : List Char) : List Char :=
  let all := cs.head? == some byteOrderMark
  let written (c : Char) : List Char :=
    if !all && isShown c && !isBreak c && c != '"' && c != '\\' then [c] else escapedChar c
  '"' :: cs.flatMap written ++ ['"']

/-! ## Text that runs over lines -/

def margin : List Char := List.replicate 4 ' '

/-- The text with the margin in front of every line that is not empty; `fresh` tells that a line
starts here. -/
def indented (fresh : Bool) : List Char → List Char
  | [] => []
  | c :: cs =>
    if isBreak c then c :: indented true cs
    else if fresh then margin ++ c :: indented false cs
    else c :: indented false cs

/-- The text in single quotes, where a quote is written twice. -/
def inSingleQuotes (cs : List Char) : List Char :=
  let quote := Char.ofNat 39
  quote :: indented false (cs.flatMap fun c => if c == quote then [c, c] else [c]) ++ [quote]

/-- The head of a block: the margin if the text starts with a blank, and a sign unless the text ends
with exactly one line end. -/
def blockHead (cs : List Char) : List Char :=
  '|' :: (if (TextShape.of cs).startsBlank then ['4'] else []) ++
    match cs.reverse with
    | last :: before =>
      if !isBreak last then ['-']
      else if before.isEmpty || before.head?.any isBreak then ['+']
      else []
    | [] => ['-']

/-- The text as a block. A line end at its start ends the line of the head. -/
def asBlock (cs : List Char) : List Char :=
  blockHead cs ++ (if cs.head?.any isBreak then [] else ['\n']) ++ indented true cs

/-! ## Entries -/

def writeText (s : String) : String :=
  let cs := s.toList
  let shape := TextShape.of cs
  String.ofList <|
    if cs.contains '\n' then if shape.fitsBlock then asBlock cs else inDoubleQuotes cs
    else if hasOtherMeaning s then inDoubleQuotes cs
    else if shape.fitsBare && !hasLeadingMark cs && !hasInnerMark cs then cs
    else if shape.fitsSingle then inSingleQuotes cs
    else inDoubleQuotes cs

/-- An entry with a written value, which may have ended its line itself. -/
def writeEntry (name value : String) : String :=
  name ++ ": " ++ value ++ if value.toList.getLast?.any isBreak then "" else "\n"

end CheckedIR.Document

import CheckedIR.Document.Number
import CheckedIR.Text.Bytes

/-!
# Scalars of documents

A scalar is its text with a tag that says what kind of thing it is. A tag may be written; if it is
not, a quoted or block text is text, and a plain one is null, a truth value, a number or a date if
it is spelled like one, and text otherwise. A written tag that contradicts the spelling leaves the
scalar without meaning, and an unknown tag makes it text.
-/

namespace CheckedIR.Document

inductive Style
  | plain
  | quoted
  deriving DecidableEq, Repr

inductive Tag
  | null
  | bool
  | int
  | float
  | date
  | text
  | binary
  | merge
  | list
  | table
  | other (name : String)
  deriving DecidableEq, Repr

def standardTag : String := "tag:yaml.org,2002:"

def Tag.ofName (name : String) : Tag :=
  let short :=
    if name.startsWith standardTag then "!!" ++ (name.drop standardTag.length).toString else name
  match short with
  | "!!null" => .null
  | "!!bool" => .bool
  | "!!int" => .int
  | "!!float" => .float
  | "!!timestamp" => .date
  | "!!str" => .text
  | "!!binary" => .binary
  | "!!merge" => .merge
  | "!!seq" => .list
  | "!!map" => .table
  | name => .other name

inductive Meaning
  | null
  | bool (b : Bool)
  | int (i : Int)
  | float (x : Double)
  | date
  | text (s : String)
  deriving DecidableEq, Repr

def Meaning.tag : Meaning → Tag
  | .null => .null
  | .bool _ => .bool
  | .int _ => .int
  | .float _ => .float
  | .date => .date
  | .text _ => .text

/-! ## Spellings -/

def word? : String → Option Meaning
  | "" | "~" | "null" | "Null" | "NULL" => some .null
  | "true" | "True" | "TRUE" => some (.bool true)
  | "false" | "False" | "FALSE" => some (.bool false)
  | ".nan" | ".NaN" | ".NAN" => some (.float Double.nan)
  | ".inf" | ".Inf" | ".INF" | "+.inf" | "+.Inf" | "+.INF" => some (.float (Double.infinity false))
  | "-.inf" | "-.Inf" | "-.INF" => some (.float (Double.infinity true))
  | _ => none

/-- A spelled number, or a date if `dates` says so. Underscores in numbers mean nothing. -/
def number? (dates : Bool) (cs : List Char) : Option Meaning :=
  match cs with
  | '.' :: _ => ((joinDigits? cs).bind float?).map .float
  | c :: _ =>
    if c.isDigit || c == '+' || c == '-' then
      if dates && isDate cs then some .date
      else
        let cs := cs.filter (· != '_')
        match integer? cs, float? cs with
        | some i, _ => some (.int i)
        | none, some x => some (.float x)
        | none, none => (innerSigned? cs).map .int
    else none
  | [] => none

def spelledMeaning (dates : Bool) (s : String) : Meaning :=
  match word? s with
  | some m => m
  | none => (number? dates s.toList).getD (.text s)

def plainMeaning (s : String) : Meaning := spelledMeaning true s

/-! ## Scalars -/

structure Scalar where
  text : String
  tag : Tag
  deriving DecidableEq, Repr

namespace Scalar

def plain (text : String) : Scalar := ⟨text, (plainMeaning text).tag⟩

def quoted (text : String) : Scalar := ⟨text, .text⟩

/-- A scalar as it was written. Without a tag, two less signs ask for a merge. -/
def written (text : String) (style : Style) : Option Tag → Scalar
  | some tag => ⟨text, tag⟩
  | none =>
    match style with
    | .quoted => quoted text
    | .plain => if text == "<<" then ⟨text, .merge⟩ else plain text

def isMerge (s : Scalar) : Bool := s.text == "<<" && s.tag == .merge

/-- What the scalar means; none if the tag contradicts the spelling. A float may be spelled as a
signed integer. -/
def meaning? (s : Scalar) : Option Meaning :=
  match s.tag with
  | .text | .merge | .list | .table | .other _ => some (.text s.text)
  | .binary => (Text.ofBase64? s.text).map .text
  | tag =>
    let m := spelledMeaning (tag == .date) s.text
    match m, tag with
    | .int i, .float => if i < (Nat.pow 2 63 : Int) then some (.float (Double.ofInt i)) else none
    | m, tag => if m.tag = tag then some m else none

end Scalar

end CheckedIR.Document

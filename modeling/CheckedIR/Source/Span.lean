import CheckedIR.Text.Path

/-!
# Source positions

Points and ranges of source text, and the way diagnostics print them: the file's last path
element, the line and the column. A point is valid when line and column are positive.
-/

namespace CheckedIR

structure Position where
  file : String
  line : Int
  column : Int
  deriving DecidableEq, Repr, Inhabited

/-- A range of source text; the end is excluded. -/
structure Span where
  start : Position
  stop : Position
  deriving DecidableEq, Repr, Inhabited

namespace Position

def isValid (p : Position) : Bool := 0 < p.line && 0 < p.column

def fileText (p : Position) : String :=
  if p.file.isEmpty then "" else Text.Path.base p.file ++ ":"

def text (p : Position) : String :=
  if p.isValid then p.fileText ++ toString p.line ++ ":" ++ toString p.column
  else if p.file.isEmpty then "-"
  else Text.Path.base p.file

end Position

namespace Span

def within (file : String) (line column endLine endColumn : Int) : Span :=
  ⟨⟨file, line, column⟩, ⟨file, endLine, endColumn⟩⟩

def none : Span := within "" 0 0 0 0

def isValid (s : Span) : Bool := s.start.isValid

/-- A range on one line repeats only the column; an empty range prints as its start. -/
def text (s : Span) : String :=
  if ! s.stop.isValid || s.start == s.stop then s.start.text
  else
    let head := s.start.fileText ++ toString s.start.line ++ ":" ++ toString s.start.column ++ "-"
    if s.start.line = s.stop.line then head ++ toString s.stop.column
    else head ++ toString s.stop.line ++ ":" ++ toString s.stop.column

end Span

end CheckedIR

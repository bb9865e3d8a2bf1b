import CheckedIR.Document.Spot
import CheckedIR.Text.Escapes

/-!
# Texts of scalars

How the text of a scalar is read from its spots, in each of the four ways of writing it. Bare and
quoted texts may run over several lines: a single line end between two words counts as a space,
and more of them count as one less. Every reader returns the text with the spots that follow it,
and none if the spots are malformed.

While a text is read, `done` holds its characters so far, newest first.
-/

namespace CheckedIR.Document

/-! ## Gaps -/

/-- What stands between two words of a text: blanks on one line, or line ends. A line end that was
escaped leaves `first` empty. -/
inductive Gap
  | blanks (cs : List Char)
  | breaks (first : Option Char) (others : List Char)
  deriving DecidableEq, Repr

namespace Gap

def none : Gap := .blanks []

def blank (c : Char) : Gap → Gap
  | .blanks cs => .blanks (cs ++ [c])
  | .breaks f cs => .breaks f cs

def lineEnd (c : Char) : Gap → Gap
  | .blanks _ => .breaks (some c) []
  | .breaks f cs => .breaks f (cs ++ [c])

def hasBreak : Gap → Bool
  | .blanks _ => false
  | .breaks _ _ => true

def text : Gap → List Char
  | .blanks cs => cs
  | .breaks .none cs => cs
  | .breaks (some '\n') [] => [' ']
  | .breaks (some '\n') cs => cs
  | .breaks (some c) cs => c :: cs

def onto (gap : Gap) (done : List Char) : List Char := gap.text.reverse ++ done

end Gap

structure Read where
  text : List Char
  rest : List Spot
  deriving Repr

/-! ## Bare text -/

/-- The spot ends a bare text: a colon before a space, or inside brackets one of their marks. -/
def endsPlain (inFlow : Bool) (c : Char) (rest : List Spot) : Bool :=
  (c == ':' && atSpace rest) || (inFlow && c ∈ [',', '?', '[', ']', '{', '}'])

/-- Reads bare text. Outside brackets every further line is indented by at least `indent`. The
flag tells whether line ends follow the text. -/
def plainText (inFlow : Bool) (indent : Int) (gap : Gap) (done : List Char) :
    List Spot → Option (Read × Bool)
  | [] => some (⟨done.reverse, []⟩, gap.hasBreak)
  | s :: rest =>
    if isBreak s.char then plainText inFlow indent (gap.lineEnd s.lineEnd) done rest
    else if isBlank s.char then
      if gap.hasBreak && s.char == '\t' && s.column < indent then none
      else plainText inFlow indent (gap.blank s.char) done rest
    else if gap.hasBreak && !inFlow && s.column < indent then some (⟨done.reverse, s :: rest⟩, true)
    else if atMark (s :: rest) || (s.char == '#' && gap != .none) || endsPlain inFlow s.char rest
    then some (⟨done.reverse, s :: rest⟩, gap.hasBreak)
    else plainText inFlow indent .none (s.char :: gap.onto done) rest

/-! ## Quoted text -/

def singleQuoted (gap : Gap) (done : List Char) : List Spot → Option Read
  | [] => none
  | [s] => if s.char == '\'' then some ⟨(gap.onto done).reverse, []⟩ else none
  | s :: t :: rest =>
    if atMark (s :: t :: rest) then none
    else if isBreak s.char then singleQuoted (gap.lineEnd s.lineEnd) done (t :: rest)
    else if isBlank s.char then singleQuoted (gap.blank s.char) done (t :: rest)
    else if s.char != '\'' then
      singleQuoted .none (s.char :: gap.onto done) (t :: rest)
    else if t.char == '\'' then singleQuoted .none ('\'' :: gap.onto done) rest
    else some ⟨(gap.onto done).reverse, t :: rest⟩

/-- What a backslash and a character stand for: one character, or a number of hexadecimal digits
that follow. -/
def escape? : Char → Option (Char ⊕ Nat)
  | '0' => some (.inl '\x00')
  | 'a' => some (.inl '\x07')
  | 'b' => some (.inl '\x08')
  | 't' | '\t' => some (.inl '\t')
  | 'n' => some (.inl '\n')
  | 'v' => some (.inl '\x0b')
  | 'f' => some (.inl '\x0c')
  | 'r' => some (.inl '\r')
  | 'e' => some (.inl '\x1b')
  | ' ' => some (.inl ' ')
  | '"' => some (.inl '"')
  | '\'' => some (.inl '\'')
  | '\\' => some (.inl '\\')
  | 'N' => some (.inl '\u0085')
  | '_' => some (.inl '\u00a0')
  | 'L' => some (.inl '\u2028')
  | 'P' => some (.inl '\u2029')
  | 'x' => some (.inr 2)
  | 'u' => some (.inr 4)
  | 'U' => some (.inr 8)
  | _ => none

def charOfCode? (n : Nat) : Option Char :=
  if n.isValidChar then some (Char.ofNat n) else none

inductive EscapeState
  | outside
  | backslash
  | code (left value : Nat)
  deriving DecidableEq, Repr

def doubleQuoted (state : EscapeState) (gap : Gap) (done : List Char) : List Spot → Option Read
  | [] => none
  | s :: rest =>
    match state with
    | .outside =>
      if atMark (s :: rest) then none
      else if isBreak s.char then doubleQuoted .outside (gap.lineEnd s.lineEnd) done rest
      else if isBlank s.char then doubleQuoted .outside (gap.blank s.char) done rest
      else if s.char == '"' then some ⟨(gap.onto done).reverse, rest⟩
      else if s.char == '\\' then doubleQuoted .backslash .none (gap.onto done) rest
      else doubleQuoted .outside .none (s.char :: gap.onto done) rest
    | .backslash =>
      if isBreak s.char then doubleQuoted .outside (.breaks .none []) done rest
      else
        match escape? s.char with
        | some (.inl c) => doubleQuoted .outside .none (c :: done) rest
        | some (.inr n) => doubleQuoted (.code n 0) .none done rest
        | none => none
    | .code left value =>
      match Text.hexValue? s.char with
      | none => none
      | some d =>
        let value := value * 16 + d
        if left ≤ 1 then
          match charOfCode? value with
          | some c => doubleQuoted .outside .none (c :: done) rest
          | none => none
        else doubleQuoted (.code (left - 1) value) .none done rest

/-! ## Block text -/

inductive Chomp
  | strip
  | clip
  | keep
  deriving DecidableEq, Repr

structure BlockHead where
  chomp : Chomp
  indent : Option Nat
  deriving DecidableEq, Repr

def chomp? : Char → Option Chomp
  | '+' => some .keep
  | '-' => some .strip
  | _ => none

def indent? (c : Char) : Option Nat :=
  if '1' ≤ c ∧ c ≤ '9' then some (c.toNat - 48) else none

def blockMarks : List Spot → BlockHead × List Spot
  | [] => (⟨.clip, none⟩, [])
  | s :: rest =>
    match chomp? s.char, indent? s.char with
    | some c, _ =>
      match rest with
      | t :: rest' =>
        match indent? t.char with
        | some n => (⟨c, some n⟩, rest')
        | none => (⟨c, none⟩, rest)
      | [] => (⟨c, none⟩, [])
    | none, some n =>
      match rest with
      | t :: rest' =>
        match chomp? t.char with
        | some c => (⟨c, some n⟩, rest')
        | none => (⟨.clip, some n⟩, rest)
      | [] => (⟨.clip, some n⟩, [])
    | none, none => (⟨.clip, none⟩, s :: rest)

def blankLine (inComment : Bool) : List Spot → Option (List Spot)
  | [] => some []
  | s :: rest =>
    if isBreak s.char then some rest
    else if inComment then blankLine true rest
    else if isBlank s.char then blankLine false rest
    else if s.char == '#' then blankLine true rest
    else none

/-- The indentation of the first line that is not empty, or of the widest empty line before it. A
tab among the spaces is refused. -/
def leadingIndent (widest : Nat) : List Spot → Option Nat
  | [] => some widest
  | s :: rest =>
    if s.char == ' ' then leadingIndent widest rest
    else if s.char == '\t' then none
    else if isBreak s.char then leadingIndent (max widest s.column) rest
    else some (max widest s.column)

/-- The lines of a block text so far, everything newest first. `last` is the line end of the last
line, `empty` the line ends of the empty lines after it, and `blankStart` tells whether that line
starts with a blank. -/
structure BlockLines where
  done : List Char
  last : List Char
  empty : List Char
  blankStart : Bool
  deriving DecidableEq, Repr

/-- The text in front of the next line. In folded text a single line end between two lines that do
not start with a blank becomes a space. -/
def BlockLines.join (literal : Bool) (blankNext : Bool) (b : BlockLines) : List Char :=
  if !literal && !b.blankStart && !blankNext && b.last == ['\n'] then
    (if b.empty.isEmpty then [' '] else b.empty) ++ b.done
  else b.empty ++ b.last ++ b.done

def BlockLines.finish (chomp : Chomp) (b : BlockLines) : List Char :=
  match chomp with
  | .strip => b.done.reverse
  | .clip => (b.last ++ b.done).reverse
  | .keep => (b.empty ++ b.last ++ b.done).reverse

mutual

def blockIndented (literal : Bool) (indent : Nat) (b : BlockLines) :
    List Spot → Option (BlockLines × List Spot)
  | [] => some (b, [])
  | s :: rest =>
    if isBreak s.char then
      blockIndented literal indent { b with empty := s.lineEnd :: b.empty } rest
    else if s.column < indent then
      if s.char == ' ' then blockIndented literal indent b rest
      else if s.char == '\t' then none
      else some (b, s :: rest)
    else if s.column = indent then
      let blank := isBlank s.char
      blockLine literal indent ⟨s.char :: b.join literal blank, [], [], blank⟩ rest
    else some (b, s :: rest)

def blockLine (literal : Bool) (indent : Nat) (b : BlockLines) :
    List Spot → Option (BlockLines × List Spot)
  | [] => some (b, [])
  | s :: rest =>
    if isBreak s.char then blockIndented literal indent { b with last := [s.lineEnd] } rest
    else blockLine literal indent { b with done := s.char :: b.done } rest

end

def blockText (literal : Bool) (parent : Int) (spots : List Spot) : Option Read := do
  let (head, rest) := blockMarks spots
  let body ← blankLine false rest
  let indent ←
    match head.indent with
    | some n => some ((max parent 0).toNat + n)
    | none => (leadingIndent 0 body).map fun n => max n (max (parent + 1).toNat 1)
  let (lines, rest) ← blockIndented literal indent ⟨[], [], [], false⟩ body
  return ⟨lines.finish head.chomp, rest⟩

end CheckedIR.Document

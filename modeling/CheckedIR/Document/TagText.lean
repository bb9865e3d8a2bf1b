import CheckedIR.Document.Spot
import CheckedIR.Text.Escapes
import CheckedIR.Text.Bytes

/-!
# Texts of names and tags

The spellings of names, of tags and of the handles that shorten tags. A tag may hold any character
as the escaped bytes of its UTF-8 form.
-/

namespace CheckedIR.Document

def isNameChar (c : Char) : Bool := c.isAlphanum || c == '_' || c == '-'

def isTagChar (c : Char) : Bool :=
  isNameChar c || c ∈ ";/?:@&=+$.,!~*()[]%".toList || c.toNat == 39

/-- The text of the spots in front while `p` holds, and the spots after it. -/
def spanText (p : Char → Bool) (spots : List Spot) : List Char × List Spot :=
  let (inside, rest) := spots.span fun s => p s.char
  (inside.map Spot.char, rest)

/-- The bytes of a tag. Escaped bytes have to make up whole characters: `due` bytes of the current
one are still to come, and they have to be escaped too. -/
def tagBytes? (due : Nat) : List Char → Option (List Nat)
  | [] => if due = 0 then some [] else none
  | '%' :: a :: b :: cs => do
    let byte := (← Text.hexValue? a) * 16 + (← Text.hexValue? b)
    let due ← if due = 0 then (Text.leadByte? byte).map (·.1)
      else (Text.trailByte? byte).map fun _ => due - 1
    return byte :: (← tagBytes? due cs)
  | c :: cs => if c == '%' || due != 0 then none else (tagBytes? 0 cs).map (c.toNat :: ·)

def tagText? (cs : List Char) : Option String := (tagBytes? 0 cs).map Text.textOfBytes

/-- A written tag behind its exclamation mark, as a handle and the rest: a whole tag in angle
brackets has no handle, and neither has the mark alone. -/
def writtenTag (spots : List Spot) : Option (String × String × List Spot) := do
  match spots with
  | s :: inside =>
    if s.char == '<' then
      let (uri, rest) := spanText isTagChar inside
      guard (!uri.isEmpty)
      match rest with
      | t :: rest => do
        guard (t.char == '>')
        return ("", ← tagText? uri, rest)
      | [] => none
    else
      let (text, rest) := spanText isTagChar spots
      let (word, suffix) := text.span isNameChar
      match suffix with
      | '!' :: suffix => do
        guard (!suffix.isEmpty)
        return (String.ofList ('!' :: word ++ ['!']), ← tagText? suffix, rest)
      | _ =>
        if text.isEmpty then return ("", "!", rest)
        return ("!", ← tagText? text, rest)
  | [] => return ("", "!", [])

/-- A handle: one exclamation mark, two of them, or a word between two. -/
def writtenHandle (spots : List Spot) : Option (String × List Spot) := do
  match spots with
  | s :: rest =>
    guard (s.char == '!')
    let (word, rest) := spanText isNameChar rest
    match rest with
    | t :: rest' =>
      if t.char == '!' then return (String.ofList ('!' :: word ++ ['!']), rest')
      guard word.isEmpty
      return ("!", rest)
    | [] => do
      guard word.isEmpty
      return ("!", [])
  | [] => none

end CheckedIR.Document

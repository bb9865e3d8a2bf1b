import CheckedIR.Document.Data

/-!
# Decoding documents

Turns data into the values that a field asks for. A piece that does not have the shape of its field
is a mismatch: it is noted, decoding goes on without it, and the whole fails in the end. Other
faults stop at once: a tag against the spelling, an alias inside what it stands for, a merge with
something that is no table.

Following aliases can make much out of little, so decoding counts the pieces that it visits and
those among them that it reached through an alias, and gives up when the latter prevail.

A reader answers `none` for a piece that says nothing, such as a null for a text, and for a
mismatch.
-/

namespace CheckedIR.Document

inductive Refusal
  | unreadable
  | incomparable
  deriving DecidableEq, Repr

/-- What decoding has done so far: the visited pieces, those among them reached through an alias,
the aliases that are being followed, innermost first, and whether a mismatch was noted. -/
structure Progress where
  visits : Nat
  borrowed : Nat
  opened : List Nat
  mismatched : Bool
  deriving DecidableEq, Repr

namespace Progress

def start : Progress := ⟨0, 0, [], false⟩

/-- Too many of the visited pieces are borrowed: more than 99 in a hundred up to 400000 visits, more
than ten from 4000000 visits on, and in proportion in between. -/
def isExcessive (p : Progress) : Bool :=
  100 < p.borrowed && 1000 < p.visits &&
    if p.visits ≤ 400000 then 99 * p.visits < 100 * p.borrowed
    else if 4000000 ≤ p.visits then p.visits < 10 * p.borrowed
    else (99 * 3600000 - 89 * (p.visits - 400000)) * p.visits < 100 * 3600000 * p.borrowed

def visit (p : Progress) : Progress :=
  { p with
    visits := p.visits + 1
    borrowed := if p.opened.isEmpty then p.borrowed else p.borrowed + 1 }

end Progress

abbrev Decoding := ReaderT Anchors (StateT Progress (Except Refusal))

namespace Decoding

variable {α : Type}

def fail : Decoding α := throw .unreadable

def mismatch : Decoding (Option α) := do
  modify fun p => { p with mismatched := true }
  return none

def depth : Decoding Nat := do return (← read).depth

def visit : Decoding Unit := do
  modify Progress.visit
  if (← get).isExcessive then fail

def reach (decode : Data → Decoding α) (d : Data) : Decoding α := do
  visit
  match d with
  | .alias number _ target =>
    if (← get).opened.contains number then fail
    modify fun p => { p with opened := number :: p.opened }
    visit
    let a ← decode ((← read).piece target)
    modify fun p => { p with opened := p.opened.tail }
    return a
  | d => decode d

/-! ## Scalars -/

def meaning (s : Scalar) : Decoding Meaning :=
  match s.meaning? with
  | some m => pure m
  | none => fail

/-- Decodes a scalar by its meaning; a null says nothing and anything else is a mismatch. -/
def scalar (decode : Scalar → Meaning → Option α) : Data → Decoding (Option α) :=
  reach fun
    | .scalar s => do
      match ← meaning s with
      | .null => return none
      | m =>
        match decode s m with
        | some a => return some a
        | none => mismatch
    | _ => mismatch

/-- Text: a scalar's meaning if that is text, and its spelling otherwise. -/
def text : Data → Decoding (Option String) :=
  scalar fun s m =>
    match m with
    | .text t => some t
    | _ => some s.text

/-- A float as an integer in 64 bits: it is cut at its point; one out of range below becomes the
least integer, and one out of range above is refused. -/
def cutToInt? (x : Double) : Option Int :=
  let least : Int := -(Nat.pow 2 63 : Int)
  if x.isNaN then none
  else if x.isInfinite then if x.isNegative then some least else none
  else if (Nat.pow 2 63 : Int) < x.truncate then none
  else if x.truncate = (Nat.pow 2 63 : Int) ∨ x.truncate < least then some least
  else some x.truncate

def int : Data → Decoding (Option Int) :=
  scalar fun _ m =>
    match m with
    | .int i => if i < (Nat.pow 2 63 : Int) then some i else none
    | .float x => cutToInt? x
    | _ => none

def bool : Data → Decoding (Option Bool) :=
  scalar fun _ m =>
    match m with
    | .bool b => some b
    | .text t =>
      if t ∈ ["y", "Y", "yes", "Yes", "YES", "on", "On", "ON"] then some true
      else if t ∈ ["n", "N", "no", "No", "NO", "off", "Off", "OFF"] then some false
      else none
    | _ => none

def float : Data → Decoding (Option Double) :=
  scalar fun _ m =>
    match m with
    | .int i => some (Double.ofInt i)
    | .float x => some x
    | _ => none

/-! ## Lists -/

def each {β : Type} (item : β → Decoding (Option α)) (items : List β) : Decoding (List α) := do
  return (← items.mapM item).filterMap id

def list (item : Data → Decoding (Option α)) : Data → Decoding (Option (List α)) :=
  reach fun
    | .scalar s => do
      match ← meaning s with
      | .null => return some []
      | _ => mismatch
    | .list _ items => return some (← each item items)
    | _ => mismatch

def texts : Data → Decoding (Option (List String)) := list text

def part (d : Data) : Decoding Part := do
  visit
  return ⟨d, ← read⟩

end Decoding

/-- Decodes a part by itself. It has no value if a mismatch was noted. -/
def Part.decode {α : Type} (p : Part) (decode : Data → Decoding α) : Except Refusal α := do
  let (a, progress) ← decode p.data p.anchors .start
  if progress.mismatched then throw .unreadable
  return a

end CheckedIR.Document

import CheckedIR.Document.Decoding
import CheckedIR.Document.Scan

/-!
# Reading documents

The data of the first document of a text. A text without a document has none. What follows the
first document is not looked at, but for the next tokens, since the scan is always some tokens
ahead: a text that is malformed there is refused.
-/

namespace CheckedIR.Document

/-- What is still to be read, the tags that handles stand for, the numbers of the anchored pieces by
their names, the pieces that are complete, and the next numbers of pieces and aliases. -/
structure Tail where
  scan : Scan
  handles : List (String × String)
  names : List (String × Nat)
  pieces : List (Nat × Data)
  nextPiece : Nat
  nextAlias : Nat

abbrev Step := StateT Tail Option

namespace Step

def fail {α : Type} : Step α := fun _ => none

def peek : Step Token := fun t => do
  let scan ← t.scan.ready
  let token ← scan.queue.head?
  return (token, { t with scan })

def drop : Step Unit := modify fun t => { t with scan := t.scan.drop }

def anchored (anchor : Option String) (read : Step Data) : Step Data := do
  match anchor with
  | none => read
  | some name =>
    let number := (← get).nextPiece
    modify fun t => { t with names := (name, number) :: t.names, nextPiece := number + 1 }
    let d ← read
    modify fun t => { t with pieces := (number, d) :: t.pieces }
    return d

/-- An alias for the piece that last got the name. -/
def aliasOf (name : String) : Step Data := fun t => do
  let target ← t.names.lookup name
  return (.alias t.nextAlias name target, { t with nextAlias := t.nextAlias + 1 })

end Step

open Step

/-! ## Names and tags -/

/-- The tag of a handle and a suffix; none for a tag that says nothing. -/
def resolveTag (handle suffix : String) : Step (Option Tag) := do
  let name ←
    if handle.isEmpty then pure suffix
    else
      match (← get).handles.lookup handle with
      | some start => pure (start ++ suffix)
      | none => fail
  if name.isEmpty then fail
  return if name == "!" then none else some (.ofName name)

structure Properties where
  anchor : Option String
  hasTag : Bool
  tag : Option Tag

def properties : Step Properties := do
  match ← peek with
  | .anchor name =>
    drop
    match ← peek with
    | .tag h s => drop; return ⟨some name, true, ← resolveTag h s⟩
    | _ => return ⟨some name, false, none⟩
  | .tag h s =>
    drop
    match ← peek with
    | .anchor name => drop; return ⟨some name, true, ← resolveTag h s⟩
    | _ => return ⟨none, true, ← resolveTag h s⟩
  | _ => return ⟨none, false, none⟩

/-! ## Values -/

mutual

/-- Reads a value. With `block` it may be written by indentation; with `indentless` also a list
whose items are not indented. -/
def node (block indentless : Bool) : Nat → Step Data
  | 0 => fail
  | fuel + 1 => do
    match ← peek with
    | .alias name => drop; aliasOf name
    | _ =>
      let p ← properties
      let list (items : Step (List Data)) : Step Data :=
        anchored p.anchor (.list (p.tag.getD .list) <$> items)
      let table (entries : Step (List (Data × Data))) : Step Data :=
        anchored p.anchor (.table (p.tag.getD .table) <$> entries)
      match ← peek with
      | .scalar text style =>
        drop
        anchored p.anchor (return .scalar (.written text style p.tag))
      | .item => if indentless then list (indentlessItems fuel) else empty p
      | .flowListStart => list do drop; flowItems true fuel
      | .flowTableStart => table do drop; flowEntries true fuel
      | .listStart => if block then list do drop; blockItems fuel else empty p
      | .tableStart => if block then table do drop; blockEntries fuel else empty p
      | _ => empty p
where
  empty (p : Properties) : Step Data :=
    if p.anchor.isSome || p.hasTag then
      anchored p.anchor (return .scalar (.written "" .plain p.tag))
    else fail

def blockItems : Nat → Step (List Data)
  | 0 => fail
  | fuel + 1 => do
    match ← peek with
    | .item =>
      drop
      let d ← match ← peek with
        | .item | .blockEnd => pure .null
        | _ => node true false fuel
      return d :: (← blockItems fuel)
    | .blockEnd => drop; return []
    | _ => fail

/-- The items of a list that is not indented, which ends where no item follows. -/
def indentlessItems : Nat → Step (List Data)
  | 0 => fail
  | fuel + 1 => do
    match ← peek with
    | .item =>
      drop
      let d ← match ← peek with
        | .item | .key | .value | .blockEnd => pure .null
        | _ => node true false fuel
      return d :: (← indentlessItems fuel)
    | _ => return []

def blockEntries : Nat → Step (List (Data × Data))
  | 0 => fail
  | fuel + 1 => do
    match ← peek with
    | .key =>
      drop
      let k ← blockPart fuel
      let v ← match ← peek with
        | .value => do drop; blockPart fuel
        | _ => pure .null
      return (k, v) :: (← blockEntries fuel)
    | .blockEnd => drop; return []
    | _ => fail

def blockPart : Nat → Step Data
  | 0 => fail
  | fuel + 1 => do
    match ← peek with
    | .key | .value | .blockEnd => return .null
    | _ => node true true fuel

def flowItems (first : Bool) : Nat → Step (List Data)
  | 0 => fail
  | fuel + 1 => do
    match ← peek with
    | .flowListEnd => drop; return []
    | token =>
      if !first then
        if token == .comma then drop else fail
      match ← peek with
      | .flowListEnd => drop; return []
      | .key =>
        drop
        let k ← match ← peek with
          | .value | .comma | .flowListEnd => do drop; pure .null
          | _ => node false false fuel
        let v ← match ← peek with
          | .value => do
            drop
            match ← peek with
            | .comma | .flowListEnd => pure .null
            | _ => node false false fuel
          | _ => pure .null
        return .table .table [(k, v)] :: (← flowItems false fuel)
      | _ =>
        let d ← node false false fuel
        return d :: (← flowItems false fuel)

/-- The entries of a bracketed table. A value without a key mark is a key with a null value. -/
def flowEntries (first : Bool) : Nat → Step (List (Data × Data))
  | 0 => fail
  | fuel + 1 => do
    match ← peek with
    | .flowTableEnd => drop; return []
    | token =>
      if !first then
        if token == .comma then drop else fail
      match ← peek with
      | .flowTableEnd => drop; return []
      | .key =>
        drop
        let k ← match ← peek with
          | .value | .comma | .flowTableEnd => pure .null
          | _ => node false false fuel
        let v ← match ← peek with
          | .value => do
            drop
            match ← peek with
            | .comma | .flowTableEnd => pure .null
            | _ => node false false fuel
          | _ => pure .null
        return (k, v) :: (← flowEntries false fuel)
      | _ =>
        let k ← node false false fuel
        return (k, .null) :: (← flowEntries false fuel)

end

/-! ## Documents -/

/-- The directives in front of a document: at most one version, which has to be the known one, and
distinct handles. -/
def directives (versioned : Bool) : Nat → Step Unit
  | 0 => fail
  | fuel + 1 => do
    match ← peek with
    | .version major minor =>
      if versioned || major != 1 || minor != 1 then fail
      drop
      directives true fuel
    | .handle name start =>
      if (((← get).handles.lookup name).isSome) then fail
      modify fun t => { t with handles := (name, start) :: t.handles }
      drop
      directives versioned fuel
    | _ => return ()

def predefinedHandles : List (String × String) := [("!", "!"), ("!!", standardTag)]

def content (fuel : Nat) : Step Data := do
  match ← peek with
  | .version _ _ | .handle _ _ | .documentStart | .documentEnd | .textEnd => return .null
  | _ => node true false fuel

def firstDocument (fuel : Nat) : Step (Option Data) := do
  match ← peek with
  | .textEnd => return none
  | token =>
    let marked := match token with
      | .version _ _ | .handle _ _ | .documentStart => true
      | _ => false
    directives false fuel
    modify fun t => { t with handles := t.handles ++ predefinedHandles }
    let d ← if marked then do
        if (← peek) != .documentStart then fail
        drop
        content fuel
      else node true false fuel
    let _ ← peek
    return some d

def pieceSize : Nat := 512

/-- All characters are allowed in the pieces of a text that were taken in when reading stands at the
index `reached`. `index` and `bytes` count the characters so far and the bytes of the piece. -/
def allowedUpTo (reached : Nat) (index bytes : Nat) : List Char → Bool
  | [] => true
  | c :: cs =>
    if pieceSize < bytes + c.utf8Size then
      reached < index || (isAllowed c && allowedUpTo reached (index + 1) c.utf8Size cs)
    else isAllowed c && allowedUpTo reached (index + 1) (bytes + c.utf8Size) cs

/-- Reads the first document of a text, if there is one. A character stands behind at most four
tokens, and every token leads to at most four steps. -/
def read (text : String) : Except Refusal (Option Part) :=
  let spots := place text
  let start : Tail := ⟨.start spots, [], [], [], 0, 0⟩
  match (firstDocument (16 * spots.length + 64)).run start with
  | none => throw .unreadable
  | some (d, t) =>
    let reached := (t.scan.rest.head?).elim text.length Spot.index
    if allowedUpTo reached 0 0 text.toList then return d.map fun d => ⟨d, ⟨t.pieces, d.size⟩⟩
    else throw .unreadable

end CheckedIR.Document

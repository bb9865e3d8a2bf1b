import CheckedIR.Document.Decoding

/-!
# Decoding tables

A table is taken up entry by entry. The key `<<` merges: its value is a table, or a list of tables,
whose entries are taken up after the table's own, but for those whose key is there already. Merged
tables may merge others in turn.

Tables become records, whose keys are the names of their fields, tables of things by name, and free
values.
-/

namespace CheckedIR.Document

/-- A value whose kind the document chooses. What lists and tables hold does not matter. -/
inductive Value
  | null
  | bool (b : Bool)
  | int (i : Int)
  /-- An integer that needs all 64 bits. -/
  | unsigned (n : Nat)
  | float (x : Double)
  | text (s : String)
  | date (spelling : String)
  | list
  | table
  deriving DecidableEq, Repr

namespace Value

/-- The value can be the key of a table. -/
def isKey : Value → Bool
  | .list | .table => false
  | _ => true

/-- Two keys are the same. The two zeros are, and what is not a number is not even itself. -/
def sameKey : Value → Value → Bool
  | .float x, .float y => !x.isNaN && (x == y || (x.isZero && y.isZero))
  | a, b => a == b

def ofScalar (s : Scalar) : Meaning → Value
  | .null => .null
  | .bool b => .bool b
  | .int i => if i < (Nat.pow 2 63 : Int) then .int i else .unsigned i.toNat
  | .float x => .float x
  | .date => .date s.text
  | .text t => .text t

end Value

/-- The keys that merged tables may not set again. -/
abbrev Marks := List Value

/-- How the entries of a table are taken up into a state: what a key is, none if the entry is left
out, and what an entry changes. `again` tells that the table had the key before. -/
structure Intake (σ : Type) where
  key : Data → Decoding (Option Value)
  entry : (again : Bool) → σ → Value → Data → Decoding σ

namespace Intake

variable {σ : Type}

/-- Takes up a table's own entries. Without marks nothing is merged yet. -/
def own (i : Intake σ) (seen : List Value) (s : σ) (marks : Option Marks) :
    List (Data × Data) → Decoding (σ × Option Marks)
  | [] => return (s, marks)
  | (k, v) :: rest => do
    if k.isMerge then i.own seen s marks rest
    else
      match ← i.key k with
      | none => i.own seen s marks rest
      | some key =>
        if !key.isKey then throw (if marks.isSome then .incomparable else .unreadable)
        else if marks.any (·.any key.sameKey) then i.own seen s marks rest
        else
          let s ← i.entry (seen.any key.sameKey) s key v
          i.own (key :: seen) s (marks.map (key :: ·)) rest

end Intake

namespace Decoding

variable {σ α : Type}

/-- Decodes the entries of a table unless a key is repeated. -/
def distinct (decode : List (Data × Data) → Decoding (Option α)) (entries : List (Data × Data)) :
    Decoding (Option α) :=
  if hasDuplicates entries then mismatch else decode entries

def marksOf (mark : Data → Decoding (Option Value)) (entries : List (Data × Data)) :
    Decoding Marks :=
  each (fun e => do
    let key ← mark e.1
    if key.all Value.isKey then return key else throw .incomparable) entries

/-- The tables that a merge asks for. -/
def sources : Data → List Data
  | .list _ items => items
  | d => [d]

/-- Takes up the entries of a table and of those it merges. The marks are there if the table itself
is being merged; `mark` reads the keys of a table that starts to merge. -/
def take (i : Intake σ) (mark : Data → Decoding (Option Value)) :
    Nat → Option Marks → σ → List (Data × Data) → Decoding (σ × Option Marks)
  | 0, _, _, _ => fail
  | fuel + 1, marks, s, entries => do
    let (s, marks) ← i.own [] s marks entries
    match entries.find? (·.1.isMerge) with
    | none => return (s, marks)
    | some (_, merged) =>
      let before ← match marks with
        | some ms => pure ms
        | none => marksOf mark entries
      let (s, after) ← (sources merged).foldlM (fun (s, ms) => reach fun
        | .table _ es => do
          match ← distinct (fun es => some <$> take i mark fuel (some ms) s es) es with
          | some (s, ms') => return (s, ms'.getD ms)
          | none => return (s, ms)
        | _ => fail) (s, before)
      return (s, marks.map fun _ => after)

/-! ## Free values -/

/-- The key of a table whose keys are texts. A null is none. -/
def textKey (d : Data) : Decoding (Option Value) := do
  return (← text d).map .text

/-- A table is keyed by texts if all its keys are texts or ask for a merge. -/
def isTextKeyed (anchors : Anchors) (entries : List (Data × Data)) : Bool :=
  entries.all fun e => anchors.tag e.1 == .text || anchors.tag e.1 == .merge

def valueFrom : Nat → Data → Decoding (Option Value)
  | 0 => fun _ => fail
  | fuel + 1 => reach fun
    | .scalar s => return some (.ofScalar s (← meaning s))
    | .list _ items => do
      let _ ← items.mapM (valueFrom fuel)
      return some .list
    | .table _ entries => distinct (fun entries => do
        let i : Intake Unit :=
          { key := if isTextKeyed (← read) entries then textKey else valueFrom fuel
            entry := fun _ _ _ v => do
              let _ ← valueFrom fuel v }
        let _ ← take i (valueFrom fuel) fuel none () entries
        return some .table) entries
    | .alias _ _ _ => fail

def value (d : Data) : Decoding (Option Value) := do
  valueFrom (← depth) d

/-! ## Records and tables by name -/

/-- Takes up the entries of a table. -/
def takeUp (i : Intake σ) (s : σ) : List (Data × Data) → Decoding (Option σ) :=
  distinct fun entries => do
    return some (← take i value (← depth) none s entries).1

/-- Reads the entries of a table into the fields of a record. A name that is no field is ignored,
and a field may be set once. -/
def fields (set? : String → σ → Data → Option (Decoding σ)) (s : σ) :
    List (Data × Data) → Decoding (Option σ) :=
  takeUp {
    key := textKey
    entry := fun again s key v =>
      match key with
      | .text name =>
        match set? name s v with
        | none => return s
        | some set => if again then return (← mismatch).getD s else set
      | _ => return s } s

/-- A record that a null leaves out. -/
def optional (decode : List (Data × Data) → Decoding (Option α)) :
    Data → Decoding (Option (Option α)) :=
  reach fun
    | .scalar s => do
      match ← meaning s with
      | .null => return some none
      | _ => mismatch
    | .table tag entries => do
      if tag = .null then mismatch else return (← decode entries).map some
    | _ => mismatch

/-- Reads a document into a record. Without a document, or with a null one, it stays as it is. -/
def whole (decode : σ → List (Data × Data) → Decoding (Option σ)) (s : σ) :
    Option Part → Except Refusal σ
  | none => return s
  | some part => part.decode fun d => do
    visit
    let read ← reach (fun
      | .scalar s => do
        match ← meaning s with
        | .null => return none
        | _ => mismatch
      | .table _ entries => decode s entries
      | _ => mismatch) d
    return read.getD s

def assign (name : String) (a : α) (entries : List (String × α)) : List (String × α) :=
  if entries.any (·.1 == name) then entries.map fun e => if e.1 == name then (name, a) else e
  else entries ++ [(name, a)]

/-- A table of things by name; a null is the empty one. The last thing of a name counts. -/
def named (item : Data → Decoding (Option α)) : Data → Decoding (Option (List (String × α))) :=
  reach fun
    | .scalar s => do
      match ← meaning s with
      | .null => return some []
      | _ => mismatch
    | .table _ entries =>
      takeUp {
        key := textKey
        entry := fun _ s key v => do
          match key, ← item v with
          | .text name, some a => return assign name a s
          | _, _ => return s } [] entries
    | _ => mismatch

end Decoding

end CheckedIR.Document

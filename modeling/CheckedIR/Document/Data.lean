import CheckedIR.Document.Scalar

/-!
# Document data

The tree of a document: scalars, lists and tables, each with its tag. Tables keep their entries in
order and may repeat a key; reading a table as anything refuses repeated keys.

A piece that has an anchor is numbered, and an alias stands for it by that number. An alias may
stand inside the piece that it stands for, so the tree can describe data without end.
-/

namespace CheckedIR.Document

inductive Data
  | scalar (s : Scalar)
  | list (tag : Tag) (items : List Data)
  | table (tag : Tag) (entries : List (Data × Data))
  /-- The anchored piece `target`, under the name it was given. Every alias has its own number. -/
  | alias (number : Nat) (name : String) (target : Nat)
  deriving Repr, Inhabited

namespace Data

def null : Data := .scalar (.plain "")

/-- Two keys of a table collide when they are of one kind and have the same text, which for an
alias is the name; lists and tables have none. -/
def collides : Data → Data → Bool
  | .scalar a, .scalar b => a.text == b.text
  | .list _ _, .list _ _ | .table _ _, .table _ _ => true
  | .alias _ a _, .alias _ b _ => a == b
  | _, _ => false

def isMerge : Data → Bool
  | .scalar s => s.isMerge
  | _ => false

mutual

def size : Data → Nat
  | .scalar _ => 1
  | .list _ items => 1 + sizeOfItems items
  | .table _ entries => 1 + sizeOfEntries entries
  | .alias _ _ _ => 1

def sizeOfItems : List Data → Nat
  | [] => 0
  | d :: rest => d.size + sizeOfItems rest

def sizeOfEntries : List (Data × Data) → Nat
  | [] => 0
  | (k, v) :: rest => k.size + v.size + sizeOfEntries rest

end

end Data

def hasDuplicates : List (Data × Data) → Bool
  | [] => false
  | (k, _) :: rest => rest.any (fun e => k.collides e.1) || hasDuplicates rest

structure Anchors where
  pieces : List (Nat × Data)
  size : Nat
  deriving Repr

namespace Anchors

def none : Anchors := ⟨[], 0⟩

def piece (a : Anchors) (number : Nat) : Data := (a.pieces.lookup number).getD .null

def tag (a : Anchors) : Data → Tag
  | .scalar s => s.tag
  | .list t _ | .table t _ => t
  | .alias _ _ target =>
    match a.piece target with
    | .scalar s => s.tag
    | .list t _ | .table t _ => t
    | .alias _ _ _ => .null

/-- How deep reading can get. An alias cannot be followed inside itself, so every step down but one
leads into a piece that was not entered before. -/
def depth (a : Anchors) : Nat := (a.size + 1) * (a.size + 1)

end Anchors

structure Part where
  data : Data
  anchors : Anchors
  deriving Repr

end CheckedIR.Document

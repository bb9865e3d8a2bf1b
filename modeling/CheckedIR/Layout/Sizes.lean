import CheckedIR.Ir.Type
import CheckedIR.Layout.Fields

/-!
# Sizes of types

The size and alignment of a type on a target. Records are laid out once: a later change to a record
does not change its layout. Types that are not values in memory have no size.
-/

namespace CheckedIR.Layout

open CheckedIR.Ir

abbrev Known := List (RecordId × RecordLayout)

/-- Computing sizes; layouts that were found stay known when something later fails. -/
abbrev Sizing := ExceptT Error (StateM Known)

structure Extent where
  size : Int64
  alignment : Int64
  deriving DecidableEq, Repr

/-- An integer takes whole bytes and is aligned like the least power of two that holds them, up to
eight. -/
def intExtent (bits : Nat) : Extent :=
  let size := (Int64.ofNat bits + 7) / 8
  let alignment : Int64 := if size ≤ 1 then 1 else if size ≤ 2 then 2 else if size ≤ 4 then 4 else 8
  ⟨alignUp size alignment, alignment⟩

def Target.floatExtent (t : Target) : FloatKind → Extent
  | .half => ⟨2, 2⟩
  | .single => ⟨4, 4⟩
  | .double => ⟨8, t.doubleAlignment⟩
  | .quad | .extended | .pair => ⟨16, 16⟩

def Target.extentWith (t : Target) (rs : Records) (record : RecordId → Sizing RecordLayout) :
    Ty → Sizing Extent
  | .int bits => pure (intExtent bits)
  | .float kind => pure (t.floatExtent kind)
  | .pointer _ => pure ⟨t.pointerSize, t.pointerSize⟩
  | .array length elem => do
    let e ← t.extentWith rs record elem
    return { e with size := e.size * Int64.ofNat length }
  | .record id => do
    let l ← record id
    return ⟨l.size, l.alignment⟩
  | u => throw (.unsized (u.text rs))

def Target.fieldsWith (t : Target) (rs : Records) (record : RecordId → Sizing RecordLayout)
    (id : RecordId) : Nat → List Ty → Sizing (List Field)
  | _, [] => pure []
  | index, u :: us => do
    let e ← tryCatch (t.extentWith rs record u) fun e => throw (.inField index (rs.text id) e)
    let alignment := if (rs.get id).isPacked then 1 else e.alignment
    return ⟨toString index, u.text rs, e.size, alignment⟩ ::
      (← t.fieldsWith rs record id (index + 1) us)

def Target.layoutTo (t : Target) (rs : Records) : Nat → RecordId → Sizing RecordLayout
  | 0, _ => throw .cyclic
  | depth + 1, id => do
    match (← get).lookup id with
    | some l => return l
    | none =>
      let r := rs.get id
      if r.isOpaque then throw (.opaqueRecord (rs.text id))
      let fields ← t.fieldsWith rs (t.layoutTo rs depth) id 0 r.fields
      let l ← (t.recordLayout r.name fields : Except Error RecordLayout)
      -- An empty record still takes a byte.
      let l := if l.size = 0 then { l with size := 1 } else l
      modify ((id, l) :: ·)
      return l

/-- The layout of a record. Records that do not contain themselves nest at most as deep as there
are records. -/
def Target.layout (t : Target) (rs : Records) (id : RecordId) : Sizing RecordLayout :=
  t.layoutTo rs (rs.length + 1) id

def Target.extent (t : Target) (rs : Records) (u : Ty) : Sizing Extent :=
  t.extentWith rs (t.layout rs) u

end CheckedIR.Layout

import CheckedIR.Text.Escapes

/-!
# Field layout

Places the fields of a record one after the other. A field starts at the next multiple of its
alignment, and the record ends at a multiple of the largest one; the gaps are recorded as padding.
Offsets and sizes are 64-bit words, so sums wrap around.
-/

namespace CheckedIR.Layout

structure Field where
  name : String
  type : String
  size : Int64
  alignment : Int64
  deriving DecidableEq, Repr

structure PlacedField extends Field where
  offset : Int64
  deriving DecidableEq, Repr

inductive PaddingReason
  | field (name : String)
  | record
  deriving DecidableEq, Repr

structure Padding where
  offset : Int64
  size : Int64
  reason : PaddingReason
  deriving DecidableEq, Repr

structure RecordLayout where
  name : String
  fields : List PlacedField
  size : Int64
  alignment : Int64
  padding : List Padding
  deriving DecidableEq, Repr

structure Target where
  pointerSize : Int64
  doubleAlignment : Int64
  maxAlignment : Int64
  deriving DecidableEq, Repr

def Target.default : Target := ⟨8, 8, 16⟩

inductive Error
  | invalidSize (field : String) (size : Int64)
  | invalidAlignment (field : String) (alignment : Int64)
  | opaqueRecord (type : String)
  | unsized (type : String)
  | inField (index : Nat) (type : String) (inner : Error)
  | cyclic
  deriving Repr

def Error.message : Error → String
  | .invalidSize field size => "field " ++ field ++ " has invalid size: " ++ toString size
  | .invalidAlignment field alignment =>
    "field " ++ field ++ " alignment must be power of 2: " ++ toString alignment
  | .opaqueRecord type => "cannot compute layout of opaque struct " ++ type
  | .unsized type => "type " ++ type ++ " has no size"
  | .inField index type inner =>
    "field " ++ toString index ++ " of " ++ type ++ ": " ++ inner.message
  | .cyclic => "record contains itself"

def PaddingReason.text : PaddingReason → String
  | .field name => "alignment for field " ++ name
  | .record => "struct alignment"

def isPowerOfTwo (n : Int64) : Bool := 0 < n && n &&& (n - 1) == 0

def alignUp (value alignment : Int64) : Int64 :=
  if alignment ≤ 1 then value else (value + alignment - 1) &&& ~~~(alignment - 1)

def gap (start stop : Int64) (reason : PaddingReason) : List Padding :=
  if start < stop then [⟨start, stop - start, reason⟩] else []

/-- The alignment that a field gets: one if none is given, and no more than the target allows. -/
def Target.fieldAlignment (t : Target) (f : Field) : Except Error Int64 := do
  let alignment := if f.alignment ≤ 0 then 1 else f.alignment
  if ! isPowerOfTwo alignment then throw (.invalidAlignment f.name alignment)
  return min alignment t.maxAlignment

def Target.place (t : Target) (name : String) (fields : List PlacedField) (padding : List Padding)
    (offset alignment : Int64) : List Field → Except Error RecordLayout
  | [] =>
    let size := alignUp offset alignment
    return ⟨name, fields, size, alignment, padding ++ gap offset size .record⟩
  | f :: rest => do
    if f.size ≤ 0 then throw (.invalidSize f.name f.size)
    let a ← t.fieldAlignment f
    let start := alignUp offset a
    t.place name (fields ++ [{ f with alignment := a, offset := start }])
      (padding ++ gap offset start (.field f.name)) (start + f.size) (max alignment a) rest

def Target.recordLayout (t : Target) (name : String) (fields : List Field) :
    Except Error RecordLayout :=
  t.place name [] [] 0 1 fields

namespace RecordLayout

def paddingBytes (l : RecordLayout) : Int64 := l.padding.foldl (fun n p => n + p.size) 0

def text (l : RecordLayout) : String :=
  "Struct " ++ l.name ++ " (" ++ toString l.fields.length ++ " fields, " ++ toString l.size ++
    " bytes, " ++ toString l.paddingBytes ++ " padding)"

end RecordLayout

/-! ## Target triples -/

def architectures64 : List String :=
  ["x86_64", "amd64", "aarch64", "aarch64_be", "arm64", "arm64e", "riscv64", "ppc64", "ppc64le",
    "powerpc64", "powerpc64le", "s390x", "mips64", "mips64el", "sparcv9", "loongarch64", "wasm64"]

def architectures32 : List String :=
  ["arm", "armeb", "thumb", "thumbeb", "riscv32", "wasm32", "mips", "mipsel", "ppc", "powerpc",
    "sparc", "loongarch32"]

def architecturesX86 : List String := ["i386", "i486", "i586", "i686", "x86"]

def occursIn (part : List Char) (cs : List Char) : Bool :=
  part.isPrefixOf cs ||
    match cs with
    | [] => false
    | _ :: rest => occursIn part rest

/-- The target of a triple; the empty triple is the default target. On 32-bit x86 a double is
aligned to four bytes, except on Windows. -/
def Target.ofTriple (triple : String) : Except String Target :=
  let arch := String.ofList (triple.toList.takeWhile (· != '-'))
  if triple.isEmpty || arch ∈ architectures64 then pure .default
  else if arch ∈ architectures32 || "armv".toList.isPrefixOf arch.toList ||
      "thumbv".toList.isPrefixOf arch.toList then
    pure { Target.default with pointerSize := 4 }
  else if arch ∈ architecturesX86 then
    if occursIn "windows".toList triple.toList then pure { Target.default with pointerSize := 4 }
    else pure { Target.default with pointerSize := 4, doubleAlignment := 4 }
  else throw ("unsupported target architecture " ++ Text.quoted arch)

end CheckedIR.Layout

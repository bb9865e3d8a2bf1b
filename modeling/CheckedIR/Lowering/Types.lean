import CheckedIR.Lowering.State
import CheckedIR.Program.Mangling

/-!
# Lowering types

Checked types become module types: truth values, doubles, the string record, and pointers to the
records of object types. The record of an object type is made on first request, under its mangled
name, and is known before its fields are lowered, so types may refer to themselves. Types of ambient
classes have records without known fields.

The functions of the runtime library are declared here with the names of their types. The name of
string concatenation is also the mangled name of the string method, so both share one declaration.
-/

namespace CheckedIR.Lowering

open CheckedIR.Ir CheckedIR.Program

structure BuiltinParam where
  name : String
  type : String
  deriving DecidableEq, Repr

structure Builtin where
  name : String
  returns : String
  params : List BuiltinParam
  deriving DecidableEq, Repr

namespace Builtin

def gcAllocate : Builtin := ⟨"gc_allocate", "i8*", [⟨"size", "i32"⟩]⟩

def stringConcat : Builtin :=
  ⟨"string__concat", "string", [⟨"lhs", "string"⟩, ⟨"rhs", "string"⟩]⟩

def all : List Builtin := [gcAllocate, stringConcat]

def find? (name : String) : Option Builtin := all.find? (·.name == name)

end Builtin

def stringRecordName : String := "string"

namespace Lower

def stringRecord : Lower RecordId := do
  match (← get).stringRecord? with
  | some r => return r
  | none =>
    let r ← defineRecord ⟨stringRecordName, [.bytes, .i32], false, false⟩
    modify fun s => { s with stringRecord? := some r }
    return r

def typeWith (p : Program) (build : TypeId → Lower RecordId) (t : TypeId) : Lower Ty := do
  let i := p.typeInfo t
  if i.has [.boolean, .booleanLiteral] then return .i1
  else if i.has [.number, .numberLiteral] then return .double
  else if i.isString then return .record (← stringRecord)
  else if i.isObject then return .pointer (.record (← build t))
  else if i.has [.void] then return .void
  else if i.has [.any] then refuse .anyType
  else refuse (.unsupportedType (← answered (p.typeText t)))

/-- The type of a property is that of its declaration. -/
def propertyType (p : Program) (s : SymbolId) : TypeId :=
  ((p.declaration? s).map (·.node.type)).getD anyType

def logLayout (r : RecordId) : Lower Unit := do
  let s ← get
  let rs := s.module.records
  let (result, layouts) := (s.target.layout rs r).run s.layouts
  -- Layouts of inner records stay known even if the record itself has none.
  set { s with layouts }
  match result with
  | .ok l => debug ("defined " ++ l.text)
  | .error _ =>
    debug ("defined " ++ rs.text r ++ " with " ++ toString (rs.get r).fields.length ++ " fields")

def addFields (p : Program) (build : TypeId → Lower RecordId) (r : RecordId) :
    List SymbolId → Lower Unit
  | [] => pure ()
  | s :: rest => do
    let t ← typeWith p build (propertyType p s)
    modifyModule (·.modifyRecord r fun rec => { rec with fields := rec.fields ++ [t] })
    addFields p build r rest

/-- The record of an object type, where records whose fields need each other nest less than `depth`
deep. -/
def recordTo (p : Program) : Nat → TypeId → Bool → Lower RecordId
  | 0, _, _ => throw .exhausted
  | depth + 1, t, isOpaque => do
    let name ← answered (p.mangledType t)
    match (← get).typeDefs.lookup name with
    | some r => return r
    | none =>
      let isOpaque := isOpaque || p.isAmbient t
      let r ← defineRecord ⟨name, [], false, isOpaque⟩
      -- The table has the record before its fields are lowered, since they may refer to it.
      modify fun s =>
        { s with typeDefs := s.typeDefs ++ [(name, r)], objects := s.objects ++ [(r, t)] }
      if isOpaque then return r
      addFields p (fun u => recordTo p depth u false) r (p.storedProperties t)
      logLayout r
      return r

/-- The record of an object type. A record is requested anew only inside records of other names, so
requests nest at most as deep as there are types. -/
def record (p : Program) (t : TypeId) (isOpaque : Bool) : Lower RecordId :=
  recordTo p (p.types.length + 1) t isOpaque

def type (p : Program) : Option TypeId → Lower Ty
  | none => refuse (.internal "missing type")
  | some t => typeWith p (fun u => record p u false) t

def recordOf (p : Program) (t : Option TypeId) (isOpaque : Bool) : Lower RecordId := do
  record p (← orCrash t) isOpaque

/-! ## Questions about module types -/

def isString (t : Ty) : Lower Bool := do
  match t, (← get).stringRecord? with
  | .record r, some s => return r == s
  | _, _ => return false

/-- Whether values of the type are passed as they are: truth values, numbers, strings and pointers.
Everything else stays behind a pointer. -/
def isValueType (t : Ty) : Lower Bool := do
  match t with
  | .int bits => return bits == 1
  | .float kind => return kind == .double
  | .pointer _ => return true
  | .record _ => isString t
  | _ => return false

/-! ## Runtime functions -/

def builtinType (name : String) : Lower Ty := do
  match name with
  | "void" => return .void
  | "i32" => return .i32
  | "i8*" => return .bytes
  | "string" => return .record (← stringRecord)
  | _ => refuse (.internal ("unknown runtime type " ++ Text.quoted name))

def builtin (name : String) : Lower FuncId := do
  match (← get).funcs.lookup name with
  | some f => return f
  | none =>
    match Builtin.find? name with
    | none => refuse (.unknownBuiltin name)
    | some b =>
      let returns ← builtinType b.returns
      let params ← b.params.mapM fun q => return (q.name, ← builtinType q.type)
      let f ← newFunc b.name returns params
      modify fun s => { s with funcs := s.funcs ++ [(name, f)] }
      return f

def byteSize (t : Ty) : Lower Int64 := do
  let s ← get
  let rs := s.module.records
  let (result, layouts) := (s.target.extent rs t).run s.layouts
  set { s with layouts }
  match result with
  | .ok e => return e.size
  | .error e => refuse (.internal ("size of " ++ t.text rs ++ ": " ++ e.message))

def allocate (t : Ty) : Lower Value := do
  if ← isValueType t then refuse (.valueTypeAllocation (← typeText t))
  let size ← byteSize t
  let f ← builtin Builtin.gcAllocate.name
  let raw ← call f [.const (.int 32 size.toInt)]
  emit (.bitcast raw (.pointer t)) (.pointer t)

end Lower

end CheckedIR.Lowering

import CheckedIR.Document.Table
import CheckedIR.Program.Flags
import CheckedIR.Program.Walk

/-!
# Checked programs

A program is its source files with the tables of types and symbols that the nodes refer to, and
answers the questions a checker answers: the type and symbol at a node, the signature of a
declaration, the properties, index type and widened form of a type, and the printed form of a
type.

Types may refer to each other through their type arguments. The functions that follow those
references go at most as deep as there are types, and have no answer when the references form a
cycle.
-/

namespace CheckedIR

namespace Program

structure TypeInfo where
  flags : List TypeFlag
  /-- The name given to the type for printing; empty if none. -/
  name : String
  symbol? : Option SymbolId
  arguments : List TypeId
  properties : List SymbolId
  index? : Option TypeId
  base? : Option TypeId
  value? : Option Document.Value
  deriving Repr, Inhabited

structure SymbolInfo where
  name : String
  flags : List SymbolFlag
  deriving DecidableEq, Repr, Inhabited

end Program

structure Program where
  files : List Program.SourceFile
  types : List (Program.TypeId × Program.TypeInfo)
  symbols : List (Program.SymbolId × Program.SymbolInfo)

namespace Program

def intrinsics : List (TypeId × TypeInfo) :=
  [TypeFlag.any, .unknown, .number, .string, .boolean, .void, .undefined, .null,
    .never].map fun f =>
    (⟨f.name⟩, ⟨[f], f.name, none, [], [], none, none, none⟩)

def anyType : TypeId := ⟨"any"⟩
def numberType : TypeId := ⟨"number"⟩
def stringType : TypeId := ⟨"string"⟩
def booleanType : TypeId := ⟨"boolean"⟩
def voidType : TypeId := ⟨"void"⟩

/-- The type of a node. Literals have their primitive type unless the checker said otherwise, and
what the checker said nothing about is `any`. -/
def Node.type (n : Node) : TypeId :=
  n.info.type?.getD <|
    match n.kind with
    | .numericLiteral => numberType
    | .stringLiteral => stringType
    | .booleanLiteral => booleanType
    | _ => anyType

def Expr.type (e : Expr) : TypeId := (Node.expr e).type

variable (p : Program)

def type? (t : TypeId) : Option TypeInfo := p.types.lookup t

def symbol? (s : SymbolId) : Option SymbolInfo := p.symbols.lookup s

def typeInfo (t : TypeId) : TypeInfo := (p.type? t).getD default

def symbolInfo (s : SymbolId) : SymbolInfo := (p.symbol? s).getD default

/-! ## Declarations -/

def places : List Place := p.files.flatMap fun f => (Node.file f).postorder []

def declarations (s : SymbolId) : List Place :=
  p.places.filter fun d => d.node.info.declares? == some s

def declaration? (s : SymbolId) : Option Place := (p.declarations s).head?

/-! ## Signatures -/

structure Signature where
  params : List SymbolInfo
  returns : TypeId

def signature (d : Node) (f : FunctionLike) : Signature where
  params := f.params.map fun param =>
    match param.info.symbol? with
    | some s => p.symbolInfo s
    | none => ⟨param.name, [.param]⟩
  returns := d.info.returns?.getD voidType

/-! ## Questions about types -/

def TypeInfo.has (t : TypeInfo) (fs : List TypeFlag) : Bool := fs.any (t.flags.contains ·)

def SymbolInfo.has (s : SymbolInfo) (f : SymbolFlag) : Bool := s.flags.contains f

def TypeInfo.isObject (t : TypeInfo) : Bool := t.has [.object]

def TypeInfo.isString (t : TypeInfo) : Bool := t.has [.string, .stringLiteral]

def widened (t : TypeId) : TypeId :=
  let i := p.typeInfo t
  match i.base? with
  | some base => base
  | none =>
    if i.has [.stringLiteral] then stringType
    else if i.has [.numberLiteral] then numberType
    else if i.has [.booleanLiteral] then booleanType
    else t

def storedProperties (t : TypeId) : List SymbolId :=
  (p.typeInfo t).properties.filter fun s => (p.symbolInfo s).has .prop

def fieldIndex? (t : TypeId) (name : String) : Option Nat :=
  (p.storedProperties t).findIdx? fun s => (p.symbolInfo s).name == name

def isAmbient (t : TypeId) : Bool :=
  match (p.typeInfo t).symbol? with
  | none => false
  | some s =>
    (p.declarations s).any fun d =>
      match d.node with
      | .stmt (.classDecl _ _ _ isAmbient _) => isAmbient
      | _ => false

/-! ## Printed types -/

def shortName (t : TypeInfo) : String :=
  if ! t.name.isEmpty then t.name
  else match t.symbol? with
    | some s => (p.symbolInfo s).name
    | none => TypeFlag.setText t.flags

def typeTextTo : Nat → TypeId → Option String
  | 0, _ => none
  | depth + 1, t => do
    let i := p.typeInfo t
    if i.name.isEmpty && i.symbol?.isSome && ! i.arguments.isEmpty then
      let arguments ← i.arguments.mapM (typeTextTo depth)
      return p.shortName i ++ "<" ++ ", ".intercalate arguments ++ ">"
    return p.shortName i

def typeText (t : TypeId) : Option String := p.typeTextTo (p.types.length + 1) t

end Program

end CheckedIR

import CheckedIR.Ir.Constant

/-!
# Modules

A module is a table of records, the records it defines by name, its globals and its functions. A
function with blocks is defined, one without is declared. Functions, parameters and instruction
results are referred to by their place, never by their name, so a name can be given later and two
things can have the same one.

Something without a name has a number. Numbers are zero until the module is numbered for printing.
-/

namespace CheckedIR.Ir

abbrev FuncId := Nat

/-- The place of an instruction in the order in which its function got them. -/
abbrev InstId := Nat

inductive Value
  | param (func : FuncId) (index : Nat) (type : Ty)
  | inst (func : FuncId) (id : InstId) (type : Ty)
  | func (func : FuncId) (type : Ty)
  | const (c : Const)
  deriving DecidableEq, Repr

namespace Value

def type : Value → Ty
  | .param _ _ t | .inst _ _ t | .func _ t => t
  | .const c => c.type

def home? : Value → Option FuncId
  | .param f _ _ | .inst f _ _ => some f
  | .func .. | .const _ => none

def isUsableIn (v : Value) (f : FuncId) : Bool :=
  match v.home? with
  | some g => f == g
  | none => true

end Value

inductive Arith
  | add
  | sub
  | mul
  | div
  | rem
  deriving DecidableEq, Repr

inductive Comparison
  | eq
  | ne
  | lt
  | gt
  | le
  | ge
  deriving DecidableEq, Repr

inductive Op
  | alloca (elem : Ty)
  | store (value address : Value)
  | load (elem : Ty) (address : Value)
  | arith (op : Arith) (x y : Value)
  | compare (op : Comparison) (x y : Value)
  | call (callee : Value) (args : List Value)
  | bitcast (x : Value) (target : Ty)
  | field (record : Ty) (base : Value) (index : Nat)
  | extract (x : Value) (index : Nat)
  | toFloat (x : Value) (target : Ty)
  deriving DecidableEq, Repr

namespace Op

def operands : Op → List Value
  | .alloca _ => []
  | .store v a => [v, a]
  | .load _ a => [a]
  | .arith _ x y | .compare _ x y => [x, y]
  | .call callee args => callee :: args
  | .bitcast x _ | .field _ x _ | .extract x _ | .toFloat x _ => [x]

end Op

def Value.signature? (v : Value) : Option (Ty × List Ty × Bool) :=
  match v.type with
  | .pointer (.func returns params isVariadic) => some (returns, params, isVariadic)
  | _ => none

structure Inst where
  id : InstId
  name : String
  number : Nat
  op : Op
  deriving DecidableEq, Repr

inductive Terminator
  | ret (v : Option Value)
  | unreachable
  deriving DecidableEq, Repr

def Terminator.operands : Terminator → List Value
  | .ret (some v) => [v]
  | .ret none | .unreachable => []

structure Block where
  name : String
  number : Nat
  insts : List Inst
  term? : Option Terminator
  deriving DecidableEq, Repr

structure Param where
  name : String
  number : Nat
  type : Ty
  deriving DecidableEq, Repr

structure Func where
  name : String
  number : Nat
  returns : Ty
  params : List Param
  isVariadic : Bool
  blocks : List Block
  deriving DecidableEq, Repr

structure Global where
  name : String
  text : String
  deriving DecidableEq, Repr

structure Module where
  sourceFile : String
  dataLayout : String
  triple : String
  records : Records
  typeDefs : List RecordId
  globals : List Global
  funcs : List Func
  deriving DecidableEq, Repr

namespace Func

def insts (f : Func) : List Inst := f.blocks.flatMap Block.insts

def isTerminated (f : Func) : Bool := f.blocks.all (·.term?.isSome)

def signature (f : Func) : Ty := .func f.returns (f.params.map Param.type) f.isVariadic

/-- The name in messages. A number stands for an unnamed function, and a name that is a number is
quoted. -/
def displayName (f : Func) : String :=
  if f.name.isEmpty then toString f.number
  else match signed? f.name with
    | some i => "\"" ++ toString i ++ "\""
    | none => f.name

def ident (f : Func) : String := "@" ++ spelled f.name f.number

end Func

def Block.ident (b : Block) : String := "%" ++ spelled b.name b.number

def Block.displayName (b : Block) : String :=
  if b.name.isEmpty then toString b.number
  else match signed? b.name with
    | some i => "\"" ++ toString i ++ "\""
    | none => b.name

def Inst.ident (i : Inst) : String := "%" ++ spelled i.name i.number

def Param.ident (p : Param) : String := "%" ++ spelled p.name p.number

def Global.ident (g : Global) : String := "@" ++ spelledName g.name

namespace Module

def empty (sourceFile dataLayout triple : String) : Module :=
  ⟨sourceFile, dataLayout, triple, [], [], [], []⟩

variable (m : Module)

def func? (f : FuncId) : Option Func := m.funcs[f]?

def inst? (f : FuncId) (i : InstId) : Option Inst :=
  (m.func? f).bind fun func => func.insts.find? (·.id == i)

def modifyFunc (f : FuncId) (g : Func → Func) : Module := { m with funcs := m.funcs.modify f g }

def modifyRecord (r : RecordId) (g : Record → Record) : Module :=
  { m with records := m.records.modify r g }

/-- The operand text of a value; only a strange truth value has none. -/
def ident (v : Value) : Option String :=
  match v with
  | .param f i _ => some (((m.func? f).bind (·.params[i]?)).elim "" Param.ident)
  | .inst f i _ => some ((m.inst? f i).elim "" Inst.ident)
  | .func f _ => some ((m.func? f).elim "" Func.ident)
  | .const c => c.identWith fun g => (m.globals[g]?).elim "" Global.ident

def typeText (t : Ty) : String := t.text m.records

def valueText (v : Value) : Option String := do return m.typeText v.type ++ " " ++ (← m.ident v)

end Module

end CheckedIR.Ir

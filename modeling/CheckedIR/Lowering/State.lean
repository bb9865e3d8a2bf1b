import CheckedIR.Ir.Module
import CheckedIR.Layout.Sizes
import CheckedIR.Program.Walk
import CheckedIR.Scope.Action

/-!
# The state of lowering

Lowering builds one module. Its state holds the module, the environment, the tables that make every
record, function and string once, and the place where instructions are added. The state survives a
refused request.
-/

namespace CheckedIR.Lowering

open CheckedIR.Ir CheckedIR.Scope

structure Origin where
  declaration : Program.Node
  /-- The type of the values that the declaration describes, if it has been lowered. -/
  type? : Option Ty

abbrev Env := Environment Value Origin

structure Request where
  decl : Program.Place
  owner? : Option Program.TypeId

structure Frame where
  func : FuncId
  this? : Option Value
  isConstructor : Bool
  deriving DecidableEq, Repr

structure Cursor where
  func : FuncId
  block : Nat
  deriving DecidableEq, Repr

inductive LogLevel
  | warning
  | debug
  deriving DecidableEq, Repr

structure LogLine where
  level : LogLevel
  text : String
  deriving DecidableEq, Repr

/-- What lowering works on. The tables `objects`, `origins`, `calls`, `declared` and `literals` are
a record of what was done: steps add to them, and none reads them. -/
structure State where
  module : Module
  env : Env
  target : Layout.Target
  layouts : Layout.Known
  typeDefs : List (String × RecordId)
  objects : List (RecordId × Program.TypeId)
  funcs : List (String × FuncId)
  /-- The request that each emitted function was made for. -/
  origins : List (FuncId × Request)
  /-- The expression that each call of a declaration is emitted for, by the place of the
  instruction. -/
  calls : List ((FuncId × InstId) × Program.Expr)
  declared : List (FuncId × String × Value)
  strings : List (String × GlobalId)
  literals : List (String × Const)
  stringRecord? : Option RecordId
  locals : List ((FuncId × String) × Nat)
  /-- The results that have been given the name of a constant. -/
  named : List (FuncId × InstId)
  cursor : Cursor
  frame : Frame
  isFinished : Bool
  /-- Why no request can be met, if the configuration is wrong. -/
  configError? : Option Cause
  log : List LogLine

instance : HasEnvironment State Value Origin := ⟨State.env, fun s e => { s with env := e }⟩

abbrev Lower (α : Type) := Action State α

namespace Lower

variable {α : Type}

/-! ## Faults -/

def crash : Lower α := throw .crashed

def refuse (c : Cause) : Lower α := throw (.cause c)

def refuseAt (c : Cause) (s : Span) : Lower α := throw (.causeAt c s)

def orAt (s : Span) (body : Lower α) : Lower α := tryCatch body fun f => throw (f.orAt s)

def ofExcept : Except Fault α → Lower α
  | .ok a => pure a
  | .error f => throw f

def orCrash : Option α → Lower α
  | some a => pure a
  | none => crash

def answered : Option α → Lower α
  | some a => pure a
  | none => throw .exhausted

/-! ## Log -/

def debug (text : String) : Lower Unit :=
  modify fun s => { s with log := s.log ++ [⟨.debug, text⟩] }

def warn (text : String) : Lower Unit :=
  modify fun s => { s with log := s.log ++ [⟨.warning, text⟩] }

/-! ## The module -/

def modifyModule (f : Module → Module) : Lower Unit :=
  modify fun s => { s with module := f s.module }

def typeText (t : Ty) : Lower String := return (← get).module.typeText t

def newRecord (r : Record) : Lower RecordId := do
  let id := (← get).module.records.length
  modifyModule fun m => { m with records := m.records ++ [r] }
  return id

def defineRecord (r : Record) : Lower RecordId := do
  let id ← newRecord r
  modifyModule fun m => { m with typeDefs := m.typeDefs ++ [id] }
  return id

def newFunc (name : String) (returns : Ty) (params : List (String × Ty)) : Lower FuncId := do
  let id := (← get).module.funcs.length
  let func : Func := ⟨name, 0, returns, params.map fun (n, t) => ⟨n, 0, t⟩, false, []⟩
  modifyModule fun m => { m with funcs := m.funcs ++ [func] }
  return id

def func (f : FuncId) : Lower Func := do orCrash ((← get).module.func? f)

def funcValue (f : FuncId) : Lower Value := return .func f (.pointer (← func f).signature)

def newBlock (f : FuncId) (name : String) : Lower Nat := do
  let block := (← func f).blocks.length
  modifyModule (·.modifyFunc f fun g => { g with blocks := g.blocks ++ [⟨name, 0, [], none⟩] })
  return block

def modifyBlock (c : Cursor) (f : Block → Block) : Lower Unit :=
  modifyModule (·.modifyFunc c.func fun g => { g with blocks := g.blocks.modify c.block f })

def emit (op : Op) (t : Ty) : Lower Value := do
  let c := (← get).cursor
  let id := (← func c.func).insts.length
  modifyBlock c fun b => { b with insts := b.insts ++ [⟨id, "", 0, op⟩] }
  return .inst c.func id t

def terminate (t : Terminator) : Lower Unit := do
  modifyBlock (← get).cursor fun b => { b with term? := some t }

def isTerminated : Lower Bool := do
  let c := (← get).cursor
  return ((← func c.func).blocks[c.block]?).any (·.term?.isSome)

def entryFunc : FuncId := 0

/-- Moves the cursor to the end of the entry function, outside of any other function. -/
def moveToEntry : Lower Unit := do
  let blocks := (← func entryFunc).blocks.length
  modify fun s => { s with frame := ⟨entryFunc, none, false⟩, cursor := ⟨entryFunc, blocks - 1⟩ }

def keepingCursor (body : Lower α) : Lower α := fun s =>
  let (r, t) := body s
  (r, { t with cursor := s.cursor, frame := s.frame })

/-- A name for something inside a function; a name given before gets a count. -/
def localName (f : FuncId) (name : String) : Lower String := do
  let n := ((← get).locals.lookup (f, name)).getD 0
  modify fun s => { s with locals := ((f, name), n + 1) :: s.locals }
  return if n = 0 then name else name ++ "." ++ toString n

def renameInst (f : FuncId) (i : InstId) (name : String) : Lower Unit :=
  modifyModule (·.modifyFunc f fun g =>
    { g with blocks := g.blocks.map fun b =>
        { b with insts := b.insts.map fun inst =>
          if inst.id = i then { inst with name } else inst } })

def newSlot (name : String) (t : Ty) : Lower Value := do
  let f := (← get).frame.func
  let name ← localName f name
  -- Slots are in front, but are numbered by when they were made, like all instructions.
  let id := (← func f).insts.length
  modifyBlock ⟨f, 0⟩ fun b => { b with insts := ⟨id, name, 0, .alloca t⟩ :: b.insts }
  return .inst f id (.pointer t)

def call (f : FuncId) (args : List Value) : Lower Value := do
  emit (.call (← funcValue f) args) (← func f).returns

def noteCall (e : Program.Expr) (v : Value) : Lower Value := do
  match v with
  | .inst f i _ => modify fun s => { s with calls := s.calls ++ [((f, i), e)] }
  | .param .. | .func .. | .const _ => pure ()
  return v

def noteVariable (name : String) (v : Value) : Lower Unit :=
  modify fun s => { s with declared := s.declared ++ [(s.frame.func, name, v)] }

def store (v a : Value) : Lower Unit := do
  match a.type with
  | .pointer elem =>
    if ! elem.isMatch (← get).module.records v.type then crash
    discard (emit (.store v a) .void)
  | _ => crash

def fieldAddress (r : RecordId) (base : Value) (index : Nat) : Lower Value := do
  let t ← orCrash ((← get).module.records.get r).fields[index]?
  emit (.field (.record r) base index) (.pointer t)

end Lower

end CheckedIR.Lowering

import CheckedIR.Ir.Module

/-!
# The text of modules

Writes a module. Printing numbers the unnamed things first, so it gives back the module with its
numbers as well: functions among themselves, and within each defined function its parameters, blocks
and results in order. Something that already has another number than zero keeps it, and if that is
not its turn the module cannot be numbered. A block without a terminator and a call of something
that is no function have no text.
-/

namespace CheckedIR.Ir

/-! ## Numbers -/

abbrev Numbers := StateT Nat Option

def takeNumber (name : String) (number : Nat) : Numbers Nat :=
  if name.isEmpty then do
    let n ← get
    -- Zero also stands for a number that is still missing.
    if number != 0 && number != n then failure
    set (n + 1)
    return n
  else return number

/-- Numbers an instruction that yields a value. A call of something that is no function cannot be
numbered. -/
def Inst.numbered (i : Inst) : Numbers Inst :=
  match i.op with
  | .store .. => return i
  | .call callee _ =>
    match callee.signature? with
    | none => failure
    | some (.void, _, _) => return i
    | some _ => return { i with number := ← takeNumber i.name i.number }
  | _ => return { i with number := ← takeNumber i.name i.number }

def Block.numbered (b : Block) : Numbers Block := do
  let number ← takeNumber b.name b.number
  return { b with number, insts := ← b.insts.mapM Inst.numbered }

def Func.numbered (f : Func) : Option Func :=
  if f.blocks.isEmpty then some f
  else do
    let number : Numbers Func := do
      let params ← f.params.mapM fun p => return { p with number := ← takeNumber p.name p.number }
      return { f with params, blocks := ← f.blocks.mapM Block.numbered }
    return (← number.run 0).1

def Module.numbered (m : Module) : Option Module := do
  let named : Numbers (List Func) :=
    m.funcs.mapM fun f => return { f with number := ← takeNumber f.name f.number }
  let funcs ← (← named.run 0).1.mapM Func.numbered
  return { m with funcs }

/-! ## Texts -/

def Arith.text : Arith → String
  | .add => "fadd"
  | .sub => "fsub"
  | .mul => "fmul"
  | .div => "fdiv"
  | .rem => "frem"

def Comparison.text : Comparison → String
  | .eq => "oeq"
  | .ne => "one"
  | .lt => "olt"
  | .gt => "ogt"
  | .le => "ole"
  | .ge => "oge"

def Global.definition (g : Global) : String :=
  g.ident ++ " = private unnamed_addr constant [" ++ toString (g.text.utf8ByteSize + 1) ++
    " x i8] c\"" ++ escaped (g.text ++ "\x00") ++ "\""

namespace Module

variable (m : Module)

def opText : Op → Option String
  | .alloca t => some ("alloca " ++ m.typeText t)
  | .store v a => do return "store " ++ (← m.valueText v) ++ ", " ++ (← m.valueText a)
  | .load t a => do return "load " ++ m.typeText t ++ ", " ++ (← m.valueText a)
  | .arith op x y => do return op.text ++ " " ++ (← m.valueText x) ++ ", " ++ (← m.ident y)
  | .compare op x y => do
    return "fcmp " ++ op.text ++ " " ++ (← m.valueText x) ++ ", " ++ (← m.ident y)
  | .call callee args => do
    let (returns, params, isVariadic) ← callee.signature?
    let type := if isVariadic then Ty.func returns params isVariadic else returns
    let args ← args.mapM m.valueText
    return "call " ++ m.typeText type ++ " " ++ (← m.ident callee) ++ "(" ++
      ", ".intercalate args ++ ")"
  | .bitcast x t => do return "bitcast " ++ (← m.valueText x) ++ " to " ++ m.typeText t
  | .field t x i => do
    return "getelementptr " ++ m.typeText t ++ ", " ++ (← m.valueText x) ++ ", i32 0, i32 " ++
      (← intText 32 i)
  | .extract x i => do return "extractvalue " ++ (← m.valueText x) ++ ", " ++ toString i
  | .toFloat x t => do return "sitofp " ++ (← m.valueText x) ++ " to " ++ m.typeText t

def showsResult : Op → Bool
  | .store .. => false
  | .call callee _ => callee.signature?.all (·.1 != .void)
  | _ => true

def instText (i : Inst) : Option String := do
  let body ← m.opText i.op
  return if showsResult i.op then i.ident ++ " = " ++ body else body

def termText : Terminator → Option String
  | .ret none => some "ret void"
  | .ret (some v) => do return "ret " ++ (← m.valueText v)
  | .unreachable => some "unreachable"

def blockText (b : Block) : Option String := do
  let insts ← b.insts.mapM fun i => return "\t" ++ (← m.instText i) ++ "\n"
  let term ← m.termText (← b.term?)
  return spelled b.name b.number ++ ":\n" ++ String.join insts ++ "\t" ++ term

def paramText (p : Param) : String := m.typeText p.type ++ " " ++ p.ident

def funcText (f : Func) : Option String := do
  let head := m.typeText f.returns ++ " " ++ f.ident ++
    Ty.paramsText (f.params.map m.paramText) f.isVariadic
  if f.blocks.isEmpty then return "declare " ++ head
  let blocks ← f.blocks.mapM m.blockText
  return "define " ++ head ++ " \x7b\n" ++ "\n\n".intercalate blocks ++ "\n\x7d"

def typeDefText (r : RecordId) : String := m.records.text r ++ " = type " ++ m.records.body r

def headLines : List String :=
  [("source_filename", m.sourceFile), ("target datalayout", m.dataLayout),
      ("target triple", m.triple)].filterMap fun (key, value) =>
    if value.isEmpty then none else some (key ++ " = " ++ inQuotes value ++ "\n")

def numberedText : Option String := do
  let funcs ← m.funcs.mapM fun f => return (← m.funcText f) ++ "\n"
  let types := m.typeDefs.map fun r => m.typeDefText r ++ "\n"
  let globals := m.globals.map fun g => g.definition ++ "\n"
  let sections := [String.join m.headLines, String.join types, String.join globals,
    "\n".intercalate funcs]
  return "\n".intercalate (sections.filter (! ·.isEmpty))

def print : Option (String × Module) := do
  let m ← m.numbered
  return (← m.numberedText, m)

def printFunc (f : FuncId) : Option (String × Module) := do
  let func ← (← m.func? f).numbered
  let m := m.modifyFunc f fun _ => func
  return (← m.funcText func, m)

end Module

end CheckedIR.Ir

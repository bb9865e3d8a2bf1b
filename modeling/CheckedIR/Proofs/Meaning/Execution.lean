import CheckedIR.Lowering.State
import CheckedIR.Proofs.Ir.Growth

/-!
# Running straight-line modules

A call runs on words: data, addresses of cells, and functions. Every stack slot is a fresh cell,
loads and stores reach the cells, and a call goes to the function that its operand is. What numbers
are and how they are computed with is left open. Calls that nest too deep exhaust the run, and
whatever is not about numbers and truth values cannot be run.
-/

namespace CheckedIR.Meaning

open CheckedIR.Ir

/-- What doubles stand for, and what is done with them. -/
structure Arithmetic (F : Type) where
  ofDouble : Double → F
  arith : Arith → F → F → F
  compare : Comparison → F → F → Bool

inductive Datum (F : Type)
  | num (x : F)
  | truth (b : Bool)
  | nothing
  /-- A function; which one does not matter, since nothing is done with it. -/
  | function
  deriving DecidableEq

inductive Halt
  | exhausted
  /-- A name is used that stands for nothing. -/
  | unbound
  | illTyped
  deriving DecidableEq

inductive Word (F : Type)
  | datum (d : Datum F)
  | address (a : Nat)
  | func (g : FuncId)
  deriving DecidableEq

abbrev Memory (F : Type) := List (Option (Word F))

abbrev Registers (F : Type) := InstId → Option (Word F)

structure Machine (F : Type) where
  regs : Registers F
  mem : Memory F

abbrev Calling (F : Type) := FuncId → List (Word F) → Memory F → Except Halt (Word F × Memory F)

variable {F : Type} (N : Arithmetic F)

def orIllTyped {α : Type} : Option α → Except Halt α
  | some a => .ok a
  | none => .error .illTyped

def constant? : Const → Option (Datum F)
  | .double x => some (.num (N.ofDouble x))
  | .int bits i => if bits = 1 then some (.truth (i != 0)) else none
  | .text .. | .undef _ => none

def operand? (f : FuncId) (args : List (Word F)) (regs : Registers F) : Value → Option (Word F)
  | .param g i _ => if g = f then args[i]? else none
  | .inst g i _ => if g = f then regs i else none
  | .func g _ => some (.func g)
  | .const c => (constant? N c).map .datum

namespace Word

def num? : Word F → Option F
  | .datum (.num x) => some x
  | _ => none

def address? : Word F → Option Nat
  | .address a => some a
  | _ => none

def func? : Word F → Option FuncId
  | .func g => some g
  | _ => none

end Word

def Registers.set (regs : Registers F) (k : InstId) (w : Word F) : Registers F :=
  fun i => if i = k then some w else regs i

def step (call : Calling F) (f : FuncId) (args : List (Word F)) (t : Machine F) :
    InstId × Op → Except Halt (Machine F)
  | (k, .alloca _) => .ok ⟨t.regs.set k (.address t.mem.length), t.mem ++ [none]⟩
  | (_, .store v a) => do
    let w ← orIllTyped (operand? N f args t.regs v)
    let i ← orIllTyped ((operand? N f args t.regs a).bind Word.address?)
    if i < t.mem.length then .ok ⟨t.regs, t.mem.set i (some w)⟩ else .error .illTyped
  | (k, .load _ a) => do
    let i ← orIllTyped ((operand? N f args t.regs a).bind Word.address?)
    let w ← orIllTyped t.mem[i]?.join
    .ok ⟨t.regs.set k w, t.mem⟩
  | (k, .arith op x y) => do
    let x ← orIllTyped ((operand? N f args t.regs x).bind Word.num?)
    let y ← orIllTyped ((operand? N f args t.regs y).bind Word.num?)
    .ok ⟨t.regs.set k (.datum (.num (N.arith op x y))), t.mem⟩
  | (k, .compare op x y) => do
    let x ← orIllTyped ((operand? N f args t.regs x).bind Word.num?)
    let y ← orIllTyped ((operand? N f args t.regs y).bind Word.num?)
    .ok ⟨t.regs.set k (.datum (.truth (N.compare op x y))), t.mem⟩
  | (k, .call callee vs) => do
    let g ← orIllTyped ((operand? N f args t.regs callee).bind Word.func?)
    let ws ← orIllTyped (vs.mapM (operand? N f args t.regs))
    let (w, mem) ← call g ws t.mem
    .ok ⟨t.regs.set k w, mem⟩
  | (_, .bitcast ..) | (_, .field ..) | (_, .extract ..) | (_, .toFloat ..) => .error .illTyped

def run (call : Calling F) (f : FuncId) (args : List (Word F)) (code : List (InstId × Op))
    (t : Machine F) : Except Halt (Machine F) := code.foldlM (step N call f args) t

def leave (f : FuncId) (args : List (Word F)) (t : Machine F) :
    Option Terminator → Except Halt (Word F × Memory F)
  | some (.ret none) => .ok (.datum .nothing, t.mem)
  | some (.ret (some v)) => do return (← orIllTyped (operand? N f args t.regs v), t.mem)
  | some .unreachable | none => .error .illTyped

def body? (m : Module) (f : FuncId) : Option Block :=
  match (m.func? f).map Func.blocks with
  | some [b] => some b
  | _ => none

/-- The datum that a word of a type leads to, through the cells that it points at. -/
def Word.read (mem : Memory F) : Ty → Word F → Option (Datum F)
  | .pointer t, .address a => mem[a]?.join.bind (Word.read mem t)
  | _, .address _ => none
  | _, .datum d => some d
  | _, .func _ => some .function

def Machine.value? (t : Machine F) (v : Value) : Option (Datum F) :=
  (operand? N Lowering.Lower.entryFunc [] t.regs v).bind (Word.read t.mem v.type)

end CheckedIR.Meaning

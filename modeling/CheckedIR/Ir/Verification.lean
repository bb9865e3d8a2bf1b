import CheckedIR.Diagnostic
import CheckedIR.Ir.Printing

/-!
# Verification

What a well-formed function has to satisfy: every block ends with a terminator; stores, loads and
calls fit the types of their operands; parameters and results are used only in the function they
belong to; and what is returned has the type the function returns. Declarations have nothing to
check. Blocks are checked in order, and in each block the instructions before the terminator; the
first defect is the answer.
-/

namespace CheckedIR.Ir

inductive Defect
  | storeToNonPointer (address : Ty)
  | storeMismatch (value address : Ty)
  | loadFromNonPointer (address : Ty)
  | loadMismatch (elem address : Ty)
  | callOfNonPointer (callee : Ty)
  | callOfNonFunction (callee : Ty)
  | argumentCount (callee : Value) (got want : Nat)
  | argumentType (index : Nat) (callee : Value) (got want : Ty)
  | foreignOperand (v : Value)
  | valueFromVoid (got : Ty)
  | voidFromValue (want : Ty)
  | returnMismatch (got want : Ty)
  deriving DecidableEq, Repr

inductive Rejection
  | unterminated (block : String)
  | defective (block : String) (d : Defect)
  deriving DecidableEq, Repr

/-- Whether a value is at hand in a function, the one with number `f`: it is one of its parameters
or the result of an instruction in one of its blocks, or belongs to no function. -/
def Func.hasLocal (func : Func) (f : FuncId) : Value → Bool
  | .param g i _ => g == f && i < func.params.length
  | .inst g id _ => g == f && func.insts.any (·.id == id)
  | .func .. | .const _ => true

namespace Module

variable (m : Module)

def isMatch (t u : Ty) : Bool := t.isMatch m.records u

def storeDefect? (v a : Value) : Option Defect :=
  match a.type with
  | .pointer elem =>
    if m.isMatch elem v.type then none else some (.storeMismatch v.type a.type)
  | t => some (.storeToNonPointer t)

def loadDefect? (elem : Ty) (a : Value) : Option Defect :=
  match a.type with
  | .pointer t => if m.isMatch t elem then none else some (.loadMismatch elem a.type)
  | t => some (.loadFromNonPointer t)

/-- The first argument, counted from `i`, that does not have the type of its parameter. -/
def argumentDefect? (callee : Value) : Nat → List Ty → List Value → Option Defect
  | i, t :: ts, v :: vs =>
    if m.isMatch v.type t then argumentDefect? callee (i + 1) ts vs
    else some (.argumentType i callee v.type t)
  | _, _, _ => none

def callDefect? (callee : Value) (args : List Value) : Option Defect :=
  match callee.type with
  | .pointer (.func _ params isVariadic) =>
    if args.length = params.length ∨ (isVariadic ∧ params.length < args.length) then
      m.argumentDefect? callee 0 params args
    else some (.argumentCount callee args.length params.length)
  | .pointer _ => some (.callOfNonFunction callee.type)
  | t => some (.callOfNonPointer t)

def opDefect? : Op → Option Defect
  | .store v a => m.storeDefect? v a
  | .load elem a => m.loadDefect? elem a
  | .call callee args => m.callDefect? callee args
  | _ => none

def operandDefect? (f : FuncId) (func : Func) (vs : List Value) : Option Defect :=
  (vs.find? fun v => ! func.hasLocal f v).map .foreignOperand

def returnDefect? (returns : Ty) : Terminator → Option Defect
  | .unreachable => none
  | .ret v =>
    match m.isMatch returns .void, v with
    | true, none => none
    | true, some v => some (.valueFromVoid v.type)
    | false, none => some (.voidFromValue returns)
    | false, some v => if m.isMatch v.type returns then none
      else some (.returnMismatch v.type returns)

def instsDefect? (f : FuncId) (func : Func) : List Inst → Option Defect
  | [] => none
  | i :: rest =>
    m.opDefect? i.op <|> operandDefect? f func i.op.operands <|> instsDefect? f func rest

def blockRejection? (f : FuncId) (func : Func) (b : Block) : Option Rejection :=
  match b.term? with
  | none => some (.unterminated b.ident)
  | some t =>
    (m.instsDefect? f func b.insts <|> operandDefect? f func t.operands <|>
      m.returnDefect? func.returns t).map (.defective b.ident)

def funcRejection? (f : FuncId) : Option Rejection :=
  (m.func? f).bind fun func => func.blocks.findSome? (m.blockRejection? f func)

def rejection? : Option (FuncId × Rejection) :=
  (List.range m.funcs.length).findSome? fun f => (m.funcRejection? f).map fun r => (f, r)

def isTerminated : Bool := m.funcs.all Func.isTerminated

/-! ## Messages -/

def defectText : Defect → String
  | .storeToNonPointer a => "store to non-pointer " ++ m.typeText a
  | .storeMismatch v a => "store of " ++ m.typeText v ++ " to " ++ m.typeText a
  | .loadFromNonPointer a => "load from non-pointer " ++ m.typeText a
  | .loadMismatch elem a => "load of " ++ m.typeText elem ++ " from " ++ m.typeText a
  | .callOfNonPointer t => "call of non-pointer " ++ m.typeText t
  | .callOfNonFunction t => "call of non-function " ++ m.typeText t
  | .argumentCount callee got want =>
    "call of " ++ (m.ident callee).getD "" ++ " with " ++ toString got ++ " arguments, want " ++
      toString want
  | .argumentType i callee got want =>
    "argument " ++ toString i ++ " of " ++ (m.ident callee).getD "" ++ " has type " ++
      m.typeText got ++ ", want " ++ m.typeText want
  | .foreignOperand v => "use of " ++ (m.ident v).getD "" ++ " defined in another function"
  | .valueFromVoid got => "ret " ++ m.typeText got ++ " in void function"
  | .voidFromValue want => "ret void in function returning " ++ m.typeText want
  | .returnMismatch got want =>
    "ret " ++ m.typeText got ++ " in function returning " ++ m.typeText want

def rejectionText : Rejection → String
  | .unterminated b => "block " ++ b ++ " has no terminator"
  | .defective b d => "block " ++ b ++ ": " ++ m.defectText d

/-- Refuses a module with a rejected function. The refusal shows the module if it can be written,
which numbers it. -/
def verify : Except Fault Unit × Module :=
  match m.rejection? with
  | none => (.ok (), m)
  | some (f, r) =>
    let refusal (printed : Module) (detail : String) : Except Fault Unit :=
      -- A function without a name is called by its number, so printing comes first.
      let name := (printed.func? f).elim "" Func.displayName
      .error (.refused (.diagnosed
        ⟨.invalidModule (name ++ ": " ++ m.rejectionText r), Span.none, detail, ""⟩))
    if m.isTerminated then
      match m.print with
      | some (text, printed) => (refusal printed text, printed)
      | none => (.error .crashed, m)
    else (refusal m "", m)

end Module

end CheckedIR.Ir

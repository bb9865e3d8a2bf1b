import CheckedIR.Lowering.Values

/-!
# Lowering expressions

An expression lowers to a value or to the address of one; operands are loaded. A call emits the
function it calls on first use, which is why lowering takes a way to emit functions. The first
thing that cannot be lowered is the answer, and instructions that were added before it stay.
-/

namespace CheckedIR.Lowering

open CheckedIR.Ir CheckedIR.Program

abbrev Emitter := Place → Option TypeId → List (Option TypeId) → Lower FuncId

def comparison? : String → Option Comparison
  | "==" | "===" => some .eq
  | "!=" | "!==" => some .ne
  | "<" => some .lt
  | ">" => some .gt
  | "<=" => some .le
  | ">=" => some .ge
  | _ => none

/-- The arithmetic that an operator means; addition also joins strings and stands apart. -/
def arith? : String → Option Arith
  | "-" => some .sub
  | "*" => some .mul
  | "/" => some .div
  | "%" => some .rem
  | _ => none

namespace Lower

def plus (s : Span) (l r : Value) : Lower Value := do
  if l.type.isDouble && r.type.isDouble then emit (.arith .add l r) .double
  else if (← isString l.type) && (← isString r.type) then
    call (← builtin Builtin.stringConcat.name) [l, r]
  else refuseAt (.invalidOperands "+" (← typeText l.type) (← typeText r.type)) s

def binary (operator : String) (s : Span) (l r : Value) : Lower Value := do
  if operator = "+" then plus s l r
  else
    let checked (op : Op) (t : Ty) : Lower Value := do
      if l.type.isDouble && r.type.isDouble then emit op t
      else refuseAt (.invalidOperands operator (← typeText l.type) (← typeText r.type)) s
    match comparison? operator, arith? operator with
    | some c, _ => checked (.compare c l r) .i1
    | none, some a => checked (.arith a l r) .double
    | none, none => refuseAt (.unsupportedOperator operator) s

def scopeMember (s : Span) (scope : Scope.ScopeId) (name : String) (source : Option String) :
    Lower Value :=
  orAt s do
    match ← Scope.Action.ofCause ((← get).env.getIn scope name) with
    | .scope _ => refuse (.unsupportedSyntax "namespace reference" (← orCrash source))
    | .value v => localValue (← orCrash source) v
    | .empty => crash

def valueMember (p : Program) (s : Span) (owner : TypeId) (v : Value) (name : String) :
    Lower Value := do
  if (← isString v.type) && name == "length" then
    let n ← emit (.extract v 1) .i32
    emit (.toFloat n .double) .double
  else
    let unknown {α : Type} : Lower α := do
      refuseAt (.unknownMember name (← answered (p.typeText owner))) s
    match v.type with
    | .pointer (.record r) =>
      if ((← get).module.records.get r).isOpaque then unknown
      else match p.fieldIndex? owner name with
        | none => unknown
        | some i => fieldAddress r v i
    | _ => unknown

def constructorOf (p : Program) (s : Span) (callee : Expr) : Lower Place := do
  let notClass : Lower Place := do refuseAt (.notClass (← answered (p.typeText callee.type))) s
  match callee.info.symbol?.bind p.declaration? with
  | none => notClass
  | some d =>
    match d.node with
    | .stmt (.classDecl _ name _ _ members) =>
      match members.find? fun m => m.kind == .constructor with
      | some m => return d.down (.member m)
      | none => refuseAt (.missingConstructor name) s
    | _ => notClass

def calledFunction (p : Program) (s : Span) (callee : Expr) : Lower Place := do
  match callee.info.symbol?.bind p.declaration? with
  | some d =>
    if d.node.functionLike?.isSome then return d
    else refuseAt (.invalidCallTarget (← orCrash callee.source)) s
  | none => refuseAt (.invalidCallTarget (← orCrash callee.source)) s

def receiver? (p : Program) (callee : Expr) : Option Expr :=
  match callee with
  | .member i object _ =>
    if i.symbol?.any fun s => (p.symbolInfo s).has .method then some object else none
  | _ => none

mutual

def lvalue [v : Viewpoint] (p : Program) (emitFunction : Emitter) : Expr → Lower Value
  | .missing => crash
  | .numeric _ x => return .const (.double x)
  | .boolean _ b => return .const (.int 1 (if b then 1 else 0))
  | .text _ s => return .const (← stringConstant s)
  | .ident i name => lookupValue name i.span
  | .this i => lookupValue "this" i.span
  | .binary i operator l r => do
    if operator = "=" then refuseAt .assignment i.span
    let l ← loaded (← lvalue p emitFunction l)
    let r ← loaded (← lvalue p emitFunction r)
    binary operator i.span l r
  | .unary i operator x => do
    if operator ≠ "+" then refuseAt (.unsupportedOperator operator) i.span
    loaded (← lvalue p emitFunction x)
  | .member i object name => do
    match ← scopeOf? object with
    | some scope => scopeMember i.span scope name (Expr.member i object name).source
    | none =>
      if i.symbol?.any fun s => (p.symbolInfo s).has .method then
        refuseAt (.unboundMethodAccess (← orCrash (Expr.member i object name).source)) i.span
      let v ← loaded (← lvalue p emitFunction object)
      valueMember p i.span object.type v name
  | .construct i callee args => do
    let d ← constructorOf p i.span callee
    let type := (Expr.construct i callee args).type
    let f ← keepingCursor (emitFunction d (some type) (args.map (some ·.type)))
    noteCall (.construct i callee args) (← call f (← rvalues p emitFunction args))
  | .call i callee args => do
    let d ← calledFunction p i.span callee
    -- The function is emitted first; then come the receiver and the arguments.
    let owner := (receiver? p callee).map Expr.type
    let f ← keepingCursor (emitFunction d owner (args.map (some ·.type)))
    match receiver? p callee, callee with
    | some _, .member _ object _ =>
      let v ← loaded (← lvalue p emitFunction object)
      noteCall (.call i callee args) (← call f (v :: (← rvalues p emitFunction args)))
    | _, _ => noteCall (.call i callee args) (← call f (← rvalues p emitFunction args))
  | .unknown i name => do
    refuseAt (.unsupportedSyntax Kind.unknown.name (← orCrash (Expr.unknown i name).source)) i.span

def rvalues [v : Viewpoint] (p : Program) (emitFunction : Emitter) : List Expr → Lower (List Value)
  | [] => return []
  | e :: rest => do
    let v ← loaded (← lvalue p emitFunction e)
    return v :: (← rvalues p emitFunction rest)

end

def rvalue [v : Viewpoint] (p : Program) (emitFunction : Emitter) (e : Expr) : Lower Value := do
  loaded (← lvalue p emitFunction e)

end Lower

end CheckedIR.Lowering

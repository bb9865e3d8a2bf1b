import CheckedIR.Lowering.Expressions
import CheckedIR.Lowering.Scopes

/-!
# Lowering statements

Statements lower in order into a scope. Constants are bound to the value itself, variables to a
stack slot at the front of their function. Functions wait until they are called; classes, interfaces
and namespaces bind their scopes. Nothing follows a terminator, except at the top level.
-/

namespace CheckedIR.Lowering

open CheckedIR.Ir CheckedIR.Program CheckedIR.Scope

namespace Lower

def declareVariable [v : Viewpoint] (p : Program) (emitFunction : Emitter) (isConst : Bool)
    (scope : ScopeId) (d : Variable) : Lower Unit := do
  match d.initializer? with
  | none =>
    refuseAt (.unsupportedSyntax "declaration without initializer" (← orCrash d.source)) d.info.span
  | some e =>
    let v ← rvalue p emitFunction e
    if isConst then
      -- The result has its name even if the variable cannot be bound to it.
      nameResult v d.name
      orAt d.info.span (Action.bindName scope d.name (.value v))
      noteVariable d.name v
    else
      let slot ← newSlot d.name v.type
      store v slot
      orAt d.info.span (Action.bindName scope d.name (.value slot))
      noteVariable d.name slot

/-- Ends the current function. A constructor without a value returns its object. -/
def returnFrom [v : Viewpoint] (p : Program) (emitFunction : Emitter) (i : NodeInfo)
    (e : Option Expr) : Lower Unit := do
  let frame := (← get).frame
  if frame.func = entryFunc then
    refuseAt (.unsupportedSyntax "top-level return" (← orCrash (Stmt.ret i e).source)) i.span
  match e with
  | some e => terminate (.ret (some (← rvalue p emitFunction e)))
  | none => terminate (.ret (if frame.isConstructor then frame.this? else none))

def namespaceOf (decl : Node) (name : String) (container : ScopeId) : Lower ScopeId := do
  match ← lookupIn container name with
  | some (.scope s) => return s
  -- Where the name stands for a value, binding it again is refused.
  | _ => bindNewScope container name ⟨decl, none⟩

mutual

/-- Lowers one statement into a scope. Statements at the top level go to the entry function. -/
def statement [v : Viewpoint] (p : Program) (emitFunction : Emitter) (scope : ScopeId) :
    Stmt → Lower Outcome
  | .endOfFile _ | .function .. => return .skipped
  | .classDecl i name params isAmbient members => do
    if ! params.isEmpty then
      debug ("deferring generic class " ++ name)
      return .skipped
    let decl := Node.stmt (.classDecl i name params isAmbient members)
    classScope p decl isAmbient decl.type scope
  | .interfaceDecl i name params members => do
    interfaceScope (.stmt (.interfaceDecl i name params members)) name scope
    return .lowered
  | .namespaceDecl i name isAmbient body => do
    let ns ← namespaceOf (.stmt (.namespaceDecl i name isAmbient body)) name scope
    Action.enter ns <|
      statements (v := v.enter (.namespaceDecl i name isAmbient body) ns) p emitFunction ns body
    return .lowered
  | .variableDecl _ isConst ds => do
    if scope = Environment.global then moveToEntry
    ds.forM (declareVariable p emitFunction isConst scope)
    return .lowered
  | .expression _ e => do
    if scope = Environment.global then moveToEntry
    discard (lvalue p emitFunction e)
    return .lowered
  | .block (.mk i ss) => do
    if scope = Environment.global then moveToEntry
    Action.withScope "" fun inner =>
      statements (v := v.enter (.block (.mk i ss)) inner) p emitFunction inner ss
    return .lowered
  | .ret i e => do
    if scope = Environment.global then moveToEntry
    returnFrom p emitFunction i e
    return .lowered
  | .ifElse .. | .whileLoop .. => do
    if scope = Environment.global then moveToEntry
    return .unsupported
  | .unknown .. => return .unsupported

def statements [v : Viewpoint] (p : Program) (emitFunction : Emitter) (scope : ScopeId) :
    List Stmt → Lower Unit
  | [] => return
  | s :: rest => do
    if (← isTerminated) && (← get).frame.func ≠ entryFunc then
      debug (s.info.span.start.text ++ ": dropping " ++ toString (rest.length + 1) ++
        " unreachable statements")
      return
    let outcome ← statement p emitFunction scope s
    if outcome = .unsupported then
      warn (s.info.span.start.text ++ ": unhandled " ++ s.kind.name ++ ": " ++ (← orCrash s.source))
    statements p emitFunction scope rest

end

end Lower

end CheckedIR.Lowering

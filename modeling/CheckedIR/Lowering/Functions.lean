import CheckedIR.Ir.Verification
import CheckedIR.Lowering.Statements

/-!
# Emitting functions

A function-like declaration is emitted once for each mangled name, when it is first called. Its
parameters have the types of the arguments of that call. The body is lowered with only the global
scope and the namespaces around the declaration active, and the finished function is verified. A
constructor allocates its object, fills it from parameters and initializers, and returns it.
-/

namespace CheckedIR.Lowering

open CheckedIR.Ir CheckedIR.Program CheckedIR.Scope

structure Emission where
  decl : Place
  function : FunctionLike
  owner? : Option TypeId
  name : String
  receiver? : Option Ty
  names : List String

namespace Lower

variable (p : Program)

def returnType (decl : Node) (shape : FunctionShape) (signature : Signature)
    (owner? : Option TypeId) (receiver? : Option Ty) : Lower Ty := do
  match shape with
  | .constructor => return .pointer (← orCrash receiver?)
  | .indexSignature =>
    match owner?.bind fun owner => (p.typeInfo owner).index? with
    | some elem => return .pointer (← type p (some elem))
    | none =>
      refuseAt (.unsupportedType (← answered (p.typeText (← orCrash owner?)))) decl.info.span
  | .property => type p (some decl.type)
  | .free | .method | .methodSignature => type p (some signature.returns)

/-- Values are received as they are and objects by their address. -/
def receiverType (t : Ty) : Lower Ty := return if ← isValueType t then t else .pointer t

def receiverParam (decl : Place) (shape : FunctionShape) (receiver? : Option Ty) :
    Lower (List Ty) := do
  if ! shape.takesReceiver then return []
  match receiver? with
  | some t => return [← receiverType t]
  | none => refuseAt (.missingOwner (← orCrash decl.node.source)) decl.node.info.span

def storeProperty (owner : TypeId) (r : RecordId) (this : Value) (name : String) (v : Value) :
    Lower Unit := do
  match p.fieldIndex? owner name with
  | none => refuse (.unknownMember name (← answered (p.typeText owner)))
  | some i => store v (← fieldAddress r this i)

def storeParams (f : FuncId) (owner : TypeId) (r : RecordId) (this : Value) :
    Nat → List Program.Param → Lower Unit
  | _, [] => return
  | index, q :: rest => do
    if q.isProperty then
      match (← func f).params[index]? with
      | some param => storeProperty p owner r this q.name (.param f index param.type)
      -- A call with fewer arguments leaves the last properties without a value.
      | none => pure ()
    storeParams f owner r this (index + 1) rest

def storeInitializers [v : Viewpoint] (emitFunction : Emitter) (owner : TypeId) (r : RecordId)
    (this : Value) : List Member → Lower Unit
  | [] => return
  | .property _ name _ (some e) :: rest => do
    storeProperty p owner r this name (← rvalue p emitFunction e)
    storeInitializers emitFunction owner r this rest
  | _ :: rest => storeInitializers emitFunction owner r this rest

/-- Allocates and fills the object of a constructor. -/
def constructObject [v : Viewpoint] (emitFunction : Emitter) (e : Emission) (f : FuncId)
    (scope : ScopeId) : Lower Unit := do
  let t ← orCrash e.receiver?
  let owner ← orCrash e.owner?
  let this ← allocate t
  modify fun s => { s with frame := { s.frame with this? := some this } }
  Action.bindName scope "this" (.value this)
  match t with
  | .record r =>
    storeParams p f owner r this 0 e.function.params
    match e.decl.parent? with
    | some (.stmt (.classDecl _ _ _ _ members)) =>
      storeInitializers p emitFunction owner r this members
    | _ => pure ()
  | _ => crash

def bindParams (f : FuncId) (scope : ScopeId) : Nat → List String → List Ir.Param → Lower Unit
  | index, name :: names, param :: params => do
    if ! name.isEmpty then
      Action.bindName scope name (.value (.param f index param.type))
      discard (localName f name)
    bindParams f scope (index + 1) names params
  | _, _, _ => return

def emitBody [v : Viewpoint] (emitFunction : Emitter) (e : Emission) (f : FuncId)
    (body : Program.Block) (scope : ScopeId) : Lower Unit := do
  bindParams f scope 0 e.names (← func f).params
  let block ← newBlock f "entry"
  let isConstructor := e.function.shape = .constructor
  modify fun s => { s with cursor := ⟨f, block⟩, frame := ⟨f, none, isConstructor⟩ }
  if isConstructor then constructObject p emitFunction e f scope
  else if e.function.shape.takesReceiver then
    let param ← orCrash (← func f).params[0]?
    modify fun s => { s with frame := { s.frame with this? := some (.param f 0 param.type) } }
  statements p emitFunction scope body.statements
  if ! (← isTerminated) then
    if isConstructor then terminate (.ret (← get).frame.this?)
    else if (← func f).returns.isMatch (← get).module.records .void then terminate (.ret none)
    -- A function that owes a value does not end without one.
    else terminate .unreachable

def verifyFunc (e : Emission) (f : FuncId) : Lower Unit := do
  let m := (← get).module
  match m.funcRejection? f with
  | none => return
  | some r =>
    let reason := m.rejectionText r
    let detail ←
      if (← func f).isTerminated then do
        let (text, m) ← orCrash (m.printFunc f)
        -- Showing the function has numbered it, and the numbers stay.
        modify fun s => { s with module := m }
        pure text
      else pure ""
    throw (.refused (.diagnosed
      ⟨.invalidFunction e.name reason, e.decl.node.info.span, detail, ""⟩))

def defineFunc [v : Viewpoint] (emitFunction : Emitter) (e : Emission) (returns : Ty)
    (params : List Ty) : Lower FuncId := do
  -- The arguments decide how many parameters there are; those beyond the declared ones have no
  -- name.
  let names := e.names.take params.length ++ List.replicate (params.length - e.names.length) ""
  let f ← newFunc e.name returns (names.zip params)
  -- The table has the function before its body is lowered, so that a call inside finds it.
  modify fun s =>
    { s with funcs := s.funcs ++ [(e.name, f)], origins := s.origins ++ [(f, ⟨e.decl, e.owner?⟩)] }
  debug ("emitting " ++ e.name)
  match e.function.body? with
  | none => pure ()
  | some body =>
    Action.detached <| insideNamespaces e.decl.namespacePath <|
      Action.withScope e.name fun scope =>
        emitBody (v := v.body e.decl scope) p emitFunction e f body scope
    verifyFunc e f
  return f

def emitNew [v : Viewpoint] (emitFunction : Emitter) (decl : Place) (function : FunctionLike)
    (owner? : Option TypeId) (args : List (Option TypeId)) (name : String) (parent : ScopeId) :
    Lower FuncId := do
  let receiver? ← owner?.mapM (receiverRecord p parent)
  let signature := p.signature decl.node function
  let returns ← returnType p decl.node function.shape signature owner? receiver?
  let receiver ← receiverParam decl function.shape receiver?
  let params := receiver ++ (← args.mapM (type p))
  let names := (if function.shape.takesReceiver then ["this"] else []) ++
    signature.params.map SymbolInfo.name
  defineFunc p emitFunction ⟨decl, function, owner?, name, receiver?, names⟩ returns params

/-- The function of a declaration, where emissions nest less than `depth` deep. -/
def emitTo [v : Viewpoint] : Nat → Emitter
  | 0, _, _, _ => throw .exhausted
  | depth + 1, decl, owner?, args => do
    match decl.node.functionLike? with
    | none => refuseAt (.invalidCallTarget decl.node.kind.name) decl.node.info.span
    | some function =>
      let name ← ofExcept (p.mangledFunction decl owner?)
      match (← get).funcs.lookup name with
      | some f => return f
      | none =>
        let parent ← declaringScope p decl owner?
        let f ←
          if (Builtin.find? name).isSome && function.body?.isNone then builtin name
          else emitNew p (emitTo depth) decl function owner? args name parent
        -- A function whose emission failed is in the table already, but its name stands for
        -- nothing.
        let base ← orCrash decl.node.baseName
        Action.bindName parent base (.value (← funcValue f))
        return f

/-- A bound on nested emissions: each is for another declaration or another owner. The owner is a
type of the program, or one that it does not know, or there is none. -/
def emissionBound : Nat := p.places.length * (p.types.length + 2) + 1

def emitFunction [v : Viewpoint] : Emitter := emitTo p (emissionBound p)

end Lower

end CheckedIR.Lowering

import CheckedIR.Lowering.Types

/-!
# Scopes of declarations

The scopes that classes, interfaces and namespaces get, and the scope that a function is bound in:
the global scope, the scope of its namespace, or the scope of the concrete type that owns it.
Generic classes get a scope for each list of type arguments, when they are first used with it.
-/

namespace CheckedIR.Lowering

open CheckedIR.Ir CheckedIR.Program CheckedIR.Scope

inductive Outcome
  | lowered
  /-- The statement is lowered on demand or means nothing. -/
  | skipped
  /-- The statement cannot be lowered; it is reported and left out. -/
  | unsupported
  deriving DecidableEq, Repr

namespace Outcome

def text : Outcome → String
  | .lowered => "lowered"
  | .skipped => "skipped"
  | .unsupported => "unsupported"

def ofNumber (i : Int) : Outcome :=
  if i = 0 then .lowered else if i = 1 then .skipped else .unsupported

end Outcome

namespace Lower

def lookupIn (s : ScopeId) (name : String) : Lower (Option (Binding Value)) :=
  return (← get).env.lookupIn s name

def bindNewScope (container : ScopeId) (name : String) (origin : Origin) : Lower ScopeId := do
  let s ← Action.createScope name (some origin)
  Action.bindName container name (.scope s)
  return s

/-! ## Classes and interfaces -/

/-- Binds the scope of a class for one owner type, unless the container has it. -/
def classScope (p : Program) (decl : Node) (isAmbient : Bool) (owner : TypeId)
    (container : ScopeId) : Lower Outcome := do
  let name ← answered (p.mangledType owner)
  if (← lookupIn container name).isSome then return .skipped
  -- A class whose record is refused gets no scope.
  let r ← record p owner isAmbient
  discard (bindNewScope container name ⟨decl, some (.record r)⟩)
  return .lowered

/-- Binds the scope of an interface, unless the container has it. The string interface also binds
the scope of the methods of strings. -/
def interfaceScope (decl : Node) (name : String) (container : ScopeId) : Lower Unit := do
  if (← lookupIn container name).isSome then return
  discard (bindNewScope container name ⟨decl, none⟩)
  if name == "String" && (← lookupIn container stringRecordName).isNone then
    let r ← stringRecord
    discard (bindNewScope container stringRecordName ⟨decl, some (.record r)⟩)

/-! ## Where functions are declared -/

def namespaceScope : List String → Lower ScopeId
  | [] => return Environment.global
  -- The search starts in the scopes that are active here, so a nearer name can be found first.
  | path => do Action.ofCause ((← get).env.getScope (".".intercalate path))

def ownerScope (p : Program) (decl : Place) (owner : TypeId) : Lower ScopeId := do
  let container ← namespaceScope decl.namespacePath
  let name ← answered (p.mangledType owner)
  let span := decl.node.info.span
  match ← lookupIn container name with
  | some (.scope s) => return s
  | some _ => refuseAt (.notNamespace name) span
  | none =>
    match decl.node with
    | .stmt (.classDecl _ _ _ isAmbient _) =>
      discard (classScope p decl.node isAmbient owner container)
    -- An interface is bound under its own name, which need not be the one that is asked for.
    | .stmt (.interfaceDecl _ interface _ _) => interfaceScope decl.node interface container
    | _ => pure ()
    match ← lookupIn container name with
    | some (.scope s) => return s
    | _ => refuseAt (.unknownIdentifier name) span

def declaringScope (p : Program) (decl : Place) (owner : Option TypeId) : Lower ScopeId := do
  let span := decl.node.info.span
  match decl.ancestors with
  | [] => refuseAt (.unhandledContext "<detached>") span
  | parent :: around =>
    match parent with
    | .file _ => return Environment.global
    | .stmt (.namespaceDecl ..) => namespaceScope decl.namespacePath
    | .stmt (.classDecl ..) | .stmt (.interfaceDecl ..) =>
      match owner with
      | some owner => ownerScope p ⟨parent, around⟩ owner
      | none => refuseAt (.missingOwner (← orCrash decl.node.source)) span
    | _ => refuseAt (.unhandledContext parent.kind.name) span

def receiverRecord (p : Program) (scope : ScopeId) (owner : TypeId) : Lower Ty := do
  match ((← get).env.scope scope).data?.bind Origin.type? with
  | some t => return t
  | none =>
    if (p.typeInfo owner).isString then return .record (← stringRecord)
    else return .record (← record p owner false)

/-! ## Inside namespaces -/

/-- Runs a body inside a scope and then inside the namespaces that lead inwards from it. -/
def insideFrom {α : Type} (scope : ScopeId) (body : Lower α) : List String → Lower α
  | [] => Action.enter scope body
  | name :: rest => Action.enter scope do
    match ← Action.ofCause ((← get).env.getIn scope name) with
    | .scope next => insideFrom next body rest
    | _ => refuse (.notNamespace name)

def insideNamespaces {α : Type} (path : List String) (body : Lower α) : Lower α := do
  match path with
  | [] => body
  | name :: rest => insideFrom (← namespaceScope [name]) body rest

end Lower

end CheckedIR.Lowering

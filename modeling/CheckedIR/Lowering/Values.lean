import CheckedIR.Lowering.Types

/-!
# Values and addresses

String constants, the values that names stand for, and the step from an address to the value behind
it. A value of one function cannot be used in another.
-/

namespace CheckedIR.Lowering

open CheckedIR.Ir CheckedIR.Program

/-- Where names are looked up. Lowering says when it starts a body and when it goes inside a block
or a namespace, each with the scope that is made or found for it. -/
class Viewpoint where
  Pos : Type
  here : Pos
  ofBody : Place → Scope.ScopeId → Pos
  inside : Pos → Stmt → Scope.ScopeId → Pos
  look : Pos → Env → String → Except Cause (Scope.Binding Value)

namespace Viewpoint

instance active : Viewpoint :=
  ⟨Unit, (), fun _ _ => (), fun _ _ _ => (), fun _ e name => e.get name⟩

variable (v : Viewpoint)

abbrev body (decl : Place) (k : Scope.ScopeId) : Viewpoint := { v with here := v.ofBody decl k }

abbrev enter (st : Stmt) (k : Scope.ScopeId) : Viewpoint := { v with here := v.inside v.here st k }

def get (e : Env) (name : String) : Except Cause (Scope.Binding Value) := v.look v.here e name

def getValue (e : Env) (name : String) : Except Cause (Option Value) := do
  (← v.get e name).valueAs name

@[simp] theorem active_get (e : Env) (name : String) : active.get e name = e.get name := rfl

@[simp] theorem active_getValue (e : Env) (name : String) :
    active.getValue e name = e.getValue name := rfl

end Viewpoint

namespace Lower

def stringGlobal (s : String) : Lower GlobalId := do
  let strings := (← get).strings
  match strings.lookup s with
  | some g => return g
  | none =>
    let g := (← get).module.globals.length
    let name := ".str." ++ toString strings.length
    modify fun t => { t with
      module := { t.module with globals := t.module.globals ++ [⟨name, s⟩] }
      strings := t.strings ++ [(s, g)] }
    return g

def noteLiteral (s : String) (c : Const) : Lower Const := do
  modify fun t => { t with literals := t.literals ++ [(s, c)] }
  return c

def stringConstant (s : String) : Lower Const := do
  let g ← stringGlobal s
  noteLiteral s (.text (← stringRecord) g s.utf8ByteSize)

/-- The value that a name stands for, unless it belongs to another function. -/
def localValue (name : String) (v : Value) : Lower Value := do
  let s ← get
  if v.isUsableIn s.frame.func then return v
  let ident (f : FuncId) : String := (s.module.func? f).elim "another function" Func.ident
  refuse (.capturedBinding name ((v.home?.map ident).getD "another function") (ident s.frame.func))

def lookupValue [v : Viewpoint] (name : String) (s : Span) : Lower Value :=
  orAt s do
    let v ← orCrash (← Scope.Action.ofCause (v.getValue (← get).env name))
    localValue name v

/-- Loads the value behind an address if it is one that is passed as it is. -/
def loaded (v : Value) : Lower Value := do
  match v.type with
  | .pointer elem => if ← isValueType elem then emit (.load elem v) elem else return v
  | _ => return v

/-- Gives a result the name of the constant that it is bound to, unless it got one before. Values
that are no results keep their names. -/
def nameResult (v : Value) (name : String) : Lower Unit := do
  match v with
  | .inst f i _ =>
    if (f, i) ∈ (← get).named then return
    modify fun s => { s with named := (f, i) :: s.named }
    renameInst f i (← localName (← get).frame.func name)
  | .param .. | .func .. | .const _ => return

def scopeOf? [v : Viewpoint] : Expr → Lower (Option Scope.ScopeId)
  | .ident _ name => do
    match v.get (← get).env name with
    | .ok b => return b.scope?
    | .error _ => return none
  | .member _ object name => do
    match ← scopeOf? object with
    | none => return none
    | some s => return ((← get).env.lookupIn s name).bind Scope.Binding.scope?
  | _ => return none

end Lower

end CheckedIR.Lowering

import CheckedIR.Diagnostic

/-!
# Scopes and environments

A scope binds names, each once, to values or to other scopes. Scopes live in a store and are
referred to by their place in it, so a scope can be bound in several places and can contain itself.

An environment is a store with the stack of scopes that are active. The global scope lies at the
bottom for good: the stack lists only the scopes above it, the innermost first. A name is searched
from the inside outwards; after a dot the search goes on inside the scope found.
-/

namespace CheckedIR.Scope

abbrev ScopeId := Nat

/-- A scope that a name stands for. Nothing keeps a value from being set beside it. -/
structure Nested (V : Type) where
  scope : ScopeId
  value? : Option V
  deriving DecidableEq, Repr

instance {V : Type} : Coe ScopeId (Nested V) := ⟨(⟨·, none⟩)⟩

instance {V : Type} : CoeOut (Nested V) ScopeId := ⟨Nested.scope⟩

/-- What a name stands for. A binding has two fields, a value and a scope, and each may be missing;
one that has a scope is used as that scope. -/
inductive Binding (V : Type)
  | value (v : V)
  | scope (s : Nested V)
  | empty
  deriving DecidableEq, Repr

namespace Binding

variable {V : Type}

def value? : Binding V → Option V
  | .value v => some v
  | .scope s => s.value?
  | .empty => none

def scope? : Binding V → Option ScopeId
  | .scope s => some s
  | .value _ | .empty => none

def isEmpty (b : Binding V) : Bool := b.value?.isNone && b.scope?.isNone

def valueAs (name : String) : Binding V → Except Cause (Option V)
  | .value v => return some v
  | .empty => return none
  | .scope _ => throw (.internal ("'" ++ name ++ "' names a scope, not a value"))

end Binding

structure Contents (V D : Type) where
  name : String
  data? : Option D
  bindings : List (String × Binding V)
  deriving Repr

namespace Contents

variable {V D : Type}

def fresh (name : String) (data? : Option D) : Contents V D := ⟨name, data?, []⟩

def label (c : Contents V D) : String := if c.name.isEmpty then "<anonymous>" else c.name

def lookup (c : Contents V D) (name : String) : Option (Binding V) := c.bindings.lookup name

def names (c : Contents V D) : List String := (c.bindings.map (·.1)).mergeSort

def size (c : Contents V D) : Nat := c.bindings.length

end Contents

def segments (name : String) : List String := (name.toList.splitOn '.').map String.ofList

structure Environment (V D : Type) where
  scopes : List (Contents V D)
  inner : List ScopeId
  deriving Repr

namespace Environment

variable {V D : Type}

def global : ScopeId := 0

def initial : Environment V D := ⟨[.fresh "" none], []⟩

variable (e : Environment V D)

def stack : List ScopeId := e.inner ++ [global]

def current : ScopeId := e.inner.headD global

def depth : Nat := e.stack.length

def scope (s : ScopeId) : Contents V D := (e.scopes[s]?).getD (.fresh "" none)

def lookupIn (s : ScopeId) (name : String) : Option (Binding V) := (e.scope s).lookup name

/-! ## Resolving names -/

def resolveIn (s : ScopeId) : List String → Except Cause (Binding V)
  | [] => throw (.unknownIdentifier "")
  | [name] =>
    match e.lookupIn s name with
    | some b => pure b
    | none => throw (.unknownIdentifier name)
  | name :: rest =>
    match e.lookupIn s name with
    | some (.scope t) => resolveIn t rest
    | some _ => throw (.notNamespace name)
    | none => throw (.unknownIdentifier name)

def getIn (s : ScopeId) (name : String) : Except Cause (Binding V) := e.resolveIn s (segments name)

def search (name : String) : Option (Binding V) := e.stack.findSome? fun s => e.lookupIn s name

def resolve : List String → Except Cause (Binding V)
  | [] => throw (.unknownIdentifier "")
  | [name] =>
    match e.search name with
    | some b => pure b
    | none => throw (.unknownIdentifier name)
  | name :: rest =>
    match e.search name with
    | some (.scope s) => e.resolveIn s rest
    | some _ => throw (.notNamespace name)
    | none => throw (.unknownIdentifier name)

def get (name : String) : Except Cause (Binding V) := e.resolve (segments name)

/-- The value that a name stands for; an empty binding has none. -/
def getValue (name : String) : Except Cause (Option V) := do (← e.get name).valueAs name

def getScope (name : String) : Except Cause ScopeId := do
  match ← e.get name with
  | .scope s => return s
  | .value _ | .empty => throw (.notNamespace name)

/-! ## Binding names -/

def create (name : String) (data? : Option D) : ScopeId × Environment V D :=
  (e.scopes.length, { e with scopes := e.scopes ++ [.fresh name data?] })

def modifyScope (s : ScopeId) (f : Contents V D → Contents V D) : Environment V D :=
  { e with scopes := e.scopes.modify s f }

def set (s : ScopeId) (name : String) (b : Binding V) : Except Cause (Environment V D) :=
  if b.isEmpty then throw (.internal ("empty binding for '" ++ name ++ "'"))
  else if (e.lookupIn s name).isSome then throw (.duplicateBinding name (e.scope s).label)
  else pure (e.modifyScope s fun t => { t with bindings := t.bindings ++ [(name, b)] })

def overwrite (s : ScopeId) (name : String) (b : Binding V) : Except Cause (Environment V D) :=
  if (e.lookupIn s name).isNone then throw (.unknownBinding name (e.scope s).label)
  else pure (e.modifyScope s fun t =>
    { t with bindings := t.bindings.map fun (n, c) => (n, if n == name then b else c) })

end Environment

end CheckedIR.Scope

import CheckedIR.Scope.Environment

/-!
# Actions in an environment

Computations with a state that holds an environment. The state survives a fault, and the three ways
to run a body with other active scopes put the old ones back however the body ends.
-/

namespace CheckedIR.Scope

/-- A computation that changes a state and can stop early; the changes stay. -/
abbrev Action (σ α : Type) := ExceptT Fault (StateM σ) α

class HasEnvironment (σ : Type) (V D : outParam Type) where
  environment : σ → Environment V D
  withEnvironment : σ → Environment V D → σ

instance {V D : Type} : HasEnvironment (Environment V D) V D := ⟨id, fun _ e => e⟩

open HasEnvironment

variable {σ V D α : Type} [HasEnvironment σ V D]

namespace Action

def ofCause : Except Cause α → Action σ α
  | .ok a => pure a
  | .error c => throw (.cause c)

def environment : Action σ (Environment V D) := return HasEnvironment.environment (← get)

def setEnvironment (e : Environment V D) : Action σ Unit := modify fun s => withEnvironment s e

def bindName (s : ScopeId) (name : String) (b : Binding V) : Action σ Unit := do
  setEnvironment (← ofCause ((← environment).set s name b))

def overwriteName (s : ScopeId) (name : String) (b : Binding V) : Action σ Unit := do
  setEnvironment (← ofCause ((← environment).overwrite s name b))

def createScope (name : String) (data? : Option D) : Action σ ScopeId := do
  let (s, e) := (← environment).create name data?
  setEnvironment e
  return s

def withInner (inner : List ScopeId) (body : Action σ α) : Action σ α := fun s =>
  let e := HasEnvironment.environment s
  let (r, t) := body (withEnvironment s { e with inner })
  -- The scopes that the body has made stay in the store; only the stack is put back.
  (r, withEnvironment t { HasEnvironment.environment t with inner := e.inner })

def enter (scope : ScopeId) (body : Action σ α) : Action σ α := do
  withInner (scope :: (← environment).inner) body

def withScope (name : String) (body : ScopeId → Action σ α) : Action σ α := do
  let scope ← createScope name none
  enter scope (body scope)

def detached (body : Action σ α) : Action σ α := withInner [] body

end Action

end CheckedIR.Scope

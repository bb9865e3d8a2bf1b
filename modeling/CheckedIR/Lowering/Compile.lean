import CheckedIR.Layout.Fields
import CheckedIR.Lowering.Functions

/-!
# Compiling programs

A lowering starts with a module that holds the empty entry function. The files of a program are
lowered one after the other, and finishing ends the entry function and verifies the module. A
module that does not verify is never handed out.
-/

namespace CheckedIR.Lowering

open CheckedIR.Ir CheckedIR.Program CheckedIR.Scope

structure Options where
  entryName : String
  sourceFile : String
  triple : String
  dataLayout : String
  deriving DecidableEq, Repr

def defaultEntryName : String := "main"

/-- The state before anything is lowered. An unsupported target is reported by every request. -/
def State.initial (o : Options) : State :=
  let entry : Func :=
    ⟨if o.entryName.isEmpty then defaultEntryName else o.entryName, 0, .i32, [], false,
      [⟨"entry", 0, [], none⟩]⟩
  -- The default target only stands in for an unsupported one, for which nothing is lowered.
  let (target, configError?) :=
    match Layout.Target.ofTriple o.triple with
    | .ok t => (t, none)
    | .error reason => (Layout.Target.default, some (Cause.invalidConfig "target_triple" reason))
  { module := { Module.empty o.sourceFile o.dataLayout o.triple with funcs := [entry] }
    env := .initial, target, layouts := [], typeDefs := [], objects := [], funcs :=
    [], origins := []
    calls := [], declared := []
    strings := [], literals := [], stringRecord? := none, locals := [], named := [], cursor :=
      ⟨Lower.entryFunc, 0⟩
    frame := ⟨Lower.entryFunc, none, false⟩, isFinished := false, configError?, log := [] }

namespace Lower

def checkConfig : Lower Unit := do
  match (← get).configError? with
  | some c => refuse c
  | none => return

def generate [v : Viewpoint] (p : Program) (file : SourceFile) : Lower Unit := do
  checkConfig
  let s ← get
  if s.isFinished then
    refuse (.internal ("module " ++ s.module.sourceFile ++ " is already finished"))
  debug ("generating " ++ file.name ++ " (" ++ toString file.statements.length ++ " statements)")
  statements p (emitFunction p) Environment.global file.statements

def printModule : Lower String := do
  let (text, m) ← orCrash (← get).module.print
  modify fun s => { s with module := m }
  return text

def verifyModule : Lower Unit := do
  let (result, m) := (← get).module.verify
  modify fun s => { s with module := m }
  ofExcept result

def finish : Lower Unit := do
  checkConfig
  if ! (← get).isFinished then
    let last := (← func entryFunc).blocks.length - 1
    modifyBlock ⟨entryFunc, last⟩ fun b =>
      if b.term?.isSome then b else { b with term? := some (.ret (some (.const (.int 32 0)))) }
    modify fun s => { s with isFinished := true }
  verifyModule

def program (p : Program) : Lower Unit := do
  p.files.forM (generate p)
  finish

end Lower

def Options.orSource (o : Options) (name : String) : Options :=
  if o.sourceFile.isEmpty then { o with sourceFile := name } else o

def compile (p : Program) (name : String) (o : Options) : Except Fault String × List LogLine :=
  let lower : Lower String := do
    Lower.program p
    Lower.printModule
  let (result, s) := lower.run (State.initial (o.orSource name))
  (result, s.log)

end CheckedIR.Lowering

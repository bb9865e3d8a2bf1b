import CheckedIR.Proofs.Compiled
import CheckedIR.Proofs.Lowering.VoidsEmission

/-!
# Void in compiled modules

Nothing refuses a variable, a parameter, a field or an element without a value, so a module has void
wherever the checked program has it. It has void nowhere else but where functions return nothing.
-/

namespace CheckedIR.Lowering

open CheckedIR.Ir CheckedIR.Program

theorem initial_isClear (o : Options) : (State.initial o).IsClear where
  module.records := nofun
  module.funcs fn hfn := by
    obtain rfl := List.mem_singleton.1 hfn
    refine ⟨rfl, nofun, rfl, fun b hb => ?_⟩
    obtain rfl := List.mem_singleton.1 hb
    exact ⟨.inr nofun, nofun⟩
  names k name v hv := by
    cases k <;> cases hv
  scopes k o t ho := by
    cases k <;> cases ho
  this := nofun

/-- **Compiled modules have void where functions return nothing.** Void occurs in a compiled module
as what functions return and nowhere else, not even inside another type, unless the checked program
has it where values are: an argument of a call, a stored property or an element behind an index
signature has no value, or a variable has a slot for none. -/
theorem compiled_void {p : Program} {o : Options} {s : State} (h : Compiles p o s)
    (hno : ¬ s.notes.TakesVoid p) : s.module.IsVoidFree := by
  obtain ⟨-, hclear⟩ := (program_clears (p := p) (P := True)).of_run_ok h
  rcases hclear trivial (initial_isClear o) with hvoid | ⟨hs, -⟩
  · exact (hno hvoid).elim
  · exact hs.module.isVoidFree h.verified

theorem void_slotBody : ∃ s, Compiles (callingProgram numberType slotBody) defaultOptions s ∧
    ¬ s.notes.TakesVoid (callingProgram numberType slotBody) ∧ s.module.IsVoidFree := by
  have hs := compiles_finalState (p := callingProgram numberType slotBody) (o := defaultOptions)
    (by decide +kernel)
  have hno : ¬ (finalState (callingProgram numberType slotBody) defaultOptions).notes.TakesVoid
    (callingProgram numberType slotBody) := by decide +kernel
  exact ⟨_, hs, hno, compiled_void hs hno⟩

/-- A program that declares functions `f` and `g` without results and `make` of the runtime, which
gives boxes. A box has an index signature `at` of void, and the given properties, which are void
too. -/
def voidProgram (properties : List String) (ss : List Stmt) : Program where
  files := [⟨.blank, "sample", [
    .function { NodeInfo.blank with declares? := some ⟨"f"⟩ } "f" [] (some (.mk .blank [])),
    .function { NodeInfo.blank with declares? := some ⟨"g"⟩ } "g" [⟨.blank, "a", false⟩]
      (some (.mk .blank [])),
    .function { NodeInfo.blank with declares? := some ⟨"make"⟩, returns? := some ⟨"box"⟩ }
      "make" [] none,
    .interfaceDecl { NodeInfo.blank with declares? := some ⟨"Box"⟩ } "Box" [] <|
      .indexSignature { NodeInfo.blank with declares? := some ⟨"at"⟩ } [] :: properties.map fun q =>
        .property { NodeInfo.blank with declares? := some ⟨q⟩, type? := some voidType } q false
          none] ++ ss⟩]
  types := intrinsics ++
    [(⟨"box"⟩, ⟨[.object], "", some ⟨"Box"⟩, [], properties.map fun q => ⟨q⟩, some voidType,
      none, none⟩)]
  symbols := [(⟨"f"⟩, ⟨"f", [.func]⟩), (⟨"g"⟩, ⟨"g", [.func]⟩), (⟨"make"⟩, ⟨"make", [.func]⟩),
    (⟨"Box"⟩, ⟨"Box", [.iface]⟩), (⟨"at"⟩, ⟨"at", [.method]⟩)] ++
      properties.map fun q => (⟨q⟩, ⟨q, [.prop]⟩)

def calling (name : String) (type : TypeId) (args : List Expr) : Expr :=
  .call { NodeInfo.blank with type? := some type }
    (.ident { NodeInfo.blank with symbol? := some ⟨name⟩ } name) args

def voidPrograms : List Program :=
  [voidProgram [] [.expression .blank (calling "g" voidType [calling "f" voidType []])],
    voidProgram ["content"] [.expression .blank (calling "make" ⟨"box"⟩ [])],
    voidProgram [] [.expression .blank (.call .blank
      (.member { NodeInfo.blank with symbol? := some ⟨"at"⟩ } (calling "make" ⟨"box"⟩ []) "at")
      [.numeric .blank .zero])],
    voidProgram [] [.variableDecl .blank false [⟨.blank, "x", some (calling "f" voidType [])⟩]]]

/-- Each way is taken by a program that compiles, and void is then among the values of the module.
-/
theorem void_elsewhere : ∀ p ∈ voidPrograms, ∃ s, Compiles p defaultOptions s ∧
    s.notes.TakesVoid p ∧
    ¬ s.module.IsVoidFree := by
  have hall : ∀ p ∈ voidPrograms, ((Lower.program p).run (State.initial defaultOptions)).1.isOk =
      true ∧ (finalState p defaultOptions).notes.TakesVoid p ∧
      ¬ (finalState p defaultOptions).module.IsVoidFree := by
    decide +kernel
  intro p hp
  obtain ⟨hok, htakes, hvoid⟩ := hall p hp
  exact ⟨_, compiles_finalState hok, htakes, hvoid⟩

end CheckedIR.Lowering

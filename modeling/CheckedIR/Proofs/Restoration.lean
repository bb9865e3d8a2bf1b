import CheckedIR.Proofs.Lowering.Spares
import CheckedIR.Proofs.Sessions

/-!
# Where lowering comes back to

An expression may emit functions, which move the cursor, replace the frame and set the active scopes
aside, and any of this can fail. Whatever happens, the expression ends where it began, and so does a
statement that is not at the top level. Between demands lowering is always at the end of the entry
function, with only the global scope active.
-/

namespace CheckedIR.Lowering

open CheckedIR.Ir CheckedIR.Program CheckedIR.Scope CheckedIR.Scope.Action

structure SamePlace (s t : State) : Prop where
  cursor : t.cursor = s.cursor
  frame : t.frame = s.frame
  stack : t.env.stack = s.env.stack

/-- There is the entry function, and no name stands for the global scope. -/
structure State.IsOrderly (s : State) : Prop where
  entry : 0 < s.module.funcs.length
  hides : s.env.HidesGlobal

def IsAt (c : Cursor) (fr : Frame) (t : State) : Prop := t.cursor = c ∧ t.frame = fr

def IsOrderlyAt (c : Cursor) (fr : Frame) (t : State) : Prop := IsAt c fr t ∧ t.IsOrderly

section
variable {p : Program} {c : Cursor} {fr : Frame} {s t : State} {emitFunction : Emitter}

instance : Lasting (IsAt c fr) where
  beside _ _ ht h := ⟨ht.cursor.trans h.1, ht.frame.trans h.2⟩
  named _ _ _ h := h
  declared _ _ _ h := h
  env _ _ _ h := h
  grown _ _ _ _ _ h := h

instance : Lasting (IsOrderlyAt c fr) where
  beside _ _ ht h :=
    ⟨Stable.beside _ _ ht h.1, by rw [ht.funcs]; exact h.2.entry, ht.env ▸ h.2.hides⟩
  named _ _ hm h := ⟨h.1, hm.length_eq ▸ h.2.entry, h.2.hides⟩
  declared _ _ _ h := ⟨h.1, by simp, h.2.hides⟩
  env _ _ he h := ⟨h.1, h.2.entry, he h.2.hides⟩
  grown _ _ _ _ _ h := ⟨h.1, by simpa [Module.modifyFunc] using h.2.entry, h.2.hides⟩

theorem emitterLeads_isAt : EmitterLeads (IsAt c fr) emitFunction := fun _ _ _ _ h => h

theorem EmitterSpares.orderlyAt (hem : EmitterSpares emitFunction) :
    EmitterLeads (IsOrderlyAt c fr) emitFunction := by
  intro d owner? args s h
  have hout := hem s.module d owner? args s h.2.entry ⟨h.2.hides, .refl _ _⟩
  exact ⟨h.1, Nat.lt_of_lt_of_le h.2.entry hout.spares.length, hout.hides⟩

theorem isBodyOf_orderlyAt : IsBodyOf fr.func (IsOrderlyAt c fr) (IsOrderlyAt c fr) where
  weaker _ h := h
  hides _ h := h.2.hides
  frame _ h := by rw [h.1.2]
  ends _ _ h _ := ⟨h.1, Nat.lt_of_lt_of_eq h.2.entry (Module.length_modifyFunc _ _).symm, h.2.hides⟩
  resumes _ _ h _ _ := h

/-! ## Expressions and statements -/

theorem stack_of_steady {α : Type} {x : Lower α} (h : Steady p true .never s x) :
    (x.run s).2.env.stack = s.env.stack := by
  unfold Environment.stack
  rw [h.grows.env.inner]

theorem lvalue_samePlace (depth : Nat) (e : Expr) :
    SamePlace s ((Lower.lvalue p (Lower.emitTo p depth) e).run s).2 := by
  have hplace : IsAt s.cursor s.frame ((Lower.lvalue p (Lower.emitTo p depth) e).run s).2 :=
    lvalue_leads emitterLeads_isAt e ⟨rfl, rfl⟩
  exact ⟨hplace.1, hplace.2, stack_of_steady (lvalue_steady (emitTo_steady depth).never e)⟩

theorem rvalue_samePlace (depth : Nat) (e : Expr) :
    SamePlace s ((Lower.rvalue p (Lower.emitTo p depth) e).run s).2 := by
  have hplace : IsAt s.cursor s.frame ((Lower.rvalue p (Lower.emitTo p depth) e).run s).2 :=
    rvalue_leads emitterLeads_isAt e ⟨rfl, rfl⟩
  exact ⟨hplace.1, hplace.2, stack_of_steady (rvalue_steady (emitTo_steady depth).never e)⟩

theorem lvalue_orderly (h : s.IsOrderly) (depth : Nat) (e : Expr) :
    ((Lower.lvalue p (Lower.emitTo p depth) e).run s).2.IsOrderly := by
  have hend : IsOrderlyAt s.cursor s.frame ((Lower.lvalue p (Lower.emitTo p depth) e).run s).2 :=
    lvalue_leads (emitTo_spares depth).orderlyAt e ⟨⟨rfl, rfl⟩, h⟩
  exact hend.2

theorem rvalue_orderly (h : s.IsOrderly) (depth : Nat) (e : Expr) :
    ((Lower.rvalue p (Lower.emitTo p depth) e).run s).2.IsOrderly := by
  have hend : IsOrderlyAt s.cursor s.frame ((Lower.rvalue p (Lower.emitTo p depth) e).run s).2 :=
    rvalue_leads (emitTo_spares depth).orderlyAt e ⟨⟨rfl, rfl⟩, h⟩
  exact hend.2

theorem statement_samePlace (h : s.IsOrderly) (depth : Nat) {k : ScopeId}
    (hk : k ≠ Environment.global) (st : Stmt) :
    SamePlace s ((Lower.statement p (Lower.emitTo p depth) k st).run s).2 ∧
      ((Lower.statement p (Lower.emitTo p depth) k st).run s).2.IsOrderly := by
  have hend : IsOrderlyAt s.cursor s.frame
      ((Lower.statement p (Lower.emitTo p depth) k st).run s).2 :=
    statement_leads isBodyOf_orderlyAt (emitTo_spares depth).orderlyAt st (fun he => absurd he hk)
      ⟨⟨rfl, rfl⟩, h⟩
  exact ⟨⟨hend.1.1, hend.1.2, stack_of_steady (statement_steady (emitTo_steady depth).never st)⟩,
    hend.2⟩

/-! ## Demands -/

def State.IsAtEntryEnd (t : State) : Prop :=
  ∃ fn, t.module.func? Lower.entryFunc = some fn ∧ 0 < fn.blocks.length ∧
    t.cursor = ⟨Lower.entryFunc, fn.blocks.length - 1⟩

theorem State.IsIdle.isAtEntryEnd (h : t.IsIdle) : t.IsAtEntryEnd := by
  obtain ⟨fn, b, hf, hb, -⟩ := h.body
  have hlength : fn.blocks.length = 1 := by
    rw [show fn.blocks = [b] from hb]
    rfl
  exact ⟨fn, hf, by omega, by rw [h.cursor, hlength]⟩

theorem Demand.idleAgain {m : Module} (d : Demand) :
    Leads (IdleAgain m) (IdleAgain m) s (d.action p) := by
  cases d with
  | generate file => exact generate_leads
  | finish => exact finish_leads

theorem idleAgain_afterDemands {m : Module} (ds : List Demand) (h : IdleAgain m s) :
    IdleAgain m (afterDemands p s ds) := by
  induction ds generalizing s with
  | nil => exact h
  | cons d ds ih => exact ih (d.idleAgain h)

theorem depth_afterDemands (ds : List Demand) : (afterDemands p s ds).env.depth = s.env.depth := by
  unfold Environment.depth Environment.stack
  rw [(grows_afterDemands ds).env.inner]

/-- **Lowering comes back to where it was.** Lowering an expression, to a value or to an address,
leaves the block that gets the instructions, the function that is being emitted and the active
scopes as they were, in whatever state it begins and however it ends. So does a statement in any
scope but the global one, and orderly states stay orderly. After any demands, met or not, only the
global scope is active and the cursor is in the last block of the entry function. -/
theorem place_kept (p : Program) (o : Options) :
    (∀ (s : State) (depth : Nat) (e : Expr),
      SamePlace s ((Lower.lvalue p (Lower.emitTo p depth) e).run s).2 ∧
      SamePlace s ((Lower.rvalue p (Lower.emitTo p depth) e).run s).2 ∧
      (s.IsOrderly → ((Lower.lvalue p (Lower.emitTo p depth) e).run s).2.IsOrderly ∧
        ((Lower.rvalue p (Lower.emitTo p depth) e).run s).2.IsOrderly)) ∧
    (∀ (s : State) (depth : Nat) (k : ScopeId) (st : Stmt), s.IsOrderly → k ≠ Environment.global →
      SamePlace s ((Lower.statement p (Lower.emitTo p depth) k st).run s).2 ∧
      ((Lower.statement p (Lower.emitTo p depth) k st).run s).2.IsOrderly) ∧
    ∀ ds : List Demand,
      let t := afterDemands p (State.initial o) ds
      t.IsOrderly ∧ t.env.depth = 1 ∧ t.IsAtEntryEnd := by
  refine ⟨fun s depth e => ⟨lvalue_samePlace depth e, rvalue_samePlace depth e, fun h => ?_⟩,
    fun s depth k st h hk => statement_samePlace h depth hk st, fun ds => ?_⟩
  · exact ⟨lvalue_orderly h depth e, rvalue_orderly h depth e⟩
  have hidle : (afterDemands p (State.initial o) ds).IsIdle :=
    (idleAgain_afterDemands ds ⟨initial_idle o, .refl _⟩).1
  have horderly : (afterDemands p (State.initial o) ds).IsOrderly := by
    obtain ⟨fn, b, hf, -⟩ := hidle.body
    exact ⟨(List.getElem?_eq_some_iff.1 hf).1, hidle.hides⟩
  exact ⟨horderly, depth_afterDemands ds, hidle.isAtEntryEnd⟩

/-- A call in a scope of its own fails inside the function that is emitted for it. Its function
stays, and lowering is back in the entry function. -/
theorem place_kept_broken :
    let p := bodyProgram (.expression .blank (.ident .blank "x"))
    let call : Expr := .call .blank (.ident { NodeInfo.blank with symbol? := some ⟨"f"⟩ } "f") []
    let s := ((Action.createScope "" none : Lower ScopeId).run (State.initial defaultOptions)).2
    let r := (Lower.statement p (Lower.emitFunction p) 1 (.expression .blank call)).run s
    s.IsOrderly ∧ r.1.isOk = false ∧ r.2.module.funcs.length = 2 ∧ SamePlace s r.2 := by
  intro p call s r
  have hs : s.IsOrderly := ⟨by decide, (initial_idle defaultOptions).hides.create "" none⟩
  have hkept := (place_kept p defaultOptions).2.1 s (Lower.emissionBound p) 1
    (.expression .blank call) hs (by decide)
  exact ⟨hs, by decide +kernel, by decide +kernel, hkept.1⟩

end

end CheckedIR.Lowering

import CheckedIR.Proofs.Compiled
import CheckedIR.Proofs.Meaning.FuncLowered
import CheckedIR.Proofs.Meaning.FuncSound

/-!
# What compiled numeric programs compute

The files of a numeric program add their statements to the entry function one after the other, and
every function that calls ask for is emitted on the way. So the module runs like the program: its
entry function computes what the program means.
-/

namespace CheckedIR.Meaning

open CheckedIR.Ir CheckedIR.Program CheckedIR.Lowering CheckedIR.Scope

section
variable {p : Program} {s t z : State} {f : FuncId}

/-! ## Statements at the top level -/

/-- Between statements at the top level the entry function goes on, and only the global scope is
active. It has the variables `V` and functions, and all functions in the table are emitted. -/
structure AtTop (p : Program) (V : List String) (s : State) : Prop where
  here : Here p Lower.entryFunc s
  entry : AtEntry s
  inner : s.env.inner = []
  names : ∀ name v, globalOf s name = some v → name ∈ V ∨ name ∈ functionNames p ∧ IsFunction v
  emitted : ∀ name h, s.funcs.lookup name = some h → ∀ z, Changes p s z → Emitted p z name h

namespace AtTop

variable {V : List String} {κ? : Option ScopeId}

theorem stage (h : AtTop p V s) (hc : Changes p s z) : Stage p V s z :=
  ⟨hc, h.names, fun name g hg => h.emitted name g hg s .refl⟩

theorem next (h : AtTop p V s) (hr : Reach p (.along Lower.entryFunc) s t)
    (ho : t.module.IsOpen Lower.entryFunc) (ha : Aside p κ? s t) {V' : List String}
    (hnames : ∀ name v, globalOf t name = some v →
      name ∈ V' ∨ name ∈ functionNames p ∧ IsFunction v) :
    AtTop p V' t where
  here := h.here.next hr ho ha
  entry := hr.atEntry rfl h.entry
  inner := hr.inner.trans h.inner
  names := hnames
  emitted name g hg z hz := by
    rcases ha.table name g hg with hg | hem
    · exact h.emitted name g hg z (hr.changes.trans hz)
    · exact hem z hz

theorem same (h : AtTop p V s) (hr : Reach p (.along Lower.entryFunc) s t)
    (ho : t.module.IsOpen Lower.entryFunc) (ha : Aside p none s t) : AtTop p V t := by
  refine h.next hr ho ha fun name v hv => ?_
  rcases ha.globals nofun name v hv with hv | hname
  · exact h.names name v hv
  · exact .inr hname

theorem adds {P : Piece} (h : AtTop p V s) (ha : Adds p Lower.entryFunc none s P t) : AtTop p V t :=
  h.same (ha.reach.weaken .within_along h.here.admits_along)
    (ha.reach.opened rfl _ h.here.ready.isOpen) ha.wrote.aside

theorem locals (h : AtTop p V s) : localsOf s.env = fun _ => none := by
  funext n
  simp [localsOf, h.inner]

theorem current (h : AtTop p V s) : s.env.current = Environment.global := by
  simp [Environment.current, h.inner]

end AtTop

theorem initial_atTop (o : Options) : AtTop p [] (State.initial o) where
  here :=
    { reachable := reachable_initial o
      admits := ⟨fun f hf => Option.some.inj hf ▸ Nat.zero_lt_one,
        fun r hr => absurd hr (Nat.not_lt_zero r)⟩
      ready := ⟨rfl, _, _, rfl, rfl, rfl⟩
      frame := rfl
      tame := fun k n b hb => by
        cases k <;> cases hb
      inner := nofun }
  entry := ⟨rfl, rfl⟩
  inner := rfl
  names := nofun
  emitted := nofun

theorem append_assoc (P Q R : Piece) : P ++ Q ++ R = P ++ (Q ++ R) := by
  ext1 <;> simp

end

end CheckedIR.Meaning

import CheckedIR.Proofs.Lowering.Gives
import CheckedIR.Proofs.Meaning.Translation

/-!
# What lowering a numeric program writes

The lowering of a part of a numeric program appends a piece of code to the function at the cursor
and binds names in one scope. Besides, it may emit other functions, each of them completely; their
names are bound in the global scope.
-/

namespace CheckedIR.Meaning

open CheckedIR.Ir CheckedIR.Program CheckedIR.Lowering CheckedIR.Scope

/-! ## Code -/

def codeOf (m : Module) (f : FuncId) : Code := ((m.func? f).elim [] Func.insts).map Inst.core

theorem codeOf_body {m : Module} {f : FuncId} {fn : Func} {b : Ir.Block} (hf : m.func? f = some fn)
    (hb : fn.IsBody b) : codeOf m f = b.code := by
  unfold codeOf
  rw [hf]
  exact congrArg _ (Func.insts_of_body hb)

theorem codeOf_congr {m m' : Module} {f : FuncId} (h : m'.func? f = m.func? f) :
    codeOf m' f = codeOf m f := by
  unfold codeOf
  rw [h]

theorem codeOf_setBody {m : Module} {f : FuncId} {fn : Func} (b : Ir.Block)
    (hf : m.func? f = some fn) :
    codeOf (m.setBody f b) f = b.code := codeOf_body (Module.func?_setBody hf) rfl

theorem codeOf_sameCode {m m' : Module} (h : m.SameCode m') (f : FuncId) :
    codeOf m' f = codeOf m f := by
  unfold codeOf
  cases hf : m.func? f with
  | none =>
    cases hf' : m'.func? f with
    | none => rfl
    | some fn' =>
      obtain ⟨fn, hfn, -⟩ := h.symm.func? hf'
      rw [hf] at hfn
      cases hfn
  | some fn =>
    obtain ⟨fn', hf', ho⟩ := h.func? hf
    rw [hf']
    exact Func.code_of_outline ho

/-! ## Names -/

def IsTame (e : Env) : Prop := ∀ k name b, e.lookupIn k name = some b → ∃ v, b = .value v

def localsOf (e : Env) : Locals := fun name => e.inner.findSome? fun k => valueIn e k name

theorem findSome?_congr {α β : Type} {g g' : α → Option β} : ∀ {l : List α}, (∀ a ∈ l, g a = g' a) →
    l.findSome? g = l.findSome? g'
  | [], _ => rfl
  | a :: l, h => by
    rw [List.findSome?_cons, List.findSome?_cons, h a List.mem_cons_self,
      findSome?_congr fun b hb => h b (List.mem_cons_of_mem _ hb)]

/-- Apart from the code at hand: scope `κ?`, if there is one, gets new names, the global scope those
of functions, and every function that comes to be is emitted. -/
structure Aside (p : Program) (κ? : Option ScopeId) (s t : State) : Prop where
  scopes : ∀ k, k ≠ Environment.global → κ? ≠ some k → k < s.env.scopes.length →
    ∀ name, t.env.lookupIn k name = s.env.lookupIn k name
  globals : κ? ≠ some Environment.global → ∀ name v, globalOf t name = some v →
    globalOf s name = some v ∨ name ∈ functionNames p ∧ IsFunction v
  tame : IsTame s.env → IsTame t.env
  table : ∀ name h, t.funcs.lookup name = some h →
    s.funcs.lookup name = some h ∨ ∀ z, Changes p t z → Emitted p z name h

section
variable {p : Program} {κ? : Option ScopeId} {s t u : State} {f : FuncId}

theorem Aside.of_lookup (he : ∀ k name, t.env.lookupIn k name = s.env.lookupIn k name)
    (hf : t.funcs = s.funcs) : Aside p κ? s t where
  scopes k _ _ _ name := he k name
  globals _ name _ hv := .inl ((valueIn_congr (he Environment.global name)).symm.trans hv)
  tame h k name b hb := h k name b (he k name ▸ hb)
  table _ _ hh := .inl (hf ▸ hh)

theorem Aside.of_eq (he : t.env = s.env) (hf : t.funcs = s.funcs) : Aside p κ? s t :=
  .of_lookup (fun _ _ => he ▸ rfl) hf

theorem Aside.trans (hc : Changes p s t) (hc' : Changes p t u) (h : Aside p κ? s t)
    (h' : Aside p κ? t u) : Aside p κ? s u where
  scopes k hk hκ hlt name := by
    rw [h'.scopes k hk hκ (Nat.lt_of_lt_of_le hlt hc.scopes_length_le), h.scopes k hk hκ hlt]
  globals hκ name v hv := by
    rcases h'.globals hκ name v hv with hv | hname
    · exact h.globals hκ name v hv
    · exact .inr hname
  tame hs := h'.tame (h.tame hs)
  table name g hg := by
    rcases h'.table name g hg with hg | hg
    · refine (h.table name g hg).imp_right fun hem z hz => hem z (hc'.trans hz)
    · exact .inr hg

theorem Aside.weaken (h : Aside p none s t) : Aside p κ? s t :=
  ⟨fun k hk _ => h.scopes k hk nofun, fun _ => h.globals nofun, h.tame, h.table⟩

/-! ## Pieces -/

/-- A piece of code was appended to function `f`, with its slots in front and its variables noted.
-/
structure Wrote (p : Program) (f : FuncId) (κ? : Option ScopeId) (s t : State) (P : Piece) :
    Prop where
  code : codeOf t.module f = P.allocas ++ (codeOf s.module f ++ P.code)
  declared : t.variablesOf f = s.variablesOf f ++ P.declared
  aside : Aside p κ? s t

theorem allocas_append (P Q : Piece) : (P ++ Q).allocas = Q.allocas ++ P.allocas := by
  simp [Piece.allocas]

theorem Wrote.trans {P Q : Piece} (hc : Changes p s t) (hc' : Changes p t u)
    (h : Wrote p f κ? s t P) (h' : Wrote p f κ? t u Q) : Wrote p f κ? s u (P ++ Q) where
  code := by
    rw [h'.code, h.code, allocas_append]
    simp
  declared := by
    rw [h'.declared, h.declared]
    simp
  aside := h.aside.trans hc hc' h'.aside

theorem Wrote.weaken {P : Piece} (h : Wrote p f none s t P) : Wrote p f κ? s t P :=
  ⟨h.code, h.declared, h.aside.weaken⟩

theorem Wrote.nothing (hcode : codeOf t.module f = codeOf s.module f)
    (hv : t.variablesOf f = s.variablesOf f) (ha : Aside p κ? s t) : Wrote p f κ? s t .empty := by
  refine ⟨?_, ?_, ha⟩
  · rw [hcode]
    simp [Piece.allocas, Piece.empty]
  · rw [hv]
    simp [Piece.empty]

theorem Wrote.refl : Wrote p f κ? s s .empty := .nothing rfl rfl (.of_eq rfl rfl)

theorem Wrote.appended {fn : Func} {b : Ir.Block} {i : Inst} (hf : s.module.func? f = some fn)
    (hb : fn.IsBody b)
    (ht : t.module = s.module.setBody f { b with insts := b.insts ++ [i] }) (he : t.env = s.env)
    (hfuncs : t.funcs = s.funcs) (hv : t.declared = s.declared) :
    Wrote p f κ? s t (.ofCode [i.core]) where
  code := by
    rw [ht, codeOf_setBody _ hf, codeOf_body hf hb]
    simp [Block.code, Piece.ofCode, Piece.allocas]
  declared := by
    unfold State.variablesOf
    rw [hv]
    simp [Piece.ofCode]
  aside := .of_eq he hfuncs

/-! ## Places -/

structure Here (p : Program) (f : FuncId) (s : State) : Prop where
  reachable : Reachable p s
  admits : (Manner.within f).Admits p s
  ready : Ready f s
  frame : s.frame.isConstructor = false
  tame : IsTame s.env
  inner : ∀ k ∈ s.env.inner, k ≠ Environment.global ∧ k < s.env.scopes.length

theorem Here.sound (h : Here p f s) : s.Sound := h.reachable.sound

theorem Here.admits_along (h : Here p f s) : (Manner.along f).Admits p s :=
  ⟨h.admits.own, h.admits.filled⟩

theorem Here.next (h : Here p f s) (hr : Reach p (.along f) s t) (ho : t.module.IsOpen f)
    (ha : Aside p κ? s t) : Here p f t where
  reachable := h.reachable.trans hr.changes
  admits := ⟨hr.admits_after.own, hr.admits_after.filled⟩
  ready := ⟨(hr.place rfl).1 ▸ h.ready.here, ho⟩
  frame := (hr.place rfl).2 ▸ h.frame
  tame := ha.tame h.tame
  inner k hk := by
    rw [hr.inner] at hk
    exact ⟨(h.inner k hk).1, Nat.lt_of_lt_of_le (h.inner k hk).2 hr.changes.scopes_length_le⟩

theorem Here.locals (h : Here p f s) (hi : t.env.inner = s.env.inner) (ha : Aside p none s t) :
    localsOf t.env = localsOf s.env := by
  funext name
  unfold localsOf
  rw [hi]
  exact findSome?_congr fun k hk =>
    valueIn_congr (ha.scopes k (h.inner k hk).1 nofun (h.inner k hk).2 name)

/-! ## Steps -/

structure Adds (p : Program) (f : FuncId) (κ? : Option ScopeId) (s : State) (P : Piece)
    (t : State) : Prop where
  reach : Reach p (.within f) s t
  wrote : Wrote p f κ? s t P

namespace Adds

variable {P Q : Piece}

theorem changes (h : Adds p f κ? s P t) : Changes p s t := h.reach.changes

theorem refl (h : Here p f s) : Adds p f κ? s .empty s := ⟨.refl h.admits, .refl⟩

theorem trans (h : Adds p f κ? s P t) (h' : Adds p f κ? t Q u) : Adds p f κ? s (P ++ Q) u :=
  ⟨h.reach.trans h'.reach, h.wrote.trans h.changes h'.changes h'.wrote⟩

theorem weaken (h : Adds p f none s P t) : Adds p f κ? s P t := ⟨h.reach, h.wrote.weaken⟩

theorem elsewhere (h : Here p f s) (hr : Reach p .quiet s t) (ha : Aside p κ? s t) :
    Adds p f κ? s .empty t :=
  ⟨hr.weaken (.quiet rfl rfl rfl) h.admits, .nothing (codeOf_congr (hr.others f h.ready.owns nofun))
    (hr.declared f h.ready.owns nofun) ha⟩

theorem here (hs : Here p f s) (h : Adds p f κ? s P t) : Here p f t :=
  hs.next (h.reach.weaken .within_along hs.admits_along) (h.reach.opened rfl f hs.ready.isOpen)
    h.wrote.aside

theorem locals (hs : Here p f s) (h : Adds p f none s P t) : localsOf t.env = localsOf s.env :=
  hs.locals h.reach.inner h.wrote.aside

end Adds

end

end CheckedIR.Meaning

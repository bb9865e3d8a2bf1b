import CheckedIR.Proofs.Lowering.Functions

/-!
# Steps that succeed

What can be read off a step that gave an answer, part by part, and what lasts from then on: names
stay bound to what they are bound to, and functions that have ended keep their code.
-/

namespace CheckedIR.Lowering

open CheckedIR.Ir CheckedIR.Program CheckedIR.Scope CheckedIR.Scope.Action

/-- Action `x` leads from `s` to `t` and answers `a`. -/
def Gives {α : Type} (x : Lower α) (s : State) (a : α) (t : State) : Prop := x.run s = (.ok a, t)

theorem exists_of_isOk {ε α : Type} {r : Except ε α} (h : r.isOk = true) : ∃ a, r = .ok a := by
  cases r with
  | error => cases h
  | ok a => exact ⟨a, rfl⟩

theorem exists_gives {α : Type} {x : Lower α} {s : State} (h : (x.run s).1.isOk = true) :
    ∃ a, Gives x s a (x.run s).2 :=
  (exists_of_isOk h).imp fun _ ha => Prod.ext ha rfl

theorem ends_gives {α : Type} {s : State} {x : Lower α} {Q : α → State → Prop}
    {E : Fault → State → Prop} (h : Ends x s Q E) : Ends x s (Gives x s) E := by
  unfold Ends Gives at *
  revert h
  rcases x.run s with ⟨f | a, t⟩
  · exact id
  · exact fun _ => rfl

namespace Gives

variable {α β : Type} {p : Program} {M : Manner} {s t : State} {x : Lower α} {a : α}

theorem bind {k : α → Lower β} {b : β} (h : Gives (x >>= k) s b t) :
    ∃ a u, Gives x s a u ∧ Gives (k a) u b t := by
  unfold Gives at h ⊢
  rw [run_bind] at h
  revert h
  rcases x.run s with ⟨e | a, u⟩
  · exact fun h => by cases h
  · exact fun h => ⟨a, u, rfl, h⟩

theorem into_bind {k : α → Lower β} {b : β} {u : State} (h : Gives x s a u)
    (hk : Gives (k a) u b t) : Gives (x >>= k) s b t := by
  unfold Gives at h hk ⊢
  rw [run_bind, h]
  exact hk

theorem get_bind {k : State → Lower β} {b : β} (h : Gives (get >>= k) s b t) :
    Gives (k s) s b t := by
  unfold Gives at h ⊢
  rw [run_bind] at h
  exact h

theorem pure {b : α} (h : Gives (pure a) s b t) : a = b ∧ s = t := by
  obtain ⟨hok, rfl⟩ := Prod.mk.inj h
  exact ⟨Except.ok.inj hok, rfl⟩

theorem map {g : α → β} {b : β} (h : Gives (g <$> x) s b t) : ∃ a, Gives x s a t ∧ b = g a := by
  rw [map_eq_pure_bind] at h
  obtain ⟨a, u, hx, hp⟩ := h.bind
  obtain ⟨rfl, rfl⟩ := hp.pure
  exact ⟨a, hx, rfl⟩

theorem discard {b : PUnit} (h : Gives (discard x) s b t) : ∃ a, Gives x s a t := by
  obtain ⟨a, ha, -⟩ := map h
  exact ⟨a, ha⟩

theorem modify {g : State → State} {b : PUnit} (h : Gives (modify g) s b t) : t = g s :=
  (Prod.mk.inj h).2.symm

theorem not_throw {f : Fault} (h : Gives (throw f) s a t) : False := by
  cases h

theorem not_refuseAt {c : Cause} {span : Span} (h : Gives (Lower.refuseAt c span) s a t) : False :=
  h.not_throw

theorem orAt {span : Span} (h : Gives (Lower.orAt span x) s a t) : Gives x s a t := by
  unfold Gives at h ⊢
  rw [Lower.orAt, run_tryCatch] at h
  revert h
  rcases x.run s with ⟨e | b, u⟩
  · exact fun h => by cases h
  · exact id

theorem orCrash {a? : Option α} (h : Gives (Lower.orCrash a?) s a t) : a? = some a ∧ s = t := by
  cases a? with
  | none => exact (h.not_throw).elim
  | some b =>
    obtain ⟨rfl, rfl⟩ := h.pure
    exact ⟨rfl, rfl⟩

theorem ofCause {r : Except Cause α} (h : Gives (Action.ofCause r) s a t) : r = .ok a ∧ s = t := by
  cases r with
  | error c => exact (h.not_throw).elim
  | ok b =>
    obtain ⟨rfl, rfl⟩ := h.pure
    exact ⟨rfl, rfl⟩

theorem ofExcept {r : Except Fault α} (h : Gives (Lower.ofExcept r) s a t) : r = .ok a ∧ s = t := by
  cases r with
  | error c => exact (h.not_throw).elim
  | ok b =>
    obtain ⟨rfl, rfl⟩ := h.pure
    exact ⟨rfl, rfl⟩

theorem func {f : FuncId} {fn : Func} (h : Gives (Lower.func f) s fn t) :
    s.module.func? f = some fn ∧ s = t :=
  orCrash h.get_bind

theorem withInner {inner : List ScopeId} (h : Gives (Action.withInner inner x) s a t) :
    ∃ u, Gives x { s with env := { s.env with inner } } a u ∧
      t = { u with env := { u.env with inner := s.env.inner } } := by
  let r := x.run { s with env := { s.env with inner } }
  have hrun : (r.1, { r.2 with env := { r.2.env with inner := s.env.inner } }) = (.ok a, t) := h
  obtain ⟨ha, rfl⟩ := Prod.mk.inj hrun
  exact ⟨r.2, Prod.ext ha rfl, rfl⟩

theorem enter {k : ScopeId} (h : Gives (Action.enter k x) s a t) :
    ∃ u, Gives x { s with env := { s.env with inner := k :: s.env.inner } } a u ∧
      t = { u with env := { u.env with inner := s.env.inner } } :=
  withInner h.get_bind

theorem keepingCursor (h : Gives (Lower.keepingCursor x) s a t) :
    ∃ u, Gives x s a u ∧ t = { u with cursor := s.cursor, frame := s.frame } := by
  let r := x.run s
  have hrun : (r.1, { r.2 with cursor := s.cursor, frame := s.frame }) = (.ok a, t) := h
  obtain ⟨ha, rfl⟩ := Prod.mk.inj hrun
  exact ⟨r.2, Prod.ext ha rfl, rfl⟩

theorem of_reads {P : α → Prop} (h : Gives x s a t) (hr : Reads s x P) : s = t ∧ P a := by
  obtain ⟨rfl, ha⟩ := Ends.of_run_ok (Q := fun a t => t = s ∧ P a) hr h
  exact ⟨rfl, ha⟩

theorem of_works {Q : α → State → Prop} (h : Gives x s a t) (hw : Works p M s x Q)
    (hs : Reachable p s) (ho : M.Admits p s) :
    Reach p M s t ∧ Q a t :=
  (hw hs ho).of_run_ok h

theorem bindName {k : ScopeId} {name : String} {b : Binding Value} {c : PUnit}
    (h : Gives (Action.bindName k name b) s c t) : s.env.lookupIn k name = none ∧
      t = { s with env := s.env.modifyScope k fun sc =>
        { sc with bindings := sc.bindings ++ [(name, b)] } } := by
  obtain ⟨e, u, hget, hrest⟩ := bind h
  obtain ⟨rfl, rfl⟩ := pure hget.get_bind
  obtain ⟨e, u', hset, hlast⟩ := bind hrest
  obtain ⟨he, rfl⟩ := hset.ofCause
  obtain rfl := modify hlast
  obtain ⟨hnew, rfl⟩ := of_set he
  exact ⟨hnew, rfl⟩

theorem createScope {name : String} {o? : Option Origin} {k : ScopeId}
    (h : Gives (Action.createScope name o?) s k t) :
    k = s.env.scopes.length ∧
    t = { s with env := { s.env with scopes := s.env.scopes ++ [.fresh name o?] } } := by
  obtain ⟨e, u, hget, hrest⟩ := bind h
  obtain ⟨rfl, rfl⟩ := pure hget.get_bind
  obtain ⟨_, u', hset, hlast⟩ := bind hrest
  obtain rfl := modify hset
  obtain ⟨rfl, rfl⟩ := hlast.pure
  exact ⟨rfl, rfl⟩

theorem withScope {name : String} {body : ScopeId → Lower α}
    (h : Gives (Action.withScope name body) s a t) :
    ∃ u, Gives (body s.env.scopes.length) { s with env :=
        ⟨s.env.scopes ++ [.fresh name none], s.env.scopes.length :: s.env.inner⟩ } a u ∧
      t = { u with env := { u.env with inner := s.env.inner } } := by
  obtain ⟨k, s₁, h₁, h₂⟩ := bind h
  obtain ⟨rfl, rfl⟩ := h₁.createScope
  exact h₂.enter

/-! ### Code -/

theorem emit {op : Op} {ty : Ty} {v : Value} (h : Gives (Lower.emit op ty) s v t) :
    (∃ i, v = .inst s.cursor.func i ty) ∧ t.module.records = s.module.records := by
  obtain ⟨fn, u, hfn, h⟩ := bind h.get_bind
  obtain ⟨-, rfl⟩ := hfn.func
  obtain ⟨_, u', hmod, h⟩ := bind h
  obtain rfl := modify hmod
  obtain ⟨rfl, rfl⟩ := pure h
  exact ⟨⟨_, rfl⟩, rfl⟩

/-- A store that gave an answer was emitted. -/
theorem store {v a : Value} {u : Unit} (h : Gives (Lower.store v a) s u t) :
    ∃ w, Gives (Lower.emit (.store v a) .void) s w t := by
  unfold Lower.store at h
  split at h
  · have h := h.get_bind
    split at h
    · obtain ⟨_, _, hcrash, -⟩ := bind h
      exact hcrash.not_throw.elim
    · exact h.discard
  · exact h.not_throw.elim

theorem terminate {e : Terminator} {u : Unit} {fn : Func} {b : Ir.Block} (hs : s.Sound)
    (hf : s.module.func? s.cursor.func = some fn) (hb : fn.IsBody b)
    (h : Gives (Lower.terminate e) s u t) :
    t = { s with module := s.module.setBody s.cursor.func { b with term? := some e } } := by
  rw [modify h.get_bind, hs.cursor_eq]
  dsimp only
  rw [modifyBlock_eq hf hb fun b => { b with term? := some e }]

end Gives

/-! ## What lasts -/

section
variable {p : Program} {s t : State}

def HasBody (m : Module) (f : FuncId) (code : List (InstId × Op)) (e : Terminator) : Prop :=
  ∃ fn b, m.func? f = some fn ∧ fn.IsBody b ∧ b.code = code ∧ b.term? = some e

theorem HasBody.setBody {m : Module} {f g : FuncId} {fn : Func} {b b' : Ir.Block}
    {code : List (InstId × Op)}
    {e : Terminator} (h : HasBody m f code e) (hg : m.func? g = some fn) (hb : fn.IsBody b)
    (hopen : b.term? = none) : HasBody (m.setBody g b') f code e := by
  obtain ⟨fn', c, hf, hc, hcode, hterm⟩ := h
  have hne : g ≠ f := by
    rintro rfl
    obtain rfl := Option.some.inj (hf.symm.trans hg)
    obtain rfl : c = b := by simpa using (show fn'.blocks = [c] from hc).symm.trans hb
    simp [hopen] at hterm
  exact ⟨fn', c, by rw [Module.func?_setBody_of_ne hne, hf], hc, hcode, hterm⟩

theorem HasBody.of_eq {m m' : Module} {f : FuncId} {code : List (InstId × Op)} {e : Terminator}
    (h : HasBody m f code e) (hm : m'.func? f = m.func? f) : HasBody m' f code e := by
  obtain ⟨fn, b, hf, hb⟩ := h
  exact ⟨fn, b, hm ▸ hf, hb⟩

theorem HasBody.sameCode {m m' : Module} {f : FuncId} {code : List (InstId × Op)} {e : Terminator}
    (h : HasBody m f code e) (hm : m.SameCode m') : HasBody m' f code e := by
  obtain ⟨fn, b, hf, hb, rfl, ht⟩ := h
  obtain ⟨fn', hf', ho⟩ := hm.func? hf
  obtain ⟨b', hb', hob⟩ := Func.body_of_outline ho hb
  exact ⟨fn', b', hf', hb', congrArg (·.2.1) hob, (congrArg (·.2.2) hob).trans ht⟩

theorem Change.hasBody (h : Change p s t) {f : FuncId} {code : List (InstId × Op)} {e : Terminator}
    (hb : HasBody s.module f code e) : HasBody t.module f code e := by
  cases h with
  | declare fn =>
    obtain ⟨fn', b, hf, hb⟩ := hb
    refine ⟨fn', b, ?_, hb⟩
    simp only [Module.func?] at hf ⊢
    rw [List.getElem?_append_left (List.getElem?_eq_some_iff.1 hf).1, hf]
  | «open» g fn isConstructor hg hblocks =>
    obtain ⟨fn', c, hf, hc, hbody⟩ := hb
    have hne : g ≠ f := by
      rintro rfl
      obtain rfl := Option.some.inj (hf.symm.trans hg)
      rw [show fn'.blocks = [c] from hc] at hblocks
      cases hblocks
    exact ⟨fn', c, by rw [Module.func?_setBody_of_ne hne, hf], hc, hbody⟩
  | emit fn b op hg hbody hopen | slot fn b name t hg hbody hopen | terminate fn b t hg hbody hopen
  | finish fn b hg hbody hopen =>
    exact hb.setBody hg hbody hopen
  | call fn callee b x r g args hg hbody hopen => exact hb.setBody hg hbody hopen
  | name f i name => exact hb.sameCode (s.module.sameCode_rename f i _)
  | number m hm => exact hb.sameCode hm.sameCode
  | _ => exact hb.of_eq rfl

theorem Changes.hasBody (h : Changes p s t) {f : FuncId} {code : List (InstId × Op)}
    {e : Terminator} (hb : HasBody s.module f code e) : HasBody t.module f code e := by
  induction h with
  | refl => exact hb
  | tail _ hc ih => exact hc.hasBody ih

end

end CheckedIR.Lowering

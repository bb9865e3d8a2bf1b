import CheckedIR.Proofs.Lowering.Lasting

/-!
# What lowering spares

Lowering a body adds to the function that is being emitted, as long as its block is open, and
declares and emits other functions. It leaves every function that was there before as it was,
however it ends. A body has ended when its block has a terminator, and nothing of it is lowered
after that.
-/

namespace CheckedIR

namespace Ir.Module

/-- Of the functions of a module only `f` may differ in the other one, up to names and numbers
inside functions. -/
structure Spares (m : Module) (f : FuncId) (m' : Module) : Prop where
  length : m.funcs.length ≤ m'.funcs.length
  same : ∀ g < m.funcs.length, g ≠ f → (m'.func? g).map Func.outline = (m.func? g).map Func.outline

namespace Spares

variable {m m' m'' : Module} {f g : FuncId}

theorem refl (m : Module) (f : FuncId) : m.Spares f m := ⟨Nat.le_refl _, fun _ _ _ => rfl⟩

theorem trans (h : m.Spares f m') (h' : m'.Spares f m'') : m.Spares f m'' :=
  ⟨Nat.le_trans h.length h'.length, fun g hg hne =>
    (h'.same g (Nat.lt_of_lt_of_le hg h.length) hne).trans (h.same g hg hne)⟩

theorem of_funcs_eq (h : m'.funcs = m.funcs) : m.Spares f m' :=
  ⟨Nat.le_of_eq (by rw [h]), fun g _ _ => by rw [Module.func?, h]; rfl⟩

theorem of_sameCode (h : m.SameCode m') : m.Spares f m' := by
  refine ⟨Nat.le_of_eq h.length_eq.symm, fun g _ _ => ?_⟩
  have := congrArg (·[g]?) h.funcs
  simpa [Module.func?] using this

theorem declared (fn : Func) : m.Spares f { m with funcs := m.funcs ++ [fn] } := by
  refine ⟨by simp, fun g hg _ => ?_⟩
  simp only [Module.func?]
  rw [List.getElem?_append_left hg]

theorem modifyFunc (f : FuncId) (k : Func → Func) : m.Spares f (m.modifyFunc f k) := by
  refine ⟨by simp [Module.modifyFunc], fun g _ hne => ?_⟩
  rw [func?_modifyFunc, if_neg (Ne.symm hne)]

theorem of_fresh (h : m.Spares f m') (hf : m.funcs.length ≤ f) : m.Spares g m' :=
  ⟨h.length, fun j hj _ => h.same j hj (Nat.ne_of_lt (Nat.lt_of_lt_of_le hj hf))⟩

theorem outline_eq {fn : Func} (h : m.Spares f m') (hg : m.func? g = some fn) (hne : g ≠ f) :
    ∃ fn', m'.func? g = some fn' ∧ fn'.outline = fn.outline := by
  have hsame := h.same g (List.getElem?_eq_some_iff.1 hg).1 hne
  rw [hg, Option.map_some] at hsame
  obtain ⟨fn', hg', ho⟩ := Option.map_eq_some_iff.1 hsame
  exact ⟨fn', hg', ho⟩

theorem isOpen (h : m.Spares f m') (ho : m.IsOpen g) (hne : g ≠ f) : m'.IsOpen g := by
  obtain ⟨fn, b, hf, hb, ht⟩ := ho
  obtain ⟨fn', hf', hof⟩ := h.outline_eq hf hne
  obtain ⟨b', hb', hob⟩ := Func.body_of_outline hof hb
  have hterm : b'.term? = b.term? := congrArg (·.2.2) hob
  exact ⟨fn', b', hf', hb', hterm.trans ht⟩

end Spares

/-! ### Blocks that have ended -/

def EndsAt (m : Module) (f : FuncId) (k : Nat) (code : List (InstId × Op)) (e : Terminator) :
    Prop :=
  ∃ fn b, m.func? f = some fn ∧ fn.blocks[k]? = some b ∧ b.code = code ∧ b.term? = some e

/-- Every block that has ended in the first module is there in the other one, with the same code and
terminator. -/
def Freezes (m m' : Module) : Prop := ∀ f k code e, m.EndsAt f k code e → m'.EndsAt f k code e

variable {m m' m'' : Module} {f : FuncId} {k : Nat} {code : List (InstId × Op)} {e : Terminator}

theorem EndsAt.of_outline {fn fn' : Func} (h : m.EndsAt f k code e) (hf : m.func? f = some fn)
    (hf' : m'.func? f = some fn') (ho : fn'.outline = fn.outline) : m'.EndsAt f k code e := by
  obtain ⟨fn₁, b, hf₁, hb, rfl, hterm⟩ := h
  obtain rfl := Option.some.inj (hf₁.symm.trans hf)
  have hblocks := congrArg (·[k]?) (Func.outline_eq ho).2.2
  simp only [List.getElem?_map, hb, Option.map_some] at hblocks
  obtain ⟨b', hb', hob⟩ := Option.map_eq_some_iff.1 hblocks
  exact ⟨fn', b', hf', hb', congrArg (·.2.1) hob, (congrArg (·.2.2) hob).trans hterm⟩

theorem EndsAt.not_isOpen (h : m.EndsAt f k code e) (ho : m.IsOpen f) : False := by
  obtain ⟨fn, b, hf, hb, -, hterm⟩ := h
  obtain ⟨fn', b', hf', hb', hopen⟩ := ho
  obtain rfl := Option.some.inj (hf.symm.trans hf')
  rw [show fn.blocks = [b'] from hb'] at hb
  rw [List.mem_singleton.1 (List.mem_of_getElem? hb), hopen] at hterm
  cases hterm

theorem Freezes.refl (m : Module) : m.Freezes m := fun _ _ _ _ => id

theorem Freezes.trans (h : m.Freezes m') (h' : m'.Freezes m'') : m.Freezes m'' :=
  fun f k code e he => h' f k code e (h f k code e he)

theorem SameCode.freezes (h : m.SameCode m') : m.Freezes m' := by
  intro f k code e he
  obtain ⟨fn, b, hf, -⟩ := id he
  obtain ⟨fn', hf', ho⟩ := h.func? hf
  exact he.of_outline hf hf' ho

/-- Nothing that has ended changes while an open function is lowered. -/
theorem Spares.freezes (h : m.Spares f m') (ho : m.IsOpen f) : m.Freezes m' := by
  intro g k code e he
  obtain ⟨fn, b, hf, -⟩ := id he
  have hne : g ≠ f := by
    rintro rfl
    exact he.not_isOpen ho
  obtain ⟨fn', hf', houtline⟩ := h.outline_eq hf hne
  exact he.of_outline hf hf' houtline

theorem Spares.freezes_of_fresh (h : m.Spares f m') (hf : m.funcs.length ≤ f) : m.Freezes m' := by
  intro g k code e he
  obtain ⟨fn, b, hg, -⟩ := id he
  obtain ⟨fn', hg', houtline⟩ :=
    h.outline_eq hg (Nat.ne_of_lt (Nat.lt_of_lt_of_le (List.getElem?_eq_some_iff.1 hg).1 hf))
  exact he.of_outline hg hg' houtline

end Ir.Module

namespace Lowering

open CheckedIR.Ir CheckedIR.Program CheckedIR.Scope CheckedIR.Scope.Action

/-! ## Statements -/

/-- In the body of function `f` property `I` holds before each statement, and `J` holds in any case:
a statement may end the body. -/
structure IsBodyOf (f : FuncId) (I J : State → Prop) : Prop where
  weaker : ∀ t, I t → J t
  hides : ∀ t, I t → t.env.HidesGlobal
  frame : ∀ t, I t → t.frame.func = f
  ends : ∀ t e, I t → f ≠ Lower.entryFunc → J ((Lower.terminate e).run t).2
  resumes : ∀ t b, J t → Gives Lower.isTerminated t b t →
    (b && decide (t.frame.func ≠ Lower.entryFunc)) = false → I t

section
variable {α : Type} {I J : State → Prop} {p : Program} {emitFunction : Emitter} {s t : State}

theorem Gives.namespaceOf_ne {decl : Node} {name : String} {container ns : ScopeId}
    (hs : s.env.HidesGlobal)
    (h : Gives (Lower.namespaceOf decl name container) s ns t) : ns ≠ Environment.global := by
  obtain ⟨b?, u, hb, h⟩ := h.bind
  obtain ⟨rfl, rfl⟩ := hb.get_bind.pure
  split at h
  · rename_i k hk
    obtain ⟨rfl, -⟩ := h.pure
    intro he
    exact hs.hidden container name (Option.bind_eq_some_iff.2 ⟨_, hk, congrArg some he⟩)
  · obtain ⟨k, u, hk, h⟩ := h.bind
    obtain ⟨rfl, -⟩ := hk.createScope
    obtain ⟨-, v, -, h⟩ := h.bind
    obtain ⟨rfl, -⟩ := h.pure
    exact Nat.ne_of_gt hs.pos

theorem withScope_leads [Stable I] [Stable J] {name : String} {body : ScopeId → Lower α}
    (hIJ : ∀ t, I t → J t)
    (hides : ∀ t, I t → t.env.HidesGlobal) (h : ∀ k t, k ≠ Environment.global →
      Leads I J t (body k)) : Leads I J s (Action.withScope name body) := by
  intro hs
  refine Leads.bind_gives createScope_leads hIJ (fun k t hk => ?_) hs
  obtain ⟨rfl, -⟩ := hk.createScope
  exact .enter fun u => h _ u (Nat.ne_of_gt (hides s hs).pos)

theorem atTop_leads {k : ScopeId} {x : Lower α} (htop : k = Environment.global →
    ∀ t, Leads I I t Lower.moveToEntry)
    (hIJ : ∀ t, I t → J t) (h : ∀ t, Leads I J t x) : Leads I J s (do
      if k = Environment.global then Lower.moveToEntry
      x) := by
  dsimp only
  split
  · rename_i hk
    exact .bind_to (htop hk s) hIJ fun _ t => h t
  · exact h s

theorem declareVariable_leads [Lasting I] (hem : EmitterLeads I emitFunction) {isConst : Bool}
    {k : ScopeId} {d : Variable} :
    Leads I I s (Lower.declareVariable p emitFunction isConst k d) := by
  unfold Lower.declareVariable
  split
  · exact .bind .orCrash fun _ _ => .refuseAt
  · refine .bind (rvalue_leads hem _) fun v _ => ?_
    split
    · exact .bind nameResult_leads fun _ _ => .bind (.orAt bindValue_leads) fun _ _ =>
        noteVariable_leads
    · exact .bind newSlot_leads fun _ _ => .bind store_leads fun _ _ =>
        .bind (.orAt bindValue_leads) fun _ _ => noteVariable_leads

theorem returnFrom_leads [Lasting I] {f : FuncId} (hbody : IsBodyOf f I J)
    (hem : EmitterLeads I emitFunction) {i : NodeInfo}
    {e? : Option Expr} : Leads I J s (Lower.returnFrom p emitFunction i e?) := by
  intro hs
  have hframe := hbody.frame s hs
  have refused {β : Type} {c : Cause} {k : β → Lower Unit} (t : State) :
      Leads I J t (Lower.refuseAt c i.span >>= k) :=
    .bind_gives .refuseAt hbody.weaker fun _ _ h => h.not_refuseAt.elim
  have ends (e : Terminator) (t : State) (hne : s.frame.func ≠ Lower.entryFunc) :
      Leads I J t (Lower.terminate e) :=
    fun ht => hbody.ends t e ht (hframe ▸ hne)
  refine Leads.get_bind ?_ hs
  cases e? with
  | none =>
    dsimp only
    split
    · exact .bind_to .orCrash hbody.weaker fun _ t => refused t
    · exact ends _ s (by assumption)
  | some e =>
    dsimp only
    split
    · exact .bind_to .orCrash hbody.weaker fun _ t => refused t
    · exact .bind_to (rvalue_leads hem e) hbody.weaker fun _ t => ends _ t (by assumption)

mutual

theorem statement_leads [Lasting I] [Stable J] {f : FuncId} (hbody : IsBodyOf f I J)
    (hem : EmitterLeads I emitFunction) :
    (st : Stmt) →
    ∀ {s : State} {k : ScopeId}, (k = Environment.global → ∀ t, Leads I I t Lower.moveToEntry) →
      Leads I J s (Lower.statement p emitFunction k st)
  | .endOfFile _, s, k, _ => hbody.weaker s
  | .function .., s, k, _ => hbody.weaker s
  | .classDecl i name params isAmbient members, s, k, _ => by
    rw [Lower.statement]
    split
    · exact .bind_to debug_leads hbody.weaker fun _ t => hbody.weaker t
    · exact classScope_leads.mono (fun _ => id) hbody.weaker
  | .interfaceDecl i name params members, s, k, _ =>
    .bind_to interfaceScope_leads hbody.weaker fun _ t => hbody.weaker t
  | .namespaceDecl i name isAmbient body, s, k, _ => by
    rw [Lower.statement]
    intro hs
    refine Leads.bind_gives namespaceOf_leads hbody.weaker (fun ns t hns => ?_) hs
    have hne := hns.namespaceOf_ne (hbody.hides s hs)
    exact .bind_to (.enter fun u => (statements_leads hbody hem body fun he => absurd he hne).mono
      hbody.weaker fun _ => id) (fun _ => id) fun _ _ => .pure
  | .variableDecl i isConst ds, s, k, htop => by
    rw [Lower.statement]
    exact atTop_leads htop hbody.weaker fun _ =>
      .bind_to (.forM fun d _ _ => declareVariable_leads hem) hbody.weaker fun _ t => hbody.weaker t
  | .expression i e, s, k, htop => by
    rw [Lower.statement]
    exact atTop_leads htop hbody.weaker fun _ =>
      .bind_to (.discard (lvalue_leads hem e)) hbody.weaker fun _ t => hbody.weaker t
  | .block (.mk i ss), s, k, htop => by
    rw [Lower.statement]
    refine atTop_leads htop hbody.weaker fun _ =>
      .bind_to (withScope_leads hbody.weaker hbody.hides fun inner u hne => ?_)
      (fun _ => id) fun _ _ => .pure
    exact (statements_leads hbody hem ss fun he => absurd he hne).mono hbody.weaker fun _ => id
  | .ret i e, s, k, htop => by
    rw [Lower.statement]
    exact atTop_leads htop hbody.weaker fun _ =>
      .bind_to (returnFrom_leads hbody hem) (fun _ => id) fun _ _ => .pure
  | .ifElse .., s, k, htop => by
    rw [Lower.statement]
    exact atTop_leads htop hbody.weaker fun t => hbody.weaker t
  | .whileLoop .., s, k, htop => by
    rw [Lower.statement]
    exact atTop_leads htop hbody.weaker fun t => hbody.weaker t
  | .unknown .., s, k, _ => hbody.weaker s

/-- What follows the end of a body is dropped, so only the property holds that holds in any case. -/
theorem statements_leads [Lasting I] [Stable J] {f : FuncId} (hbody : IsBodyOf f I J)
    (hem : EmitterLeads I emitFunction) :
    (ss : List Stmt) →
    ∀ {s : State} {k : ScopeId}, (k = Environment.global → ∀ t, Leads I I t Lower.moveToEntry) →
      Leads J J s (Lower.statements p emitFunction k ss)
  | [], s, k, _ => .pure
  | st :: ss, s, k, htop => by
    rw [Lower.statements]
    intro hs
    refine Leads.bind_gives isTerminated_leads (fun _ => id) (fun ended t ht => ?_) hs
    have heq : t = s := by
      obtain ⟨fn, u, hfn, ht⟩ := ht.get_bind.bind
      obtain ⟨-, rfl⟩ := hfn.func
      exact ht.pure.2.symm
    subst heq
    refine .get_bind ?_
    split
    · exact .bind debug_leads fun _ _ => .pure
    · rename_i hlive
      have hI := hbody.resumes t ended hs ht (Bool.not_eq_true _ ▸ hlive)
      intro _
      refine Leads.bind_to (I := I) (statement_leads hbody hem st htop) (fun _ => id)
        (fun outcome _ => ?_) hI
      split
      · exact .bind .orCrash fun _ _ => .bind warn_leads fun _ _ =>
          statements_leads hbody hem ss htop
      · exact statements_leads hbody hem ss htop

end

end

/-! ## Bodies -/

/-- Lowering is inside the body of function `f`, and of the functions of `m` no other one has
changed. The body may have ended, but the entry function has not. -/
structure Inside (m : Module) (f : FuncId) (t : State) : Prop where
  cursor : t.cursor = ⟨f, 0⟩
  frame : t.frame.func = f
  hides : t.env.HidesGlobal
  spares : m.Spares f t.module
  body : ∃ fn b, t.module.func? f = some fn ∧ fn.IsBody b ∧ (f = Lower.entryFunc → b.term? = none)

structure Working (m : Module) (f : FuncId) (t : State) : Prop extends Inside m f t where
  isOpen : t.module.IsOpen f

structure Outside (m : Module) (t : State) : Prop where
  hides : t.env.HidesGlobal
  spares : m.Spares m.funcs.length t.module

structure Declared (m : Module) (f : FuncId) (t : State) : Prop where
  hides : t.env.HidesGlobal
  spares : m.Spares f t.module
  empty : ∃ fn, t.module.func? f = some fn ∧ fn.blocks = []

section
variable {m : Module} {f : FuncId} {s t : State}

theorem Inside.lt (h : Inside m f s) : f < s.module.funcs.length := by
  obtain ⟨fn, b, hf, -⟩ := h.body
  exact (List.getElem?_eq_some_iff.1 hf).1

theorem Inside.outside (hf : m.funcs.length ≤ f) (h : Inside m f t) : Outside m t :=
  ⟨h.hides, h.spares.of_fresh hf⟩

theorem Declared.outside (hf : m.funcs.length ≤ f) (h : Declared m f t) : Outside m t :=
  ⟨h.hides, h.spares.of_fresh hf⟩

theorem Inside.spared (h : Inside m f s) (hcursor : t.cursor = s.cursor)
    (hframe : t.frame.func = s.frame.func)
    (hides : t.env.HidesGlobal) (hspares : ∀ g, s.module.Spares g t.module) : Inside m f t := by
  obtain ⟨fn, b, hfn, hb, hterm⟩ := h.body
  obtain ⟨fn', hfn', ho⟩ := (hspares (f + 1)).outline_eq hfn (Nat.ne_of_lt (Nat.lt_succ_self f))
  obtain ⟨b', hb', hob⟩ := Func.body_of_outline ho hb
  have heq : b'.term? = b.term? := congrArg (·.2.2) hob
  exact ⟨hcursor.trans h.cursor, hframe.trans h.frame, hides, h.spares.trans (hspares f), fn',
    b', hfn', hb', fun he => heq.trans (hterm he)⟩

theorem Working.spared (h : Working m f s) (hcursor : t.cursor = s.cursor)
    (hframe : t.frame.func = s.frame.func)
    (hides : t.env.HidesGlobal) (hspares : ∀ g, s.module.Spares g t.module) : Working m f t :=
  ⟨h.toInside.spared hcursor hframe hides hspares,
    (hspares (f + 1)).isOpen h.isOpen (Nat.ne_of_lt (Nat.lt_succ_self f))⟩

instance : Stable (Inside m f) where
  beside _ _ ht h := h.spared ht.cursor (by rw [ht.frame]) (ht.env ▸ h.hides) fun _ =>
    .of_funcs_eq ht.funcs
  named _ _ hm h := h.spared rfl rfl h.hides fun _ => .of_sameCode hm
  declared _ fn _ h := h.spared rfl rfl h.hides fun _ => .declared fn
  env _ _ he h := h.spared rfl rfl (he h.hides) fun _ => .refl _ _

instance : Stable (Outside m) where
  beside _ _ ht h := ⟨ht.env ▸ h.hides, h.spares.trans (.of_funcs_eq ht.funcs)⟩
  named _ _ hm h := ⟨h.hides, h.spares.trans (.of_sameCode hm)⟩
  declared _ fn _ h := ⟨h.hides, h.spares.trans (.declared fn)⟩
  env _ _ he h := ⟨he h.hides, h.spares⟩

instance : Stable (Declared m f) where
  beside s t ht h := by
    obtain ⟨fn, hf, hfn⟩ := h.empty
    refine ⟨ht.env ▸ h.hides, h.spares.trans (.of_funcs_eq ht.funcs), fn, ?_, hfn⟩
    rw [Module.func?, ht.funcs]
    exact hf
  named s m' hm h := by
    obtain ⟨fn, hf, hfn⟩ := h.empty
    obtain ⟨fn', hf', ho⟩ := hm.func? hf
    refine ⟨h.hides, h.spares.trans (.of_sameCode hm), fn', hf', ?_⟩
    have hblocks := (Func.outline_eq ho).2.2
    rw [hfn] at hblocks
    exact List.map_eq_nil_iff.1 hblocks
  declared s fn _ h := by
    obtain ⟨fn', hf, hfn⟩ := h.empty
    refine ⟨h.hides, h.spares.trans (.declared fn), fn', ?_, hfn⟩
    simp only [Module.func?] at hf ⊢
    rw [List.getElem?_append_left (List.getElem?_eq_some_iff.1 hf).1, hf]
  env s e he h := ⟨he h.hides, h.spares, h.empty⟩

theorem Working.grown {c : Cursor} {k : Ir.Block → Ir.Block} (h : Working m f s)
    (hc : c = s.cursor ∨ c = ⟨s.frame.func, 0⟩) (hk : Ir.Block.KeepsEnd k) :
    Working m f { s with module := s.module.modifyFunc c.func fun g =>
      { g with blocks := g.blocks.modify c.block k } } := by
  have hcursor : c = ⟨f, 0⟩ := by
    rcases hc with rfl | rfl
    · exact h.cursor
    · rw [h.frame]
  subst hcursor
  obtain ⟨fn, b, hf, hb, hopen⟩ := h.isOpen
  have hterm : (k b).term? = none := (hk b).trans hopen
  dsimp only
  rw [modifyBlock_eq hf hb k]
  have hbody : (s.module.setBody f (k b)).func? f = some { fn with blocks := [k b] } :=
    Module.func?_modifyFunc_self _ hf
  refine ⟨⟨h.cursor, h.frame, h.hides, h.spares.trans (.modifyFunc f _), _, k b, hbody, rfl,
    fun _ => hterm⟩, ?_⟩
  exact ⟨_, k b, hbody, rfl, hterm⟩

instance : Lasting (Working m f) where
  beside _ _ ht h := h.spared ht.cursor (by rw [ht.frame]) (ht.env ▸ h.hides) fun _ =>
    .of_funcs_eq ht.funcs
  named _ _ hm h := h.spared rfl rfl h.hides fun _ => .of_sameCode hm
  declared _ fn _ h := h.spared rfl rfl h.hides fun _ => .declared fn
  env _ _ he h := h.spared rfl rfl (he h.hides) fun _ => .refl _ _
  grown _ _ _ hc hk h := h.grown hc hk

theorem Inside.terminated {e : Terminator} (h : Inside m f s) (hne : f ≠ Lower.entryFunc) :
    Inside m f ((Lower.terminate e).run s).2 := by
  obtain ⟨fn, b, hf, hb, -⟩ := h.body
  have hrun : ((Lower.terminate e).run s).2 =
      { s with module := s.module.setBody f { b with term? := some e } } := by
    rw [← modifyBlock_eq hf hb fun b => { b with term? := some e }]
    change State.mk .. = _
    rw [h.cursor]
  rw [hrun]
  exact ⟨h.cursor, h.frame, h.hides, h.spares.trans (.modifyFunc f _), _, _,
    Module.func?_modifyFunc_self _ hf, rfl, fun he => absurd he hne⟩

theorem isBodyOf_working : IsBodyOf f (Working m f) (Inside m f) where
  weaker _ h := h.toInside
  hides _ h := h.hides
  frame _ h := h.frame
  ends _ _ h hne := h.toInside.terminated hne
  resumes t ended h ht hlive := by
    obtain ⟨fn, b, hf, hb, hentry⟩ := h.body
    refine ⟨h, fn, b, hf, hb, ?_⟩
    by_cases hne : f = Lower.entryFunc
    · exact hentry hne
    · obtain ⟨fn', u, hfn, ht⟩ := ht.get_bind.bind
      obtain ⟨hf', rfl⟩ := hfn.func
      obtain ⟨rfl, -⟩ := ht.pure
      rw [h.cursor] at hf'
      obtain rfl := Option.some.inj (hf.symm.trans hf')
      rw [h.frame, h.cursor, show fn.blocks = [b] from hb] at hlive
      simpa [hne] using hlive

/-! ## Emissions -/

def EmitterSpares (emitFunction : Emitter) : Prop :=
  ∀ m d owner? args s, 0 < m.funcs.length →
    Leads (Outside m) (Outside m) s (emitFunction d owner? args)

variable {p : Program} {emitFunction : Emitter}

theorem EmitterSpares.working (hem : EmitterSpares emitFunction) :
    EmitterLeads (Working m f) emitFunction := by
  intro d owner? args s h
  have hout := hem s.module d owner? args s (Nat.zero_lt_of_lt h.lt) ⟨h.hides, .refl _ _⟩
  exact h.spared rfl rfl hout.hides fun _ => hout.spares.of_fresh (Nat.le_refl _)

theorem storeProperty_leads {I : State → Prop} [Lasting I] {owner : TypeId} {r : RecordId}
    {this v : Value} {name : String} : Leads I I s (Lower.storeProperty p owner r this name v) := by
  unfold Lower.storeProperty
  split
  · exact .bind .answered fun _ _ => .refuse
  · exact .bind fieldAddress_leads fun _ _ => store_leads

theorem storeParams_leads {I : State → Prop} [Lasting I] {owner : TypeId} {r : RecordId}
    {this : Value} {qs : List Program.Param} :
    ∀ {s : State} {index : Nat}, Leads I I s (Lower.storeParams p f owner r this index qs) := by
  induction qs with
  | nil => exact .pure
  | cons q qs ih =>
    intro s index
    unfold Lower.storeParams
    split
    · refine .bind func_leads fun fn _ => ?_
      split
      · exact .bind storeProperty_leads fun _ _ => ih
      · exact ih
    · exact ih

theorem storeInitializers_leads {I : State → Prop} [Lasting I] (hem : EmitterLeads I emitFunction)
    {owner : TypeId} {r : RecordId} {this : Value} {ms : List Member} :
    ∀ {s : State}, Leads I I s (Lower.storeInitializers p emitFunction owner r this ms) := by
  induction ms with
  | nil => exact .pure
  | cons m ms ih =>
    intro s
    unfold Lower.storeInitializers
    split
    · exact .pure
    · rename_i heq
      obtain ⟨-, rfl⟩ := List.cons_eq_cons.1 heq
      exact .bind (rvalue_leads hem _) fun _ _ => .bind storeProperty_leads fun _ _ => ih
    · rename_i heq
      obtain ⟨-, rfl⟩ := List.cons_eq_cons.1 heq
      exact ih

theorem receive_leads {this : Value} : Leads (Working m f) (Working m f) s
    (modify fun s => { s with frame := { s.frame with this? := some this } }) := by
  intro h
  exact h.spared rfl rfl h.hides fun _ => .refl _ _

theorem constructObject_leads (hem : EmitterSpares emitFunction) {e : Emission} {k : ScopeId} :
    Leads (Working m f) (Working m f) s (Lower.constructObject p emitFunction e f k) := by
  refine .bind .orCrash fun ty _ => .bind .orCrash fun owner _ => .bind allocate_leads fun this _ =>
    .bind receive_leads fun _ _ => .bind bindValue_leads fun _ _ => ?_
  split
  · refine .bind storeParams_leads fun _ _ => ?_
    split
    · exact storeInitializers_leads hem.working
    · exact .pure
  · exact .crash

theorem statements_then_leads (hem : EmitterSpares emitFunction) {k : ScopeId} {ss : List Stmt}
    {x : Lower Unit} (hk : k ≠ Environment.global) (hx : ∀ t, Leads (Inside m f) (Inside m f) t x) :
    Leads (Inside m f) (Inside m f) s (do
      Lower.statements p emitFunction k ss
      if ! (← Lower.isTerminated) then x) := by
  refine .bind (statements_leads isBodyOf_working hem.working ss fun he => absurd he hk) fun _ _ =>
    .bind isTerminated_leads fun ended t => ?_
  split
  · exact hx t
  · exact .pure

/-- What is lowered in the new block of a declared function is lowered inside its body. -/
theorem run_newBlock_then {isConstructor : Bool} (h : Declared m f s) :
    ∃ t, Working m f t ∧ ∀ x : Lower Unit,
    (do let block ← Lower.newBlock f "entry"
        modify fun s => { s with cursor := ⟨f, block⟩, frame := ⟨f, none, isConstructor⟩ }
        x : Lower Unit).run s = x.run t := by
  obtain ⟨fn, hfn, hblocks⟩ := h.empty
  let b : Ir.Block := ⟨"entry", 0, [], none⟩
  let t : State := { s with
    module := s.module.modifyFunc f fun g => { g with blocks := g.blocks ++ [b] }
    cursor := ⟨f, 0⟩
    frame := ⟨f, none, isConstructor⟩ }
  have hbody : t.module.func? f = some { fn with blocks := fn.blocks ++ [b] } :=
    Module.func?_modifyFunc_self _ hfn
  have hopen : ({ fn with blocks := fn.blocks ++ [b] } : Func).IsBody b := by
    rw [Func.IsBody, hblocks]
    rfl
  refine ⟨t, ⟨⟨rfl, rfl, h.hides, h.spares.trans (.modifyFunc f _), _, b, hbody, hopen,
    fun _ => rfl⟩, _, b, hbody, hopen, rfl⟩, fun x => ?_⟩
  rw [Lower.newBlock, bind_assoc, run_bind, run_func hfn]
  dsimp only
  rw [hblocks]
  rfl

theorem emitBody_leads (hem : EmitterSpares emitFunction) {e : Emission} {body : Program.Block}
    {k : ScopeId}
    (hf : m.funcs.length ≤ f) (hne : f ≠ Lower.entryFunc) (hk : k ≠ Environment.global) :
    Leads (Declared m f) (Outside m) s (Lower.emitBody p emitFunction e f body k) := by
  have weaker {s : State} {x : Lower Unit} (h : Leads (Inside m f) (Inside m f) s x) :
      Leads (Working m f) (Inside m f) s x :=
    h.mono (fun _ => Working.toInside) fun _ => id
  have ends (e : Terminator) (t : State) : Leads (Inside m f) (Inside m f) t (Lower.terminate e) :=
    fun ht => ht.terminated hne
  have returnThis (t : State) :
      Leads (Inside m f) (Inside m f) t (do Lower.terminate (.ret (← get).frame.this?)) :=
    .get_bind (ends _ t)
  have fallOff (t : State) : Leads (Inside m f) (Inside m f) t
      (do if (← Lower.func f).returns.isMatch (← get).module.records .void then
            Lower.terminate (.ret none)
          else Lower.terminate .unreachable) := by
    refine .bind func_leads fun _ t => .get_bind ?_
    split <;> exact ends _ t
  refine .bind_to func_leads (fun _ => Declared.outside hf) fun fn _ =>
    .bind_to bindParams_leads (fun _ => Declared.outside hf) fun _ t ht => ?_
  obtain ⟨u, hu, hrun⟩ := run_newBlock_then ht
  rw [hrun]
  refine Inside.outside hf (Leads.mono (I := Working m f) (J := Inside m f) ?_ (fun _ => id)
    (fun _ => id) hu)
  split
  · exact .bind_to (constructObject_leads hem) (fun _ => Working.toInside) fun _ _ =>
      weaker (statements_then_leads hem hk returnThis)
  · split
    · exact .bind_to func_leads (fun _ => Working.toInside) fun _ _ =>
        .bind_to .orCrash (fun _ => Working.toInside) fun _ _ =>
        .bind_to receive_leads (fun _ => Working.toInside) fun _ _ =>
          weaker (statements_then_leads hem hk fallOff)
    · exact weaker (statements_then_leads hem hk fallOff)

theorem emitDeclared_leads (hem : EmitterSpares emitFunction) {e : Emission}
    (hf : m.funcs.length ≤ f) (hne : f ≠ Lower.entryFunc) :
    Leads (Declared m f) (Outside m) s (emitDeclared p emitFunction e f) := by
  refine .bind_to debug_leads (fun _ => Declared.outside hf) fun _ _ => ?_
  split
  · exact fun h => h.outside hf
  · refine .bind_to
      (.detached fun _ => insideNamespaces_leads (fun _ => Declared.outside hf) fun _ =>
      withScope_leads (fun _ => Declared.outside hf) (fun _ h => h.hides) fun k _ hk =>
        emitBody_leads hem hf hne hk)
      (fun _ => id) fun _ _ => .bind verifyFunc_leads fun _ _ => .pure

theorem defineFunc_leads (hem : EmitterSpares emitFunction) {e : Emission} {returns : Ty}
    {params : List Ty} (hm : 0 < m.funcs.length) :
    Leads (Outside m) (Outside m) s (Lower.defineFunc p emitFunction e returns params) := by
  intro h
  have hlength := h.spares.length
  have hdeclared : Declared m s.module.funcs.length (e.declare returns params s) :=
    ⟨h.hides, (h.spares.of_fresh (Nat.le_refl _)).trans (.declared _), e.func returns params,
      List.getElem?_concat_length, rfl⟩
  have hrun : (Lower.defineFunc p emitFunction e returns params).run s =
      (emitDeclared p emitFunction e s.module.funcs.length).run (e.declare returns params s) := rfl
  rw [hrun]
  exact emitDeclared_leads hem hlength (Nat.ne_of_gt (Nat.lt_of_lt_of_le hm hlength)) hdeclared

/-- Emitting a function changes no function that there is, however deep emissions nest and however
they end. -/
theorem emitTo_spares (depth : Nat) : EmitterSpares (Lower.emitTo p depth) := by
  induction depth with
  | zero => exact fun _ _ _ _ _ _ => .throw
  | succ depth ih =>
    intro m d owner? args s hm
    unfold Lower.emitTo
    split
    · exact .refuseAt
    refine .bind .ofExcept fun name _ => .get_bind ?_
    split
    · exact .pure
    refine .bind declaringScope_leads fun parent _ => ?_
    have bound {g : FuncId} {t : State} : Leads (Outside m) (Outside m) t
        (do let base ← Lower.orCrash d.node.baseName
            Action.bindName parent base (.value (← Lower.funcValue g))
            return g) :=
      .bind .orCrash fun _ _ => .bind funcValue_leads fun _ _ =>
        .bind bindValue_leads fun _ _ => .pure
    dsimp only
    split
    · exact .bind builtin_leads fun _ _ => bound
    · rw [emitNew_eq]
      exact .bind (.bind emissionOf_leads fun _ _ => defineFunc_leads ih hm) fun _ _ => bound

/-! ## The top level -/

theorem moveToEntry_leads :
    Leads (Working m Lower.entryFunc) (Working m Lower.entryFunc) s Lower.moveToEntry := by
  intro h
  obtain ⟨fn, b, hf, hb, hopen⟩ := h.isOpen
  have hrun : Lower.moveToEntry.run s =
      (.ok (), { s with
        frame := ⟨Lower.entryFunc, none, false⟩,
        cursor := ⟨Lower.entryFunc, fn.blocks.length - 1⟩ }) := by
    rw [Lower.moveToEntry, run_bind, run_func hf]
    rfl
  rw [hrun, show fn.blocks = [b] from hb]
  exact ⟨⟨rfl, rfl, h.hides, h.spares, h.body⟩, h.isOpen⟩

theorem topStatements_leads {depth : Nat} (ss : List Stmt) :
    Leads (Working m Lower.entryFunc) (Working m Lower.entryFunc) s
    (Lower.statements p (Lower.emitTo p depth) Environment.global ss) := by
  intro h
  have ht : Inside m Lower.entryFunc
      ((Lower.statements p (Lower.emitTo p depth) Environment.global ss).run s).2 :=
    statements_leads isBodyOf_working (emitTo_spares depth).working ss
      (fun _ _ => moveToEntry_leads) h.toInside
  obtain ⟨fn, b, hf, hb, hentry⟩ := ht.body
  exact ⟨ht, fn, b, hf, hb, hentry rfl⟩

structure State.IsIdle (t : State) : Prop where
  cursor : t.cursor = ⟨Lower.entryFunc, 0⟩
  frame : t.frame.func = Lower.entryFunc
  hides : t.env.HidesGlobal
  body : ∃ fn b, t.module.func? Lower.entryFunc = some fn ∧ fn.IsBody b ∧
    (t.isFinished = false → b.term? = none)

theorem State.IsIdle.working (h : s.IsIdle) (hlive : s.isFinished = false) :
    Working s.module Lower.entryFunc s := by
  obtain ⟨fn, b, hf, hb, hterm⟩ := h.body
  exact ⟨⟨h.cursor, h.frame, h.hides, .refl _ _, fn, b, hf, hb, fun _ => hterm hlive⟩, fn, b, hf,
    hb, hterm hlive⟩

theorem initial_idle (o : Options) : (State.initial o).IsIdle where
  cursor := rfl
  frame := rfl
  hides := by
    refine ⟨Nat.zero_lt_one, fun k name h => ?_⟩
    unfold Environment.lookupIn Environment.scope at h
    rcases k with _ | k <;> cases h
  body := ⟨_, _, rfl, rfl, fun _ => rfl⟩

def IdleAgain (m : Module) (t : State) : Prop := t.IsIdle ∧ m.Freezes t.module

theorem checkConfig_leads {I : State → Prop} : Leads I I s Lower.checkConfig := by
  refine .get_bind ?_
  split
  · exact .refuse
  · exact .pure

theorem IdleAgain.lowers {x : Lower Unit} (hlive : s.isFinished = false)
    (hx : Leads (Working s.module Lower.entryFunc) (Working s.module Lower.entryFunc) s x) :
    Leads (IdleAgain m) (IdleAgain m) s x := by
  intro hs
  have hwork := hs.1.working hlive
  have ht := hx hwork
  obtain ⟨fn, b, hf, hb, hopen⟩ := ht.isOpen
  exact ⟨⟨ht.cursor, ht.frame, ht.hides, fn, b, hf, hb, fun _ => hopen⟩,
    hs.2.trans (ht.spares.freezes hwork.isOpen)⟩

theorem generate_leads {file : SourceFile} :
    Leads (IdleAgain m) (IdleAgain m) s (Lower.generate p file) := by
  refine .bind checkConfig_leads fun _ t => .get_bind ?_
  dsimp only
  split
  · exact .bind_gives .refuse (fun _ => id) fun _ _ h => h.not_throw.elim
  · exact IdleAgain.lowers (Bool.eq_false_iff.2 (by assumption))
      (.bind debug_leads fun _ _ => topStatements_leads file.statements)

theorem verifyModule_leads : Leads (IdleAgain m) (IdleAgain m) s Lower.verifyModule := by
  have hcode := (verify_eqUpToNumbers s.module).sameCode
  refine .get_bind (.bind (fun hs => ?_) fun _ _ => .ofExcept)
  obtain ⟨⟨hcursor, hframe, hides, fn, b, hf, hb, hterm⟩, hfreezes⟩ := hs
  obtain ⟨fn', hf', ho⟩ := hcode.func? hf
  obtain ⟨b', hb', hob⟩ := Func.body_of_outline ho hb
  have heq : b'.term? = b.term? := congrArg (·.2.2) hob
  exact ⟨⟨hcursor, hframe, hides, fn', b', hf', hb', fun hlive => heq.trans (hterm hlive)⟩,
    hfreezes.trans hcode.freezes⟩

theorem finish_leads : Leads (IdleAgain m) (IdleAgain m) s Lower.finish := by
  refine .bind checkConfig_leads fun _ t => .get_bind ?_
  dsimp only
  split
  · rename_i hlive
    intro ht
    have hwork := ht.1.working (by simpa using hlive)
    obtain ⟨fn, b, hf, hb, hopen⟩ := hwork.isOpen
    let close (b : Ir.Block) : Ir.Block :=
      if b.term?.isSome then b else { b with term? := some (.ret (some (.const (.int 32 0)))) }
    let u : State :=
      { t with module := t.module.setBody Lower.entryFunc (close b), isFinished := true }
    have hbody : u.module.func? Lower.entryFunc = some { fn with blocks := [close b] } :=
      Module.func?_modifyFunc_self _ hf
    have hspares : t.module.Spares Lower.entryFunc u.module := .modifyFunc _ _
    have hidle : IdleAgain m u :=
      ⟨⟨ht.1.cursor, ht.1.frame, ht.1.hides, _, _, hbody, rfl, nofun⟩,
        ht.2.trans (hspares.freezes hwork.isOpen)⟩
    have hclosed :
        t.module.modifyFunc Lower.entryFunc
        (fun g => { g with blocks := g.blocks.modify 0 close }) = u.module :=
      modifyBlock_eq hf hb close
    have hrun : (do
        let last := (← Lower.func Lower.entryFunc).blocks.length - 1
        Lower.modifyBlock ⟨Lower.entryFunc, last⟩ close
        modify fun s => { s with isFinished := true }
        Lower.verifyModule : Lower Unit).run t = Lower.verifyModule.run u := by
      rw [run_bind, run_func hf]
      dsimp only
      rw [show fn.blocks = [b] from hb]
      change Lower.verifyModule.run
        { t with module := t.module.modifyFunc _ _, isFinished := true } = _
      exact congrArg (fun m => Lower.verifyModule.run { t with module := m, isFinished := true })
        hclosed
    rw [hrun]
    exact verifyModule_leads hidle
  · exact verifyModule_leads

end

end Lowering

end CheckedIR

import CheckedIR.Proofs.Lowering.Works

/-!
# How the actions on the state work

Instructions are added to the function at the cursor while its block has not ended. Bodies that run
elsewhere or in other scopes get back to where they started.
-/

namespace CheckedIR.Lowering

open CheckedIR.Ir CheckedIR.Program CheckedIR.Scope CheckedIR.Scope.Action

structure Ready (f : FuncId) (s : State) : Prop where
  here : s.cursor.func = f
  isOpen : s.module.IsOpen f

structure Usable (f : FuncId) (s : State) (v : Value) : Prop where
  fit : v.IsFit s.module
  isUsable : v.isUsableIn f = true

section
variable {p : Program} {M : Manner} {s t : State} {f : FuncId}

theorem Reach.ready (h : Reach p M s t) (hr : M.returns = true) (hc : M.continues = true)
    (hs : Ready f s) : Ready f t :=
  ⟨(h.place hr).1 ▸ hs.here, h.opened hc f hs.isOpen⟩

theorem Usable.mono {v : Value} (h : Usable f s v) (hc : Changes p s t) : Usable f t v :=
  ⟨h.fit.mono hc.grows, h.isUsable⟩

theorem usable_const {c : Const} (h : c.type.IsPlain s.module.records) : Usable f s (.const c) :=
  ⟨⟨trivial, h⟩, rfl⟩

theorem Ready.owns (h : Ready f s) : f < s.module.funcs.length := by
  obtain ⟨fn, b, hf, -⟩ := h.isOpen
  exact (List.getElem?_eq_some_iff.1 hf).1

theorem State.Sound.frame_func (hs : s.Sound) : s.frame.func = s.cursor.func := by
  rw [hs.place.cursor]

theorem State.Sound.cursor_eq (hs : s.Sound) : s.cursor = ⟨s.cursor.func, 0⟩ := by
  have := hs.place.cursor
  rw [← hs.frame_func, ← this]

/-! ## Reading -/

theorem func_reads : Reads s (Lower.func f) fun fn => s.module.func? f = some fn :=
  .get_bind (.orCrash fun _ => id)

def Ended (m : Module) (f : FuncId) : Prop := ∃ fn, m.func? f = some fn ∧ fn.isTerminated = true

theorem isTerminated_reads (hs : s.Sound) :
    Reads s Lower.isTerminated fun b =>
      (b = false → s.module.IsOpen s.cursor.func) ∧ (b = true → Ended s.module s.cursor.func) := by
  refine .get_bind (.bind func_reads fun fn hf => .pure ?_)
  obtain ⟨fn', b, hf', hbody⟩ := hs.place.body
  rw [hs.frame_func] at hf'
  obtain rfl := Option.some.inj (hf.symm.trans hf')
  have hblocks : fn.blocks = [b] := hbody
  rw [hs.cursor_eq, hblocks]
  refine ⟨fun h => ⟨fn, b, hf, hbody, by simpa using h⟩, fun h => ⟨fn, hf, ?_⟩⟩
  simpa [Func.isTerminated, hblocks] using h

theorem isString_reads {t : Ty} :
    Reads s (Lower.isString t) fun b => b = true ↔ ∃ r, t = .record r ∧
      s.stringRecord? = some r := by
  refine .get_bind ?_
  split
  · rename_i r r' hr
    refine .pure ⟨fun h => ⟨r, rfl, by rw [hr, eq_of_beq h]⟩, ?_⟩
    rintro ⟨q, hq, hs⟩
    obtain rfl := Ty.record.inj hq
    exact beq_iff_eq.2 (Option.some.inj (hs.symm.trans hr))
  · rename_i hno
    refine .pure ⟨fun h => (by cases h), ?_⟩
    rintro ⟨r, hr, hs⟩
    exact (hno r r hr hs).elim

theorem isValueType_reads (hs : s.Sound) {t : Ty} (ht : t.IsHeld s.module.records) :
    Reads s (Lower.isValueType t) fun b => b = true → t.IsPlain s.module.records := by
  unfold Lower.isValueType
  split
  · exact .pure fun _ => trivial
  · exact .pure fun _ => trivial
  · exact .pure fun _ => ht
  · refine Ends.mono isString_reads ?_ fun _ _ => id
    rintro b u ⟨rfl, hb⟩
    refine ⟨rfl, fun h => ?_⟩
    obtain ⟨r, hr, hstring⟩ := hb.1 h
    obtain ⟨rec, hrec, hn⟩ := hs.records.string r hstring
    rw [hr]
    exact ⟨rec, hrec, by rw [hn]; decide⟩
  · exact .pure fun h => by cases h

theorem typeText_reads {t : Ty} : Reads s (Lower.typeText t) fun _ => True :=
  .get_bind (.pure trivial)

theorem funcValue_reads {fn : Func} (hf : s.module.func? f = some fn) :
    Reads s (Lower.funcValue f) fun v => v = .func f (.pointer fn.signature) := by
  refine .bind func_reads fun fn' hf' => .pure ?_
  obtain rfl := Option.some.inj (hf.symm.trans hf')
  rfl

/-! ## Log and names -/

theorem debug_works {text : String} :
    Works p M s (Lower.debug text) fun _ u => u.module = s.module :=
  .modify (.log _) (fun ho hc => .aside hc ho ⟨rfl, rfl, rfl, rfl⟩ rfl ⟨rfl, rfl⟩ (.of_length rfl))
    rfl

theorem warn_works {text : String} : Works p M s (Lower.warn text) fun _ _ => True :=
  .modify (.log _) (fun ho hc => .aside hc ho ⟨rfl, rfl, rfl, rfl⟩ rfl ⟨rfl, rfl⟩ (.of_length rfl))
    trivial

theorem localName_works {name : String} (hname : p.Mentions name) :
    Works p M s (Lower.localName f name) fun _ u => 0 < u.given f name := by
  refine .get_bind fun _ => .bind (Q := fun _ u => 0 < u.given f name) ?_ fun _ _ _ _ h => .pure h
  have hgiven : 0 < ((s.giving f name).lookup (f, name)).getD 0 := by
    rw [State.given_giving]
    simp
  exact .modify (.claim f name hname) (fun ho hc => .aside hc ho ⟨rfl, rfl, rfl, rfl⟩ rfl ⟨rfl, rfl⟩
    (.of_length rfl)) hgiven

/-! ## Bodies -/

theorem isOpen_setBody {m : Module} {fn : Func} {b : Ir.Block} (hf : m.func? f = some fn)
    (hb : b.term? = none) {g : FuncId} (hg : m.IsOpen g) : (m.setBody f b).IsOpen g := by
  by_cases he : f = g
  · subst he
    exact ⟨_, b, Module.func?_setBody hf, rfl, hb⟩
  · obtain ⟨fn', b', hf', hb', ht⟩ := hg
    exact ⟨fn', b', by rw [Module.func?_setBody_of_ne he, hf'], hb', ht⟩

theorem Reach.setBody {fn : Func} {b : Ir.Block} (hc : Changes p s t) (ho : M.Admits p s)
    (hM : M.own? = some f) (hf : s.module.func? f = some fn) (ht : t.module = s.module.setBody f b)
    (hi : t.env.inner = s.env.inner)
    (hp : M.returns = true → t.cursor = s.cursor ∧ t.frame = s.frame)
    (hopen : M.continues = true → b.term? = none) (hstill : M.still = false)
    (hsilent : M.silent = false)
    (hv : t.declared = s.declared ∧ t.origins = s.origins) : Reach p M s t where
  changes := hc
  admits := ho
  others g hg hm := by
    have hne : f ≠ g := fun he => hm (he ▸ hM)
    rw [ht, Module.func?_setBody_of_ne hne]
  settled g fn' hg hf' := by
    rw [ht, Module.func?, List.getElem?_eq_none (by rw [Module.length_setBody]; exact hg)] at hf'
    cases hf'
  inner := hi
  declared g _ _ := by unfold State.variablesOf; rw [hv.1]
  place := hp
  opened h g hg := ht ▸ isOpen_setBody hf (hopen h) hg
  still h := by simp [hstill] at h
  silent h := by simp [hsilent] at h
  completes := .of_length (by rw [ht]; rfl)
  emitted g r hg := .inl (hv.2 ▸ hg)

theorem run_func {fn : Func} (hf : s.module.func? f = some fn) :
    (Lower.func f).run s = (.ok fn, s) := by
  unfold Lower.func
  rw [run_bind]
  change (Lower.orCrash (s.module.func? f)).run s = _
  rw [hf]
  rfl

theorem run_emit_func {op : Op} {ty : Ty} {fn : Func}
    (hf : s.module.func? s.cursor.func = some fn) :
    (Lower.emit op ty).run s = (.ok (.inst s.cursor.func fn.insts.length ty), { s with
      module := s.module.modifyFunc s.cursor.func fun g =>
        { g with blocks := g.blocks.modify s.cursor.block fun b =>
        { b with insts := b.insts ++ [⟨fn.insts.length, "", 0, op⟩] } } }) := by
  rw [Lower.emit, run_get_bind, run_bind, run_func hf]
  rfl

theorem modifyBlock_eq {m : Module} {fn : Func} {b : Ir.Block} (hf : m.func? f = some fn)
    (hb : fn.IsBody b) (k : Ir.Block → Ir.Block) :
    m.modifyFunc f (fun g => { g with blocks := g.blocks.modify 0 k }) = m.setBody f (k b) := by
  refine Module.modifyFunc_congr hf ?_
  rw [show fn.blocks = [b] from hb]
  rfl

theorem modifyBlock_works {fn : Func} {b : Ir.Block} {k : Ir.Block → Ir.Block}
    (hM : M.own? = some f)
    (hstill : M.still = false) (hsilent : M.silent = false) (hf : s.module.func? f = some fn)
    (hb : fn.IsBody b) (hopen : M.continues = true → (k b).term? = none)
    (hc : Change p s { s with module := s.module.setBody f (k b) }) :
    Works p M s (Lower.modifyBlock ⟨f, 0⟩ k) fun _ u => u.module = s.module.setBody f (k b) := by
  have hmod : s.module.modifyFunc f (fun g => { g with blocks := g.blocks.modify 0 k }) =
      s.module.setBody f (k b) := by
    refine Module.modifyFunc_congr hf ?_
    rw [show fn.blocks = [b] from hb]
    rfl
  have hstate :
      { s with module := s.module.modifyFunc f fun g => { g with blocks := g.blocks.modify 0 k } } =
      { s with module := s.module.setBody f (k b) } := by rw [hmod]
  refine .modify (hstate ▸ hc) (fun ho hcs => ?_) hmod
  exact .setBody hcs ho hM hf hmod rfl (fun _ => ⟨rfl, rfl⟩) hopen hstill hsilent ⟨rfl, rfl⟩

theorem exists_setBody {m : Module} {fn : Func} {b : Ir.Block} {i : Inst} (hf : m.func? f = some fn)
    (hi : i ∈ b.insts) : ∃ fn', (m.setBody f b).func? f = some fn' ∧ i ∈ fn'.insts := by
  refine ⟨{ fn with blocks := [b] }, Module.func?_setBody hf, ?_⟩
  rwa [Func.insts_of_body (show Func.IsBody { fn with blocks := [b] } b from rfl)]

theorem run_emit (hs : s.Sound) {fn : Func} {b : Ir.Block} {op : Op} {t : Ty}
    (hf : s.module.func? s.cursor.func = some fn) (hb : fn.IsBody b) :
    (Lower.emit op t).run s = (.ok (.inst s.cursor.func b.insts.length t), { s with
      module := s.module.setBody s.cursor.func
        { b with insts := b.insts ++ [⟨b.insts.length, "", 0, op⟩] } }) := by
  have hmod :=
    modifyBlock_eq hf hb fun b => { b with insts := b.insts ++ [⟨fn.insts.length, "", 0, op⟩] }
  have hfunc := run_func hf
  rw [Func.insts_of_body hb] at hmod
  unfold Lower.emit
  rw [run_bind]
  change ((Lower.func s.cursor.func) >>= _).run s = _
  rw [run_bind, hfunc]
  change (_, { s with module := s.module.modifyFunc s.cursor.func fun g =>
    { g with blocks := g.blocks.modify s.cursor.block _ } }) = _
  rw [Func.insts_of_body hb, hs.cursor_eq, ← hmod]

theorem run_call (hs : s.Sound) {fn callee : Func} {b : Ir.Block} {g : FuncId} {args : List Value}
    (hf : s.module.func? s.cursor.func = some fn) (hb : fn.IsBody b)
    (hg : s.module.func? g = some callee) :
    (Lower.call g args).run s = (.ok (.inst s.cursor.func b.insts.length callee.returns), { s with
      module := s.module.setBody s.cursor.func { b with insts := b.insts ++
        [⟨b.insts.length, "", 0, .call (.func g (.pointer callee.signature)) args⟩] } }) := by
  unfold Lower.call Lower.funcValue
  rw [run_bind, run_bind, run_func hg]
  change ((Lower.func g) >>= _).run s = _
  rw [run_bind, run_func hg]
  exact run_emit hs hf hb

theorem firstCall?_of_run_call (hs : s.Sound) {callee : Func} {g : FuncId} {args : List Value}
    {v : Value}
    (hr : Ready f s) (hg : s.module.func? g = some callee) (hnone : s.module.firstCall? f = none)
    (hrun : (Lower.call g args).run s = (.ok v, t)) :
    t.module.firstCall? f = some (.call (.func g (.pointer callee.signature)) args) := by
  obtain ⟨rfl, fn, b, hf, hb, -⟩ := hr
  rw [run_call hs hf hb hg] at hrun
  obtain ⟨-, rfl⟩ := Prod.mk.inj hrun
  rw [Module.firstCall?_of_body hf hb] at hnone
  rw [Module.firstCall?_setBody hf, List.map_append, List.find?_append, hnone]
  rfl

theorem usable_appended {u : State} {fn : Func} {b : Ir.Block} {op : Op} {t : Ty}
    (hf : s.module.func? f = some fn) (ht : t.IsPlain s.module.records)
    (hu : u.module =
      s.module.setBody f { b with insts := b.insts ++ [⟨b.insts.length, "", 0, op⟩] }) :
    Usable f u (.inst f b.insts.length t) := by
  obtain ⟨fn', hfu, hmem⟩ :=
    exists_setBody (b := { b with insts := b.insts ++ [⟨b.insts.length, "", 0, op⟩] }) hf
      (List.mem_append_right _ (List.mem_singleton.2 rfl))
  rw [← hu] at hfu
  refine ⟨⟨⟨fn', hfu, _, hmem, rfl⟩, ?_⟩, by simp [Value.isUsableIn, Value.home?]⟩
  rw [hu]
  exact ht

theorem Reach.appended {fn : Func} {b : Ir.Block} {i : Inst} (hc : Changes p s t)
    (ho : (Manner.within s.cursor.func).Admits p s) (hf : s.module.func? s.cursor.func = some fn)
    (hopen : b.term? = none)
    (ht : t.module = s.module.setBody s.cursor.func { b with insts := b.insts ++ [i] })
    (hi : t.env.inner = s.env.inner) (hp : t.cursor = s.cursor ∧ t.frame = s.frame)
    (hv : t.declared = s.declared ∧ t.origins = s.origins) : Reach p (.within s.cursor.func) s t :=
  .setBody hc ho rfl hf ht hi (fun _ => hp) (fun _ => hopen) rfl rfl hv

theorem emit_works {op : Op} {t : Ty} (hr : Ready f s) (hop : OpFits s.module f op)
    (hcall : op.isCall = true → IsRuntimeCall s op) (ht : t.IsPlain s.module.records) :
    Works p (.within f) s (Lower.emit op t) fun v u => Usable f u v ∧ v.type = t := by
  obtain ⟨rfl, fn, b, hf, hb, hopen⟩ := hr
  refine .sound fun hs => .step (y := pure (.inst s.cursor.func b.insts.length t))
    (.emit fn b op hf hb hopen hop hcall)
    (fun ho hc => .appended hc ho hf hopen rfl rfl ⟨rfl, rfl⟩ ⟨rfl, rfl⟩) ?_
    fun _ _ => .pure ⟨usable_appended hf ht rfl, rfl⟩
  rw [run_emit hs hf hb]
  rfl

theorem run_newSlot (hs : s.Sound) {fn : Func} {b : Ir.Block} {name : String} {t : Ty}
    (hf : s.module.func? s.cursor.func = some fn) (hb : fn.IsBody b) :
    (Lower.newSlot name t).run s = (.ok (.inst s.cursor.func b.insts.length (.pointer t)), { s with
      module := s.module.setBody s.cursor.func
        { b with insts :=
          ⟨b.insts.length, countedName name (s.given s.cursor.func name), 0, .alloca t⟩ :: b.insts }
      locals := s.giving s.cursor.func name }) := by
  let u : State := { s with locals := s.giving s.cursor.func name }
  have hmod := modifyBlock_eq hf hb fun b => { b with insts :=
    ⟨fn.insts.length, countedName name (s.given s.cursor.func name), 0, .alloca t⟩ :: b.insts }
  have hfunc := run_func (s := u) hf
  rw [Func.insts_of_body hb] at hmod
  unfold Lower.newSlot
  rw [run_bind]
  change ((Lower.localName s.frame.func name) >>= _).run s = _
  rw [hs.frame_func, run_bind]
  change ((Lower.func s.cursor.func) >>= _).run u = _
  rw [run_bind, hfunc]
  change (_, { u with module := s.module.modifyFunc s.cursor.func fun g =>
    { g with blocks := g.blocks.modify 0 _ } }) = _
  rw [Func.insts_of_body hb]
  exact congrArg (fun m => (_, { u with module := m })) hmod

theorem newSlot_works {name : String} {t : Ty} (hr : Ready f s) (hname : p.Mentions name)
    (ht : t.IsPlain s.module.records) :
    Works p (.within f) s (Lower.newSlot name t) fun v u => Usable f u v ∧ v.type = .pointer t := by
  obtain ⟨rfl, fn, b, hf, hb, hopen⟩ := hr
  refine .sound fun hs => .step (y := pure (.inst s.cursor.func b.insts.length (.pointer t)))
    (.slot fn b name t hf hb hopen hname) (fun ho hc => ?_) ?_ fun _ h => .pure ⟨?_, rfl⟩
  · exact .setBody hc ho rfl hf rfl rfl (fun _ => ⟨rfl, rfl⟩) (fun _ => hopen) rfl rfl ⟨rfl, rfl⟩
  · rw [run_newSlot hs hf hb]
    rfl
  · obtain ⟨fn', hf', hmem⟩ := exists_setBody (m := s.module)
      (b := { b with insts :=
        ⟨b.insts.length, countedName name (s.given s.cursor.func name), 0, .alloca t⟩ :: b.insts })
          hf
      List.mem_cons_self
    refine ⟨⟨⟨fn', hf', _, hmem, rfl⟩, ?_⟩, by simp [Value.isUsableIn, Value.home?]⟩
    exact (h.changes.grows.records.plain ht).pointer

theorem terminate_works {t : Terminator} (hr : Ready f s) (hM : M.own? = some f)
    (hc : M.continues = false)
    (hstill : M.still = false) (hsilent : M.silent = false) (hne : f ≠ Lower.entryFunc)
    (ht : ∀ v ∈ t.operands, Usable f s v) :
    Works p M s (Lower.terminate t) fun _ u => Ended u.module f := by
  obtain ⟨rfl, fn, b, hf, hb, hopen⟩ := hr
  refine .get_bind fun hs => ?_
  rw [hs.cursor_eq]
  refine (modifyBlock_works hM hstill hsilent hf hb (fun h => by simp [hc] at h)
    (.terminate fn b t hf hb hopen hne ?_)).mono ?_
  · exact fun v hv => ⟨(ht v hv).fit.known, (ht v hv).isUsable⟩
  · exact fun _ u _ _ hm => ⟨_, hm ▸ Module.func?_setBody hf, rfl⟩

/-! ## Calls and memory -/

theorem opFits_call {g : FuncId} {fn : Func} {args : List Value} (hg : s.module.func? g = some fn)
    (hargs : ∀ v ∈ args, Usable f s v) :
    OpFits s.module f (.call (.func g (.pointer fn.signature)) args) := by
  refine ⟨rfl, ⟨g, fn, rfl, hg⟩, fun v hv => ?_⟩
  rcases List.mem_cons.1 hv with rfl | hv
  · exact ⟨⟨fn, hg, rfl⟩, rfl⟩
  · exact ⟨(hargs v hv).fit.known, (hargs v hv).isUsable⟩

theorem State.Sound.table_func (hs : s.Sound) {name : String} {f : FuncId}
    (hf : s.funcs.lookup name = some f) : ∃ fn, s.module.func? f = some fn := by
  obtain ⟨fn, hfn, -⟩ := hs.table name f (mem_of_lookup hf)
  exact ⟨fn, hfn⟩

theorem runtimeCall_works {g : FuncId} {name : String} {args : List Value} (hr : Ready f s)
    (hg : s.funcs.lookup name = some g) (hname : (Builtin.find? name).isSome)
    (hargs : ∀ v ∈ args, Usable f s v) :
    Works p (.within f) s (Lower.call g args) fun v u => Usable f u v := by
  refine .sound fun hs => ?_
  obtain ⟨fn, hfn⟩ := hs.table_func hg
  refine .read_bind (funcValue_reads hfn) ?_
  rintro _ rfl
  refine .read_bind func_reads fun fn' hfn' => ?_
  obtain rfl := Option.some.inj (hfn.symm.trans hfn')
  exact (emit_works hr (opFits_call hfn hargs) (fun _ => ⟨g, _, args, name, rfl, hg, hname⟩)
    (hs.funcs g fn hfn).returns).mono fun _ _ _ _ h => h.1

theorem notedCall_works {e : Expr} {r : Request} {g : FuncId} {args : List Value} (hr : Ready f s)
    (he : request? p e = some r) (hg : Answers p r g s) (hargs : ∀ v ∈ args, Usable f s v) :
    Works p (.within f) s (do Lower.noteCall e (← Lower.call g args)) fun v u => Usable f u v := by
  refine .sound fun hs => ?_
  obtain ⟨name, hname, hl⟩ := hg
  obtain ⟨callee, hcallee⟩ := hs.table_func hl
  obtain ⟨rfl, fn, b, hf, hb, hopen⟩ := hr
  refine .step (y := pure (.inst s.cursor.func b.insts.length callee.returns))
    (.call fn callee b e r g args hf hb hopen (opFits_call hcallee hargs) he ⟨name, hname, hl⟩)
    (fun ho hc => .appended hc ho hf hopen rfl rfl ⟨rfl, rfl⟩ ⟨rfl, rfl⟩) ?_
    fun _ _ => .pure (usable_appended hf (hs.funcs g callee hcallee).returns rfl)
  rw [run_bind, run_call hs hf hb hcallee]
  rfl

theorem store_works {v a : Value} (hr : Ready f s) (hv : Usable f s v) (ha : Usable f s a)
    (helem : ∀ elem, a.type = .pointer elem → elem.IsField s.module.records ∨ elem = v.type) :
    Works p (.within f) s (Lower.store v a) fun _ _ => True := by
  refine .sound fun hs => ?_
  unfold Lower.store
  split
  · rename_i elem htype
    refine .get_bind fun _ => ?_
    split
    · exact .bind .crash fun _ _ _ _ h => False.elim h
    · rename_i hmatch
      have hmatch' : elem.isMatch s.module.records v.type = true := by simpa using hmatch
      have halike : Ty.Alike s.module.records elem v.type := by
        rcases helem elem htype with hfield | rfl
        · exact Ty.alike_of_isMatch hs.records.oneNameless hs.records.unpacked hfield
            hv.fit.plain hmatch'
        · exact .refl hv.fit.plain
      have htyped : (Op.store v a).IsTyped s.module := ⟨elem, htype, halike⟩
      have hvoid : Ty.void.IsPlain s.module.records := trivial
      refine .discard (emit_works hr ⟨rfl, htyped, ?_⟩ (fun h => by cases h) hvoid)
      intro w hw
      simp only [Op.operands, List.mem_cons, List.not_mem_nil, or_false] at hw
      rcases hw with rfl | rfl
      · exact ⟨hv.fit.known, hv.isUsable⟩
      · exact ⟨ha.fit.known, ha.isUsable⟩
  · exact .crash

theorem emit_unary_works {op : Op} {t : Ty} {v : Value} (hr : Ready f s) (hv : Usable f s v)
    (halloca : op.isAlloca = false) (hcall : op.isCall = false) (htyped : op.IsTyped s.module)
    (hop : op.operands = [v]) (ht : t.IsPlain s.module.records) :
    Works p (.within f) s (Lower.emit op t) fun w u => Usable f u w ∧ w.type = t := by
  refine emit_works hr ⟨halloca, htyped, fun w hw => ?_⟩ (fun h => by rw [hcall] at h; cases h) ht
  rw [hop, List.mem_singleton] at hw
  subst hw
  exact ⟨hv.fit.known, hv.isUsable⟩

theorem fieldAddress_works {r : RecordId} {base : Value} {index : Nat} (hr : Ready f s)
    (hbase : Usable f s base) :
    Works p (.within f) s (Lower.fieldAddress r base index) fun v u =>
      Usable f u v ∧ ∃ t, v.type = .pointer t ∧ t.IsField u.module.records := by
  refine .sound fun hs => .get_bind fun _ => .read_bind (.orCrash fun _ => id) fun t ht => ?_
  have hfield : t.IsField s.module.records := by
    cases hrec : s.module.records[r]? with
    | none =>
      rw [Records.get, hrec] at ht
      cases ht
    | some rec =>
      rw [Records.get_of_getElem? hrec] at ht
      exact hs.records.fields r rec hrec t (List.mem_of_getElem? ht)
  have htyped : (Op.field (.record r) base index).IsTyped s.module := trivial
  refine (emit_unary_works hr hbase rfl rfl htyped rfl hfield.plain.pointer).mono ?_
  rintro v u - hreach ⟨hv, htype⟩
  exact ⟨hv, t, htype, hreach.changes.grows.records.field hfield⟩

/-! ## Environments -/

theorem set_error {e : Env} {k : ScopeId} {name : String} {b : Binding Value} {c : Cause}
    (h : e.set k name b = .error c) : c.isVerdict = false := by
  unfold Environment.set at h
  split at h
  · cases h
    rfl
  · split at h
    · cases h
      rfl
    · cases h

theorem bindName_works {k : ScopeId} {name : String} {b : Binding Value} (hM : M.silent = false)
    (hb : BindingFits s.module s.env.scopes.length b)
    (hscope : ∀ j o t, b = .scope j → (s.env.scope j).data? = some o → o.type? = some t →
      IsNamedRecord s name t) : Works p M s (Action.bindName k name b) fun _ u =>
      s.env.lookupIn k name = none ∧
      (k < s.env.scopes.length → u.env.lookupIn k name = some b) := by
  refine .read_bind (P := fun e => e = s.env) (.get_bind (.pure rfl)) ?_
  rintro _ rfl
  refine .read_bind (.ofCause (fun _ => set_error) fun _ => id) fun e he => ?_
  obtain ⟨hnone, rfl⟩ := of_set he
  refine .modify (.bind k name b hnone hb hscope) (fun ho hc => ?_) ⟨hnone, fun hk => ?_⟩
  · exact .unchanged hc ho ⟨rfl, rfl, rfl, rfl⟩ (fun h => by simp [hM] at h) rfl ⟨rfl, rfl⟩
      (.of_length rfl)
  · exact (lookupIn_bind hk hnone k name).trans (if_pos ⟨rfl, rfl⟩)

theorem bindValue_works {k : ScopeId} {name : String} {v : Value} (hM : M.silent = false)
    (hv : v.IsFit s.module) : Works p M s (Action.bindName k name (.value v)) fun _ u =>
      s.env.lookupIn k name = none ∧
      (k < s.env.scopes.length → u.env.lookupIn k name = some (.value v)) :=
  bindName_works hM hv fun j o t h => by cases h

theorem createScope_works {name : String} {o? : Option Origin} (hM : M.silent = false)
    (ho : ∀ o, o? = some o → OriginFits s.module o) :
    Works p M s (Action.createScope name o?) fun k u =>
      0 < k ∧ k < u.env.scopes.length ∧ u.env.scope k = .fresh name o? := by
  refine .sound fun hs => .read_bind (P := fun e => e = s.env) (.get_bind (.pure rfl)) ?_
  rintro _ rfl
  refine .bind (Q := fun _ u => u.env.scopes = s.env.scopes ++ [.fresh name o?]) ?_
    fun _ u _ _ hu => ?_
  · exact .modify (.scope name o? ho)
      (fun ho hc => .unchanged hc ho ⟨rfl, rfl, rfl, rfl⟩ (fun h => by simp [hM] at h) rfl ⟨rfl,
        rfl⟩ (.of_length rfl)) rfl
  · refine .pure ⟨hs.env.global, by rw [hu, List.length_append]; exact Nat.lt_succ_self _, ?_⟩
    unfold Environment.scope
    rw [hu, List.getElem?_concat_length]
    rfl

theorem withInner_works {α : Type} {inner : List ScopeId} {body : Lower α} {Q R : α → State → Prop}
    (hM : M.silent = false) (h : Works p M { s with env := { s.env with inner } } body Q)
    (hR : ∀ a t, Q a t → R a { t with env := { t.env with inner := s.env.inner } }) :
    Works p M s (Action.withInner inner body) R := by
  intro hs ho
  have hin : Change p s { s with env := { s.env with inner } } := .enter inner
  rw [ends_withInner]
  refine (h (hs.step hin) ⟨ho.own, ho.filled⟩).mono (fun a t ⟨hreach, hq⟩ => ⟨?_, hR a t hq⟩)
    fun f t hf => ?_
  · exact ⟨(Relation.ReflTransGen.head hin hreach.changes).tail (.enter _), ho, hreach.others,
      hreach.settled, rfl, hreach.declared, hreach.place, hreach.opened, hreach.still,
      fun h => by simp [hM] at h, hreach.completes,
      fun g r hg => (hreach.emitted g r hg).imp_right fun he hr =>
        (he hr).mono (.single (.enter _))⟩
  · exact ⟨(Relation.ReflTransGen.head hin hf.changes).tail (.enter _), hf.verdict⟩

theorem enter_works {α : Type} {k : ScopeId} {body : Lower α} {Q R : α → State → Prop}
    (hM : M.silent = false)
    (h : Works p M { s with env := { s.env with inner := k :: s.env.inner } } body Q)
    (hR : ∀ a t, Q a t → R a { t with env := { t.env with inner := s.env.inner } }) :
    Works p M s (Action.enter k body) R := by
  refine .read_bind (P := fun e => e = s.env) (.get_bind (.pure rfl)) ?_
  rintro _ rfl
  exact withInner_works hM h hR

theorem keepingCursor_works {α : Type} {body : Lower α} {Q R : α → State → Prop}
    (h : Works p .away s body Q)
    (hR : ∀ a t, Q a t → R a { t with cursor := s.cursor, frame := s.frame }) :
    Works p .quiet s (Lower.keepingCursor body) R := by
  intro hs ho
  rw [ends_keepingCursor]
  -- the block at the cursor is still there, whatever has been emitted
  have back {t : State} (hc : Changes p s t) :
      Change p t { t with cursor := s.cursor, frame := s.frame } :=
    .move s.cursor s.frame (hs.sound.place.mono hc.grows)
  refine (h hs ⟨ho.own, ho.filled⟩).mono (fun a t ⟨hreach, hq⟩ => ⟨?_, hR a t hq⟩) fun f t hf => ?_
  · exact ⟨hreach.changes.tail (back hreach.changes), ho, hreach.others, hreach.settled,
      hreach.inner, hreach.declared,
      fun _ => ⟨rfl, rfl⟩, hreach.opened, fun h => (by cases h), fun h => (by cases h),
        hreach.completes,
      fun g r hg => (hreach.emitted g r hg).imp_right fun he hr =>
        (he hr).mono (.single (back hreach.changes))⟩
  · exact ⟨hf.changes.tail (back hf.changes), hf.verdict⟩

end

end CheckedIR.Lowering

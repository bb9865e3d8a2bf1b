import CheckedIR.Proofs.Lowering.Statements

/-!
# How functions are emitted

Emitting a function declares it, fills its block and ends it. Everything else that is there stays as
it is, however deeply emissions nest, so the expression that asked for the function can go on.
-/

namespace CheckedIR.Lowering

open CheckedIR.Ir CheckedIR.Program CheckedIR.Scope CheckedIR.Scope.Action

section
variable {p : Program} {M : Manner} {emitFunction : Emitter} {s : State} {f : FuncId}

/-! ## Emissions -/

theorem Requested.mem_places {r : Request} (h : Requested p r) : r.decl ∈ p.places := by
  obtain ⟨e, he⟩ := h
  cases e with
  | call i callee args =>
    obtain ⟨d, hd, rfl⟩ := Option.map_eq_some_iff.1 he
    obtain ⟨k, -, hk⟩ := Option.bind_eq_some_iff.1 hd
    exact mem_places_of_declaration? hk
  | construct i callee args =>
    obtain ⟨d, hd, hm⟩ := Option.bind_eq_some_iff.1 he
    obtain ⟨k, -, hk⟩ := Option.bind_eq_some_iff.1 hd
    split at hm
    · rename_i hnode
      obtain ⟨m, hfind, rfl⟩ := Option.map_eq_some_iff.1 hm
      refine down_mem_places (mem_places_of_declaration? hk) ?_
      rw [hnode]
      exact List.mem_map_of_mem (List.mem_of_find?_eq_some hfind)
    · cases hm
  | _ => cases he

theorem Requested.isMember {r : Request} {fn : FunctionLike} (h : Requested p r)
    (hf : r.decl.node.functionLike? = some fn) (hc : fn.shape ≠ .free) :
    r.decl.isMember = true := by
  cases hn : r.decl.node with
  | member m => exact isMember_of_mem_places h.mem_places hn
  | stmt st =>
    rw [hn] at hf
    cases st <;> cases hf
    exact absurd rfl hc
  | _ =>
    rw [hn] at hf
    cases hf

theorem Requested.isMember_constructor {r : Request} {fn : FunctionLike} (h : Requested p r)
    (hf : r.decl.node.functionLike? = some fn) (hc : fn.shape = .constructor) :
    r.decl.isMember = true :=
  h.isMember hf (by rw [hc]; decide)

/-! ## Signatures -/

theorem returnType_works {decl : Node} {shape : FunctionShape} {signature : Signature}
    {owner? : Option TypeId} {receiver? : Option Ty} (hreceiver : ReceiverFits s.module receiver?) :
    Works p M s (Lower.returnType p decl shape signature owner? receiver?) fun t u =>
      t.IsPlain u.module.records := by
  unfold Lower.returnType
  have lowered {t : Option TypeId} :
      Works p M s (Lower.type p t) fun t u => t.IsPlain u.module.records :=
    type_works.mono fun _ _ _ _ h => h.plain
  split
  · refine .read_bind (.orCrash fun _ => id) fun t ht => .pure ?_
    exact hreceiver.held ht
  · split
    · exact .bind type_works fun t u _ _ ht => .pure ht.plain.pointer
    · exact .read_bind (.orCrash fun _ _ => trivial) fun _ _ =>
        .read_bind (.answered fun _ _ => trivial) fun _ _ => .refuseAt rfl
  all_goals exact lowered

theorem receiverParam_works {decl : Place} {shape : FunctionShape} {receiver? : Option Ty}
    (hreceiver : ReceiverFits s.module receiver?) :
    Works p M s (Lower.receiverParam decl shape receiver?) fun ts u => ∀ t ∈ ts,
      t.IsPlain u.module.records := by
  unfold Lower.receiverParam
  split
  · exact .pure fun t ht => by cases ht
  · split
    · rename_i t
      refine .sound fun hs => .read_bind (P := fun u => u.IsPlain s.module.records) ?_ fun u hu =>
        .pure ?_
      · refine .bind (isValueType_reads hs (hreceiver.held rfl)) fun b hb => .pure ?_
        split
        · rename_i hb'
          exact hb hb'
        · exact hreceiver.held rfl
      · intro w hw
        rw [List.mem_singleton.1 hw]
        exact hu
    · exact .read_bind (.orCrash fun _ _ => trivial) fun _ _ => .refuseAt rfl

/-! ## Constructors -/

theorem storeProperty_works {owner : TypeId} {r : RecordId} {this v : Value} {name : String}
    (hr : Ready f s) (hthis : Usable f s this) (hv : Usable f s v) :
    Works p (.within f) s (Lower.storeProperty p owner r this name v) fun _ u => Ready f u := by
  unfold Lower.storeProperty
  split
  · exact .read_bind (.answered fun _ _ => trivial) fun _ _ => .refuse rfl
  · refine .bind (fieldAddress_works hr hthis) fun a t _ h ⟨ha, ty, hty, hfield⟩ => ?_
    have hr1 := h.ready rfl rfl hr
    refine (store_works hr1 (hv.mono h.changes) ha ?_).mono fun _ u _ h' _ => h'.ready rfl rfl hr1
    intro elem helem
    rw [hty] at helem
    obtain rfl := Ty.pointer.inj helem
    exact .inl hfield

theorem usable_param (hs : s.Sound) {fn : Func} {index : Nat} {q : Ir.Param}
    (hf : s.module.func? f = some fn)
    (hq : fn.params[index]? = some q) : Usable f s (.param f index q.type) := by
  have hty : fn.paramTypes[index]? = some q.type := by simp [Func.paramTypes, hq]
  refine ⟨⟨⟨fn, hf, hty⟩, (hs.funcs f fn hf).params _ (List.mem_of_getElem? hty)⟩, ?_⟩
  simp [Value.isUsableIn, Value.home?]

theorem storeParams_works {owner : TypeId} {r : RecordId} {this : Value} {index : Nat}
    {ps : List Program.Param} (hr : Ready f s) (hthis : Usable f s this) :
    Works p (.within f) s (Lower.storeParams p f owner r this index ps) fun _ u => Ready f u := by
  induction ps generalizing s index with
  | nil => exact .pure hr
  | cons q ps ih =>
    rw [Lower.storeParams]
    dsimp only
    split
    · refine .sound fun hs => .read_bind func_reads fun fn hf => ?_
      split
      · rename_i param hparam
        exact .bind (storeProperty_works hr hthis (usable_param hs hf hparam)) fun _ t _ h hr' =>
          ih hr' (hthis.mono h.changes)
      · exact ih hr hthis
    · exact ih hr hthis

theorem storeInitializers_works (hem : EmitterWorks p emitFunction) {owner : TypeId} {r : RecordId}
    {this : Value} {ms : List Member} (hr : Ready f s) (hthis : Usable f s this) :
    Works p (.within f) s (Lower.storeInitializers p emitFunction owner r this ms) fun _ u =>
      Ready f u := by
  induction ms generalizing s with
  | nil => exact .pure hr
  | cons m ms ih =>
    unfold Lower.storeInitializers
    split
    · exact .pure hr
    · rename_i heq
      obtain ⟨-, rfl⟩ := List.cons_eq_cons.1 heq
      refine .bind (rvalue_works hem _ hr) fun v t _ h hv => ?_
      refine .bind (storeProperty_works (h.ready rfl rfl hr) (hthis.mono h.changes) hv)
        fun _ u _ h' hr' => ?_
      exact ih hr' (hthis.mono (h.trans h').changes)
    · rename_i heq
      obtain ⟨-, rfl⟩ := List.cons_eq_cons.1 heq
      exact ih hr hthis

theorem setThis_works {v : Value} (hr : Ready f s) (hv : Usable f s v) :
    Works p (.body f) s (modify fun s => { s with frame := { s.frame with this? := some v } })
      fun _ u => Ready f u := by
  refine .sound fun hs =>
    .modify (.move s.cursor { s.frame with this? := some v } ⟨hs.place.cursor, hs.place.body, ?_⟩)
    (fun ho hc => ⟨hc, ho, fun _ _ _ => rfl, ?_, rfl, fun _ _ _ => rfl, fun h => (by cases h),
      fun h => (by cases h),
      fun h => (by cases h), fun h => (by cases h), .of_length rfl, fun _ _ => .inl⟩)
        ⟨hr.here, hr.isOpen⟩
  · intro w hw
    obtain rfl := Option.some.inj hw
    exact ⟨hv.fit, (hs.frame_func.trans hr.here) ▸ hv.isUsable⟩
  · intro g fn hg hf
    rw [Module.func?, List.getElem?_eq_none hg] at hf
    cases hf

theorem constructObject_works (hem : EmitterWorks p emitFunction) {e : Emission} {scope : ScopeId}
    (hr : Ready f s) (hfirst : s.module.firstCall? f = none) (he : e.Fits p s)
    (hc : e.function.shape = .constructor) :
    Works p (.body f) s (Lower.constructObject p emitFunction e f scope)
      fun _ u => Ready f u ∧ Allocates p f e.owner? u := by
  refine .read_bind (.orCrash fun _ => id) fun t ht =>
    .read_bind (.orCrash fun _ => id) fun owner howner => ?_
  obtain ⟨r, rfl, hlt⟩ := he.receiver t ht
  have hreceiver :
      IsReceiver p owner r s :=
      he.owner (he.requested.isMember_constructor he.function hc) owner r howner ht
  refine .bind_le (allocate_works hr hlt hfirst) .within_body
    fun this t1 _ h1 ⟨hthis, halloc, hstring⟩ => ?_
  have hrecord : HasRecord p owner r s := hreceiver.resolve_right hstring
  refine .bind (setThis_works (h1.ready rfl rfl hr) hthis) fun _ t2 _ h2 hr2 => ?_
  have hthis2 := hthis.mono h2.changes
  refine .bind_le (bindValue_works (M := .within f) rfl hthis2.fit) .within_body fun _ t3 _ h3 _ =>
    ?_
  have hr3 := h3.ready rfl rfl hr2
  have hc3 : Changes p t1 t3 := h2.changes.trans h3.changes
  have done {u : State} (h : Changes p t3 u) : Allocates p f e.owner? u :=
    ⟨owner, r, howner, hrecord.mono (h1.changes.trans (hc3.trans h)), halloc.mono (hc3.trans h)⟩
  refine .bind_le (storeParams_works hr3 (hthis2.mono h3.changes)) .within_body fun _ t4 _ h4 hr4 =>
    ?_
  split
  · refine .weaken .within_body
      ((storeInitializers_works hem hr4 (hthis2.mono (h3.trans h4).changes)).mono ?_)
    exact fun _ u _ h5 hr5 => ⟨hr5, done (h4.trans h5).changes⟩
  · exact .pure ⟨hr4, done h4.changes⟩

/-! ## Bodies -/

/-- Parameters are bound under different names, since a name is bound only once. -/
theorem bindParams_works {scope : ScopeId} {index : Nat} {names : List String}
    {params : List Ir.Param} {fn : Func}
    (hf : s.module.func? f = some fn) (hscope : scope < s.env.scopes.length)
    (hparams : ∀ (j : Nat) (q : Ir.Param), params[j]? = some q →
      fn.paramTypes[index + j]? = some q.type)
    (hnames : ∀ n ∈ names, n ≠ "" → p.Mentions n) (hnamed : AreNamed names params) :
    Works p .naming s (Lower.bindParams f scope index names params) fun _ u =>
      (Ir.Param.names params).Nodup ∧
      ∀ n ∈ Ir.Param.names params,
        s.env.lookupIn scope n = none ∧ p.Mentions n ∧ 0 < u.given f n := by
  induction params generalizing s index names with
  | nil => cases names <;> exact .pure ⟨List.nodup_nil, fun n hn => by cases hn⟩
  | cons q params ih =>
    cases names with
    | nil =>
      rw [hnamed.names_nil]
      exact .pure ⟨List.nodup_nil, fun n hn => by cases hn⟩
    | cons name names =>
      obtain ⟨rfl, hnamed'⟩ := hnamed.tail
      have hnames' :
          ∀ n ∈ names, n ≠ "" → p.Mentions n := fun n hn => hnames n (List.mem_cons_of_mem _ hn)
      have hrest (j : Nat) (q' : Ir.Param) (hj : params[j]? = some q') :
          fn.paramTypes[index + 1 + j]? = some q'.type := by
        have := hparams (j + 1) q' hj
        rwa [show index + (j + 1) = index + 1 + j by omega] at this
      rw [Lower.bindParams, Ir.Param.names_cons]
      dsimp only
      split
      · rename_i hgiven
        rw [if_neg (by simpa using hgiven)]
        have hname : p.Mentions q.name := hnames q.name List.mem_cons_self (by simpa using hgiven)
        refine .sound fun hs => ?_
        have hty : fn.paramTypes[index]? = some q.type := hparams 0 q rfl
        have hfit : (Value.param f index q.type).IsFit s.module :=
          ⟨⟨fn, hf, hty⟩, (hs.funcs f fn hf).params _ (List.mem_of_getElem? hty)⟩
        refine .bind (bindValue_works rfl hfit) fun _ t _ h ⟨hnew, hbound⟩ => ?_
        refine .bind (Q := fun _ u => 0 < u.given f q.name) (.map (localName_works hname))
          fun _ u _ h' hcount => ?_
        have hf' : u.module.func? f = some fn := by
          unfold Module.func?
          rw [((h.trans h').still rfl).1]
          exact hf
        have hc : Changes p s u := (h.trans h').changes
        refine (ih hf' (Nat.lt_of_lt_of_le hscope hc.scopes_length_le) hrest hnames' hnamed').mono
          fun _ w _ h'' ⟨hdistinct, hothers⟩ =>
            ⟨List.nodup_cons.2 ⟨fun hmem => ?_, hdistinct⟩, fun n hn => ?_⟩
        -- a later parameter of this name would not have been bound
        · have hlater := (hothers q.name hmem).1
          rw [h'.changes.lookupIn (hbound hscope)] at hlater
          cases hlater
        · rcases List.mem_cons.1 hn with rfl | hn
          · exact ⟨hnew, hname, Nat.lt_of_lt_of_le hcount (h''.changes.given_le f _)⟩
          · obtain ⟨hnone, hrest⟩ := hothers n hn
            refine ⟨Option.eq_none_iff_forall_ne_some.2 fun b hb => ?_, hrest⟩
            rw [hc.lookupIn hb] at hnone
            cases hnone
      · rename_i hempty
        rw [if_pos (by simpa using hempty)]
        exact ih hf hscope hrest hnames' hnamed'

theorem run_newBlock {fn : Func} (hf : s.module.func? f = some fn) (hblocks : fn.blocks = []) :
    (Lower.newBlock f "entry").run s =
    (.ok 0, { s with module := s.module.setBody f ⟨"entry", 0, [], none⟩ }) := by
  have hmod : s.module.modifyFunc f
      (fun g => { g with blocks := g.blocks ++ [⟨"entry", 0, [], none⟩] }) =
      s.module.setBody f ⟨"entry", 0, [], none⟩ := by
    refine Module.modifyFunc_congr hf ?_
    rw [hblocks]
    rfl
  unfold Lower.newBlock
  rw [run_bind, run_func hf, ← hmod]
  change (Except.ok fn.blocks.length, _) = _
  rw [hblocks]
  rfl

structure Opened (p : Program) (f : FuncId) (isConstructor : Bool) (s t : State) : Prop where
  ready : Ready f t
  changes : Changes p s t
  insts : ∃ fn, t.module.func? f = some fn ∧ fn.insts = []
  frame : t.frame = ⟨f, none, isConstructor⟩

theorem Opened.firstCall {t : State} {isConstructor : Bool} (h : Opened p f isConstructor s t) :
    t.module.firstCall? f = none := by
  obtain ⟨fn, hf, hinsts⟩ := h.insts
  simp [Module.firstCall?, hf, hinsts]

theorem open_works {α : Type} {fn : Func} {isConstructor : Bool} {rest : Lower α}
    {Q : α → State → Prop}
    (hf : s.module.func? f = some fn) (hblocks : fn.blocks = []) (hdistinct : fn.paramNames.Nodup)
    (hgiven : ∀ n ∈ fn.paramNames, p.Mentions n ∧ 0 < s.given f n)
    (hrest : ∀ t, Opened p f isConstructor s t → Works p (.body f) t rest Q) :
    Works p (.body f) s
      (do let block ← Lower.newBlock f "entry"
          modify fun s => { s with cursor := ⟨f, block⟩, frame := ⟨f, none, isConstructor⟩ }
          rest) Q := by
  have hchange : Change p s _ := .open f fn isConstructor hf hblocks hdistinct hgiven
  have hbody := Module.func?_setBody (b := ⟨"entry", 0, [], none⟩) hf
  refine .step hchange (fun ho hc => .setBody hc ho rfl hf rfl rfl (fun h => by cases h)
    (fun _ => rfl) rfl rfl
    ⟨rfl, rfl⟩) ?_ fun _ h => hrest _ ⟨⟨rfl, ⟨_, _, hbody, rfl, rfl⟩⟩, h.changes,
      ⟨_, hbody, rfl⟩, rfl⟩
  rw [run_bind, run_newBlock hf hblocks]
  rfl

theorem statements_then_works (hem : EmitterWorks p emitFunction) {scope : ScopeId} {ss : List Stmt}
    {last : Lower Unit} (hss : ∀ st ∈ ss, p.Has (.stmt st)) (hr : Ready f s)
    (hne : f ≠ Lower.entryFunc) (hscope : 0 < scope)
    (hlast : ∀ t, Ready f t → Works p (.body f) t last fun _ u => Ended u.module f) :
    Works p (.body f) s
      (do Lower.statements p emitFunction scope ss
          if ! (← Lower.isTerminated) then last)
      fun _ u => Ended u.module f := by
  refine .bind_le (statements_works hem ss hss hr.here (fun he => absurd he hne)
    (.inl (Nat.ne_of_gt hscope)))
    .along_body fun _ t ht h _ => .read_bind (isTerminated_reads ht) fun ended hended => ?_
  have hcursor : t.cursor.func = f := (h.place rfl).1 ▸ hr.here
  rw [hcursor] at hended
  split
  · rename_i hgo
    exact hlast t ⟨hcursor, hended.1 (by simpa using hgo)⟩
  · rename_i hgo
    exact .pure (hended.2 (by simpa using hgo))

theorem emitBody_works (hem : EmitterWorks p emitFunction) {e : Emission} {fn : Func}
    {body : Program.Block}
    {scope : ScopeId} (hf : s.module.func? f = some fn) (hblocks : fn.blocks = [])
    (hne : f ≠ Lower.entryFunc) (hscope : 0 < scope ∧ scope < s.env.scopes.length) (he : e.Fits p s)
    (hbody : e.function.body? = some body) (hnamed : AreNamed e.names fn.params) :
    Works p (.body f) s (Lower.emitBody p emitFunction e f body scope) fun _ u =>
      Ended u.module f ∧ (e.function.shape = .constructor → Allocates p f e.owner? u) := by
  have returnThis (t : State) (hr : Ready f t) : Works p (.body f) t
      (do Lower.terminate (.ret (← get).frame.this?)) fun _ u => Ended u.module f := by
    refine .get_bind fun hs => terminate_works hr rfl rfl rfl rfl hne fun v hv => ?_
    cases hthis : t.frame.this? with
    | none =>
      rw [hthis] at hv
      cases hv
    | some this =>
      rw [hthis] at hv
      rw [List.mem_singleton.1 hv]
      obtain ⟨hfit, huse⟩ := hs.place.this this hthis
      exact ⟨hfit, (hs.frame_func.trans hr.here) ▸ huse⟩
  have fallOff (t : State) (hr : Ready f t) : Works p (.body f) t
      (do if (← Lower.func f).returns.isMatch (← get).module.records .void then
            Lower.terminate (.ret none)
          else Lower.terminate .unreachable) fun _ u => Ended u.module f := by
    refine .read_bind func_reads fun _ _ => .get_bind fun _ => ?_
    split
    · exact terminate_works hr rfl rfl rfl rfl hne fun v hv => by cases hv
    · exact terminate_works hr rfl rfl rfl rfl hne fun v hv => by cases hv
  refine .read_bind func_reads fun fn' hf' => ?_
  obtain rfl := Option.some.inj (hf.symm.trans hf')
  refine .bind_le (bindParams_works hf hscope.2 (fun j q hj => by simp [Func.paramTypes, hj])
    he.names hnamed) (.naming rfl rfl) fun _ t _ h hbound => ?_
  obtain ⟨hdistinct, hgiven⟩ := hbound
  have hft : t.module.func? f = some fn := by
    unfold Module.func?
    rw [(h.still rfl).1]
    exact hf
  have hss : ∀ st ∈ body.statements, p.Has (.stmt st) := fun st hst =>
    Has.statement ⟨e.decl, he.requested.mem_places, rfl⟩ he.function hbody hst
  refine open_works hft hblocks hdistinct (fun n hn => (hgiven n hn).2) fun t1 hopened => ?_
  have hr1 := hopened.ready
  dsimp only
  split
  · rename_i hc
    refine .bind
      (constructObject_works hem hr1 hopened.firstCall (he.mono (h.changes.trans hopened.changes))
      (by simpa using hc))
      fun _ u _ _ hmade => ?_
    exact (statements_then_works hem hss hmade.1 hne hscope.1 returnThis).mono
      fun _ w _ h' hended =>
      ⟨hended, fun _ => hmade.2.mono h'.changes⟩
  · rename_i hc
    have ended {u : State} (hu : Ended u.module f) :
        Ended u.module f ∧ (e.function.shape = .constructor → Allocates p f e.owner? u) :=
      ⟨hu, fun hc' => absurd (by simpa using hc') hc⟩
    split
    · refine .sound fun hs1 => .read_bind func_reads fun fn1 hf1 =>
        .read_bind (.orCrash fun _ => id) fun q hq => ?_
      refine .bind (setThis_works hr1 (usable_param hs1 hf1 hq)) fun _ u _ _ hu => ?_
      exact (statements_then_works hem hss hu hne hscope.1 fallOff).mono fun _ w _ _ => ended
    · exact (statements_then_works hem hss hr1 hne hscope.1 fallOff).mono fun _ w _ _ => ended

/-! ## Verification -/

theorem verifyFunc_works {e : Emission} (hf : Ended s.module f) :
    Works p M s (Lower.verifyFunc e f) fun _ _ => True := by
  refine .get_bind fun hs => ?_
  obtain ⟨fn, hfn, hended⟩ := hf
  dsimp only
  split
  · exact .pure trivial
  · rename_i r hr
    obtain ⟨b, d, rfl, hd⟩ := hs.funcs.rejection hfn hended hr
    -- the refusal shows the function, which numbers it
    have verdict {m : Module} {detail : String}
        (hm : s.module = m ∨ ∃ shown, s.module.printFunc f = some (shown, m)) :
        Verdict (.refused
          (.diagnosed ⟨.invalidFunction e.name (s.module.rejectionText (.defective b d)),
          e.decl.node.info.span, detail, ""⟩)) m := by
      refine ⟨fun name reason hc => ?_, fun reason hc => by cases hc⟩
      cases hc
      exact ⟨s.module, f, b, d, hm.imp_right .inl, hr, hd, rfl⟩
    refine .read_bind func_reads fun fn' _ => ?_
    split
    · refine .read_bind (.orCrash fun _ => id) fun shown hshown => ?_
      obtain ⟨text, m⟩ := shown
      exact .step_throw (.number m (Module.eqUpToNumbers_printFunc hshown)) rfl
        (verdict (.inr ⟨text, hshown⟩))
    · exact .throw (verdict (.inl rfl))

/-! ## Emission -/

theorem Manner.Admits.declared {fn : Func} {t : State} (h : Manner.away.Admits p s)
    (hc : Change p s t) (ht : t.module.funcs = s.module.funcs ++ [fn])
    (hrecords : t.module.records = s.module.records) :
    (Manner.body s.module.funcs.length).Admits p t where
  own f hf := by
    obtain rfl := Option.some.inj hf
    simp [ht]
  filled q hq hb := (h.filled q (hrecords ▸ hq) hb).step hc (hrecords ▸ hq)

theorem Works.declared {α : Type} {fn : Func} {r : Request} {x y : Lower α} {t : State}
    {Q : α → State → Prop} (hc : Change p s t) (ht : t.module.funcs = s.module.funcs ++ [fn])
    (hrecords : t.module.records = s.module.records)
    (hi : t.env.inner = s.env.inner) (hv : t.declared = s.declared)
    (ho : t.origins = s.origins ++ [(s.module.funcs.length, r)]) (hrun : x.run s = y.run t)
    (hy : Works p (.body s.module.funcs.length) t y fun a u => Ended u.module
      s.module.funcs.length ∧ (r.IsDefined → HasEmitted p s.module.funcs.length r u) ∧ Q a u) :
    Works p .away s x Q := by
  intro hs hadmits
  have hlen : t.module.funcs.length = s.module.funcs.length + 1 := by simp [ht]
  have hend := hy (hs.step hc) (hadmits.declared hc ht hrecords)
  unfold Ends at hend ⊢
  rw [hrun]
  refine Ends.mono (x := y) hend (fun a u ⟨h, hended, hemitted, hq⟩ => ⟨?_, hq⟩) fun _ _ hf =>
    hf.before (.single hc)
  -- the new function is the only one of those that are there now that the body touches
  have hlt {g : FuncId} (hg : g < s.module.funcs.length) : g < t.module.funcs.length := by
    rw [hlen]
    exact Nat.lt_succ_of_lt hg
  have hne {g : FuncId} (hg : g < s.module.funcs.length) :
      (Manner.body s.module.funcs.length).own? ≠ some g :=
      fun he => Nat.ne_of_gt hg (Option.some.inj he)
  have hothers (g : FuncId) (hg : g < s.module.funcs.length) :
      u.module.func? g = s.module.func? g := by
    rw [h.others g (hlt hg) (hne hg)]
    unfold Module.func?
    rw [ht, List.getElem?_append_left hg]
  refine ⟨.head hc h.changes, hadmits, fun g hg _ => hothers g hg, fun g fn' hg hf => ?_,
    h.inner.trans hi,
    fun g hg _ => ?_, fun h => (by cases h), fun _ g ⟨fn', b, hf, hb, hopen⟩ => ?_, fun h =>
      (by cases h),
    fun h => (by cases h), fun q hq => h.completes q (hrecords ▸ hq), fun g r' hg => ?_⟩
  · rcases Nat.eq_or_lt_of_le hg with rfl | hlt
    · obtain ⟨fn'', hf'', hended'⟩ := hended
      obtain rfl := Option.some.inj (hf.symm.trans hf'')
      exact hended'
    · exact h.settled g fn' (by rw [hlen]; exact hlt) hf
  · rw [h.declared g (hlt hg) (hne hg)]
    unfold State.variablesOf
    rw [hv]
  · exact ⟨fn', b, by rw [hothers g (List.getElem?_eq_some_iff.1 hf).1, hf], hb, hopen⟩
  · rcases h.emitted g r' hg with hg | hg
    · rw [ho] at hg
      rcases List.mem_append.1 hg with hg | hg
      · exact .inl hg
      · obtain ⟨rfl, rfl⟩ := Prod.mk.inj (List.mem_singleton.1 hg)
        exact .inr hemitted
    · exact .inr hg

def Emission.func (e : Emission) (returns : Ty) (params : List Ty) : Func :=
  declaredFunc e.name returns
    ((e.names.take params.length ++ List.replicate (params.length - e.names.length) "").zip params)

def Emission.declare (e : Emission) (returns : Ty) (params : List Ty) (s : State) : State :=
  { s with
    module := { s.module with funcs := s.module.funcs ++ [e.func returns params] }
    funcs := s.funcs ++ [(e.name, s.module.funcs.length)]
    origins := s.origins ++ [(s.module.funcs.length, ⟨e.decl, e.owner?⟩)] }

section
variable {e : Emission} {returns : Ty} {params : List Ty}

theorem Emission.length_names (e : Emission) (params : List Ty) :
    (e.names.take params.length ++ List.replicate (params.length - e.names.length) "").length =
    params.length := by
  rw [List.length_append, List.length_take, List.length_replicate]
  omega

theorem Emission.paramTypes_func : (e.func returns params).paramTypes = params := by
  rw [Emission.func, paramTypes_declaredFunc]
  exact List.map_snd_zip (Nat.le_of_eq (e.length_names params).symm)

theorem Emission.areNamed_func : AreNamed e.names (e.func returns params).params := by
  have hlen : (e.func returns params).params.length = params.length := by
    simp [Emission.func, declaredFunc, e.length_names params]
  unfold AreNamed
  rw [hlen]
  simp only [Emission.func, declaredFunc, List.map_map]
  exact List.map_fst_zip (Nat.le_of_eq (e.length_names params))

theorem Emission.change_declare (hnew : s.funcs.lookup e.name = none) (he : e.Fits p s)
    (hreturns : returns.IsPlain s.module.records)
    (hparams : ∀ t ∈ params, t.IsPlain s.module.records) :
    Change p s (e.declare returns params s) := by
  have hfits :
      FuncFits s.module (e.func returns params) :=
      ⟨rfl, hreturns, by rwa [Emission.paramTypes_func]⟩
  exact .declare (e.func returns params) (some ⟨e.decl, e.owner?⟩) hnew hfits (fun h => by cases h)
    fun r hr => Option.some.inj hr ▸ ⟨he.requested, he.mangled⟩

end

def emitDeclared [v : Viewpoint] (p : Program) (emitFunction : Emitter) (e : Emission)
    (f : FuncId) : Lower FuncId := do
  Lower.debug ("emitting " ++ e.name)
  match e.function.body? with
  | none => pure ()
  | some body =>
    Action.detached <| Lower.insideNamespaces e.decl.namespacePath <|
      Action.withScope e.name fun scope =>
        Lower.emitBody (v := v.body e.decl scope) p emitFunction e f body scope
    Lower.verifyFunc e f
  return f

theorem Emission.Begins.works {depth : Nat} {e : Emission} {body : Program.Block} {scope : ScopeId}
    (hem : EmitterWorks p (Lower.emitTo p depth)) (h : e.Begins p f body scope s) :
    Works p (.body f) s (Lower.emitBody p (Lower.emitTo p depth) e f body scope) fun _ u =>
      Ended u.module f ∧ (e.function.shape = .constructor → Allocates p f e.owner? u) := by
  obtain ⟨fn, hf, hblocks, hnamed⟩ := h.declared
  exact emitBody_works hem hf hblocks h.isNew h.scope h.fits h.body hnamed

/-- The function that was declared waits untouched until its body is emitted, away from where it was
asked for. -/
theorem emitDetached_works {depth : Nat} (hem : EmitterWorks p (Lower.emitTo p depth))
    {e : Emission} {fn : Func}
    {body : Program.Block} (hf : s.module.func? f = some fn) (hblocks : fn.blocks = [])
    (hne : f ≠ Lower.entryFunc)
    (he : e.Fits p s) (hbody : e.function.body? = some body) (hnamed : AreNamed e.names fn.params) :
    Works p (.body f) s
      (Action.detached <| Lower.insideNamespaces e.decl.namespacePath <|
        Action.withScope e.name (Lower.emitBody p (Lower.emitTo p depth) e f body))
      fun _ u => Ended u.module f ∧ HasEmitted p f ⟨e.decl, e.owner?⟩ u := by
  let Done (u : State) : Prop := Ended u.module f ∧ HasEmitted p f ⟨e.decl, e.owner?⟩ u
  -- leaving the scopes of the body changes nothing about it
  have left {t : State} (inner : List ScopeId) (h : Done t) :
      Done { t with env := { t.env with inner } } :=
    ⟨h.1, h.2.mono (.single (.enter inner))⟩
  have emitted (inner : List ScopeId) : Works p (.body f) { s with env := { s.env with inner } }
      (Action.withScope e.name (Lower.emitBody p (Lower.emitTo p depth) e f body)) fun _ u =>
        Done u := by
    refine .bind_le (createScope_works (M := .naming) rfl fun o h => by cases h) (.naming rfl rfl)
      fun k t _ h hk => ?_
    have hft : t.module.func? f = some fn := by
      unfold Module.func?
      rw [(h.still rfl).1]
      exact hf
    have het : e.Fits p t := (he.mono (.single (.enter inner))).mono h.changes
    refine enter_works (Q := fun _ u => Done u) rfl (.relying fun ht hadmits => ?_) fun _ _ =>
      left _
    have hbegins : e.Begins p f body k _ :=
      ⟨ht, hadmits, het.mono (.single (.enter _)), hbody, ⟨fn, hft, hblocks, hnamed⟩, hne,
        hk.1, hk.2.1⟩
    exact ((hbegins.works hem).and fun _ _ hrun => hrun).mono fun _ u _ _ ⟨hdone, hrun⟩ =>
      ⟨hdone.1, e, depth, body, k, _, u, rfl, rfl, hbegins, hrun, .refl⟩
  exact withInner_works (Q := fun _ u => Done u) rfl
    (insideNamespaces_works rfl (fun _ _ inner => left inner) emitted) fun _ _ => left _

theorem defineFunc_works {depth : Nat} (hem : EmitterWorks p (Lower.emitTo p depth)) {e : Emission}
    {returns : Ty} {params : List Ty} (hnew : s.funcs.lookup e.name = none) (he : e.Fits p s)
    (hreturns : returns.IsPlain s.module.records)
    (hparams : ∀ t ∈ params, t.IsPlain s.module.records) :
    Works p .away s (Lower.defineFunc p (Lower.emitTo p depth) e returns params)
      fun f u => u.funcs.lookup e.name = some f := by
  refine .sound fun hs => ?_
  have hchange := Emission.change_declare hnew he hreturns hparams
  refine .declared hchange rfl rfl rfl rfl rfl (by rfl)
    (y := emitDeclared p (Lower.emitTo p depth) e s.module.funcs.length) ?_
  have hne : s.module.funcs.length ≠ Lower.entryFunc := by
    obtain ⟨fn0, b0, h0, -⟩ := hs.entry
    exact Nat.ne_of_gt (List.getElem?_eq_some_iff.1 h0).1
  refine .bind_le (debug_works (M := .asIs)) (.asIs rfl) fun _ t1 _ h1 _ => ?_
  have hf1 : t1.module.func? s.module.funcs.length = some (e.func returns params) := by
    unfold Module.func?
    rw [(h1.still rfl).1]
    exact List.getElem?_concat_length
  have hl1 : t1.funcs.lookup e.name = some s.module.funcs.length := by
    rw [(h1.still rfl).2, Emission.declare, List.lookup_append, hnew]
    simp
  split
  · rename_i hbody
    refine .pure ⟨⟨_, hf1, rfl⟩, fun hr => ?_, hl1⟩
    obtain ⟨fn', body, hfn', hbody'⟩ := hr
    obtain rfl := Option.some.inj (he.function.symm.trans hfn')
    rw [hbody] at hbody'
    cases hbody'
  · rename_i body hbody
    have he1 := he.mono ((Relation.ReflTransGen.single hchange).trans h1.changes)
    refine .bind (emitDetached_works hem hf1 rfl hne he1 hbody Emission.areNamed_func)
      fun _ t3 _ h3 hdone => ?_
    obtain ⟨hended, hemitted⟩ := hdone
    refine .bind_le (verifyFunc_works (M := .asIs) hended) (.asIs rfl) fun _ t4 _ h4 _ =>
      .pure ⟨?_, fun _ => hemitted.mono h4.changes, ?_⟩
    · obtain ⟨fn3, hf3, hterm⟩ := hended
      refine ⟨fn3, ?_, hterm⟩
      unfold Module.func?
      rw [(h4.still rfl).1]
      exact hf3
    · exact lookup_grown (h3.changes.trans h4.changes |> Changes.remembers).funcs hl1

theorem mangledFunction_error {d : Place} {owner? : Option TypeId} {f : Fault}
    (h : p.mangledFunction d owner? = .error f) : IsOrdinary f := by
  have shown {text? : Option String} {f : Fault} (h : Program.shown text? = .error f) :
      IsOrdinary f := by
    cases text? <;> cases h
    exact isOrdinary_crashed
  have qualifier {f : Fault} (h : p.mangledQualifier d owner? = .error f) : IsOrdinary f := by
    cases owner? with
    | none => cases h
    | some owner =>
      simp only [Program.mangledQualifier] at h
      cases hm : p.mangledType owner <;> rw [hm] at h <;> cases h
      exact isOrdinary_exhausted
  unfold Program.mangledFunction at h
  split at h
  · cases hs : Program.shown d.node.source <;> rw [hs] at h <;> cases h
    · exact shown hs
    · exact isOrdinary_causeAt _ rfl
  · cases hq : p.mangledQualifier d owner? <;> rw [hq] at h
    · cases h
      exact qualifier hq
    · cases hb : Program.shown d.node.baseName <;> rw [hb] at h <;> cases h
      exact shown hb

theorem receiver_works {decl : Place} {owner? : Option TypeId} {parent : ScopeId}
    (hparent : decl.isMember = true → ∀ owner, owner? = some owner →
      IsOwnerScope p owner parent s) :
    Works p M s (owner?.mapM (Lower.receiverRecord p parent)) fun t? u => ReceiverFits u.module t? ∧
      (decl.isMember = true → ∀ owner r, owner? = some owner → t? = some (.record r) →
        IsReceiver p owner r u) := by
  cases owner? with
  | none => exact .pure ⟨fun t ht => (by cases ht), fun _ _ _ ho => by cases ho⟩
  | some owner =>
    refine .map (receiverRecord_works.mono ?_)
    rintro _ u - - ⟨r, rfl, hlt, hreceiver⟩
    refine ⟨fun t ht => ⟨r, (Option.some.inj ht).symm, hlt⟩, fun hm owner' r' ho hr' => ?_⟩
    obtain rfl := Option.some.inj ho
    obtain rfl := Ty.record.inj (Option.some.inj hr')
    exact hreceiver (hparent hm owner rfl)

theorem Requested.mentions_names {decl : Place} {owner? : Option TypeId} {function : FunctionLike}
    {n : String} (h : Requested p ⟨decl, owner?⟩) (hf : decl.node.functionLike? = some function)
    (hn : n ∈ (if function.shape.takesReceiver then ["this"] else []) ++
      (p.signature decl.node function).params.map SymbolInfo.name) (hne :
      n ≠ "") : p.Mentions n := by
  rcases List.mem_append.1 hn with hn | hn
  · split at hn
    · rw [List.mem_singleton.1 hn]
      exact .this
    · cases hn
  · exact names_signature ⟨decl, h.mem_places, rfl⟩ hf hn hne

theorem paramTypes_works {args : List (Option TypeId)} :
    Works p M s (args.mapM (Lower.type p)) fun ts u => ∀ t ∈ ts, t.IsPlain u.module.records :=
  .mapM (P := fun t u => t.IsPlain u.module.records) (fun _ _ _ hc ht => hc.grows.records.plain ht)
    fun _ _ _ => type_works.mono fun _ _ _ _ ht => ht.plain

theorem emitNew_works {depth : Nat} (hem : EmitterWorks p (Lower.emitTo p depth)) {decl : Place}
    {function : FunctionLike} {owner? : Option TypeId} {args : List (Option TypeId)} {name : String}
    {parent : ScopeId}
    (hnew : s.funcs.lookup name = none) (hname : p.mangledFunction decl owner? = .ok name)
    (hrequest : Requested p ⟨decl, owner?⟩) (hfunction : decl.node.functionLike? = some function)
    (hparent : decl.isMember = true → ∀ owner, owner? = some owner →
      IsOwnerScope p owner parent s) :
    Works p .away s (Lower.emitNew p (Lower.emitTo p depth) decl function owner? args name parent)
      fun f u => u.funcs.lookup name = some f := by
  refine .bind_le (receiver_works hparent) (.asIs rfl) fun receiver? t1 _ h1 ⟨hreceiver, howner⟩ =>
    ?_
  refine .bind_le (returnType_works hreceiver) (.asIs rfl) fun returns t2 _ h2 hreturns => ?_
  refine .bind_le (receiverParam_works (hreceiver.mono h2.changes.grows)) (.asIs rfl)
    fun own t3 _ h3 hown => ?_
  refine .bind_le paramTypes_works (.asIs rfl) fun types t4 _ h4 htypes => ?_
  have h : Reach p .asIs s t4 := ((h1.trans h2).trans h3).trans h4
  have hc : Changes p t1 t4 := ((h2.trans h3).trans h4).changes
  refine defineFunc_works hem ?_ ⟨hrequest, hfunction, hname, hreceiver.mono hc.grows,
    fun hm owner r ho hr => (howner hm owner r ho hr).mono hc, fun _ =>
      hrequest.mentions_names hfunction⟩
    ((h3.trans h4).changes.grows.records.plain hreturns) fun t ht => ?_
  · rw [(h.still rfl).2]
    exact hnew
  · rcases List.mem_append.1 ht with ht | ht
    · exact h4.changes.grows.records.plain (hown t ht)
    · exact htypes t ht

theorem emitTo_works (depth : Nat) : EmitterWorks p (Lower.emitTo p depth) := by
  induction depth with
  | zero => exact fun d owner? args s _ => .throw (isOrdinary_exhausted.verdict _)
  | succ depth ih =>
    intro d owner? args s hrequest
    unfold Lower.emitTo
    split
    · exact .refuseAt rfl
    rename_i function hfunction
    refine .read_bind (.ofExcept (fun _ => mangledFunction_error) fun _ => id) fun name hname => ?_
    refine .get_bind fun _ => ?_
    split
    · rename_i g hg
      exact .pure ⟨name, hname, hg⟩
    rename_i hnew
    refine .bind_le (declaringScope_works (M := .naming) rfl) (.naming rfl rfl)
      fun parent t1 _ h1 hparent => ?_
    have hnew1 : t1.funcs.lookup name = none := by
      rw [(h1.still rfl).2]
      exact hnew
    -- whether the runtime has the function or it is emitted, its name is bound afterwards
    have bound {g : FuncId} {t : State} (hg : t.funcs.lookup name = some g) : Works p .away t
        (do let base ← Lower.orCrash d.node.baseName
            Action.bindName parent base (.value (← Lower.funcValue g))
            return g) fun g u => Answers p ⟨d, owner?⟩ g u := by
      refine .sound fun ht => .read_bind (.orCrash fun _ _ => trivial) fun base _ => ?_
      obtain ⟨fn, hfn⟩ := ht.table_func hg
      refine .read_bind (funcValue_reads hfn) ?_
      rintro _ rfl
      have hfit : (Value.func g (.pointer fn.signature)).IsFit t.module := ⟨⟨fn, hfn, rfl⟩, trivial⟩
      refine .bind (bindValue_works rfl hfit) fun _ u _ h _ => .pure ⟨name, hname, ?_⟩
      exact lookup_grown h.changes.remembers.funcs hg
    dsimp only
    split
    · exact .bind (builtin_works rfl rfl rfl) fun g t _ _ hg => bound hg
    · exact .bind (emitNew_works ih hnew1 hname hrequest hfunction hparent) fun g t _ _ hg =>
        bound hg

theorem emitFunction_works (p : Program) : EmitterWorks p (Lower.emitFunction p) := emitTo_works _

end

end CheckedIR.Lowering

import CheckedIR.Proofs.Lowering.GuardedCode

/-!
# Emissions are guarded

A constructor is a member, so it has an owner and the record of its objects; other members have a
receiver. What a constructor stores in its object is all that is not checked.
-/

namespace CheckedIR.Lowering

open CheckedIR.Ir CheckedIR.Program CheckedIR.Scope CheckedIR.Scope.Action

section
variable {p : Program} {o : Options} {M : Manner} {s t : State} {f : FuncId} {depth : Nat}

/-! ## Signatures -/

theorem returnType_tame {decl : Node} {shape : FunctionShape} {signature : Signature}
    {owner? : Option TypeId}
    {receiver? : Option Ty} (howned : shape = .constructor → ∃ t, receiver? = some t)
    (hindexed : shape = .indexSignature → ∃ owner, owner? = some owner) :
    Tame s (Lower.returnType p decl shape signature owner? receiver?) fun _ => True := by
  unfold Lower.returnType
  split
  · exact .orCrash_bind (howned rfl) fun _ => .pure trivial
  · split
    · exact .bind type_tame fun _ _ _ => .pure trivial
    · exact .orCrash_bind (hindexed rfl) fun _ => .bind .answered fun _ _ _ => .refuseAt
  all_goals exact type_tame

theorem receiverParam_tame {decl : Place} {shape : FunctionShape} {receiver? : Option Ty}
    (hsource : ∃ text, decl.node.source = some text) :
    Tame s (Lower.receiverParam decl shape receiver?) fun ts => shape.takesReceiver = true →
      ts ≠ [] := by
  unfold Lower.receiverParam
  split
  · rename_i hno
    refine .pure fun h => ?_
    rw [h] at hno
    cases hno
  · split
    · exact .bind (Q := fun _ => True) (.bind isValueType_tame fun _ _ _ => .pure trivial)
        fun _ _ _ =>
        .pure fun _ => List.cons_ne_nil _ _
    · exact .orCrash_bind hsource fun _ => .refuseAt

/-! ## Constructors -/

theorem Gives.fieldAddress {r : RecordId} {base a : Value} {index : Nat}
    (h : Gives (Lower.fieldAddress r base index) s a t) :
    ∃ elem, (s.module.records.get r).fields[index]? = some elem ∧ a.type = .pointer elem ∧
      t.module.records = s.module.records := by
  obtain ⟨elem, u, hread, h⟩ := h.get_bind.bind
  obtain ⟨helem, rfl⟩ := hread.orCrash
  obtain ⟨⟨i, rfl⟩, hrecords⟩ := h.emit
  exact ⟨elem, helem, rfl, hrecords⟩

structure Constructing (p : Program) (e : Emission) (f : FuncId) (owner : TypeId) (r : RecordId)
    (this : Value) (s : State) : Prop where
  ready : Ready f s
  made : (f, ⟨e.decl, some owner⟩) ∈ s.origins
  record : HasRecord p owner r s
  allocated : AllocatesRecord p f r s
  usable : Usable f s this

theorem Constructing.mono {e : Emission} {owner : TypeId} {r : RecordId} {this : Value}
    (h : Constructing p e f owner r this s) (hr : Ready f t) (hc : Changes p s t) :
    Constructing p e f owner r this t :=
  ⟨hr, hc.remembers.origins.subset h.made, h.record.mono hc, h.allocated.mono hc, h.usable.mono hc⟩

theorem storeProperty_guarded {e : Emission} {owner : TypeId} {r : RecordId} {this v : Value}
    {name : String}
    (h : Constructing p e f owner r this s) (hthis : this.IsWritable) (hw : v.IsWritable)
    (hstores : Stores p o s owner name v) :
    Guarded p o (.within f) s (Lower.storeProperty p owner r this name v) fun _ => True := by
  obtain ⟨hfilled, -, -, -, -, ⟨rec, -, hrec, hvisible, -⟩, -⟩ := h.allocated
  unfold Lower.storeProperty
  split
  · exact .of_tame (.bind .answered fun _ _ _ => .refuse)
  rename_i k hk
  refine .bind_gives (fieldAddress_works h.ready h.usable) (.refl _)
    (fieldAddress_guarded h.ready hthis fun hnone => ?_) fun a t hgives _ hreach _ ha => ?_
  · refine .missing hstores h.record
      (lacksField (List.getElem?_eq_some_iff.1 hrec).1 hfilled ?_ hk hnone)
    rw [Records.get_of_getElem? hrec]
    exact hvisible
  · obtain ⟨elem, helem, htype, hsame⟩ := hgives.fieldAddress
    rw [Records.get_of_getElem? hrec] at helem
    refine store_guarded (hreach.ready rfl rfl h.ready) hw ha htype fun hno => ?_
    refine .mismatch (hstores.mono hreach.changes.grows hreach.changes.remembers.origins)
      (h.record.mono hreach.changes) ⟨rec, k, elem, ?_, hk, helem, hno⟩
    rw [hsame]
    exact hrec

theorem storeParams_guarded {e : Emission} {owner : TypeId} {r : RecordId} {this : Value}
    {index : Nat} {ps : List Program.Param} (hd : e.decl.node.functionLike? = some e.function)
    (hc : e.function.shape = .constructor)
    (hps : ∀ j, ps[j]? = e.function.params[index + j]?) (h : Constructing p e f owner r this s)
    (hthis : this.IsWritable) :
    Guarded p o (.within f) s (Lower.storeParams p f owner r this index ps) fun _ => True := by
  induction ps generalizing s index with
  | nil => exact .pure trivial
  | cons q ps ih =>
    have hq : e.function.params[index]? = some q := (hps 0).symm
    have hrest (j : Nat) : ps[j]? = e.function.params[index + 1 + j]? := by
      rw [Nat.add_right_comm, Nat.add_assoc, ← hps (j + 1), List.getElem?_cons_succ]
    obtain ⟨fn, b, hf, -⟩ := h.ready.isOpen
    rw [Lower.storeParams]
    dsimp only
    split
    · rename_i hproperty
      refine .sound fun hs => .func_bind hf ?_
      split
      · rename_i param hparam
        have hv := usable_param hs hf hparam
        have ht : fn.paramTypes[index]? = some param.type := by simp [Func.paramTypes, hparam]
        exact .bind (storeProperty_works h.ready h.usable hv)
          (storeProperty_guarded h hthis trivial (.param h.made hd hc hq hproperty hf ht))
          fun _ t _ hreach hr' _ =>
          ih hrest (h.mono hr' hreach.changes)
      · exact ih hrest h
    · exact ih hrest h

theorem storeInitializers_guarded (hp : p.IsWhole) (hem : EmitterGuarded p o (Lower.emitTo p depth))
    {e : Emission} {owner : TypeId} {r : RecordId} {this : Value} {c : Stmt} {ms : List Member}
    (hd : e.decl.node.functionLike? = some e.function) (hc : e.function.shape = .constructor)
    (hparent : e.decl.parent? = some (.stmt c)) (hhas : p.Has (.stmt c))
    (hms : ∀ m ∈ ms, .member m ∈ (Node.stmt c).children)
    (h : Constructing p e f owner r this s) (hthis : this.IsWritable) :
    Guarded p o (.within f) s (Lower.storeInitializers p (Lower.emitTo p depth) owner r this ms)
    fun _ => True := by
  induction ms generalizing s with
  | nil => exact .pure trivial
  | cons m ms ih =>
    have hrest : ∀ m ∈ ms, Node.member m ∈ (Node.stmt c).children :=
      fun m' hm' => hms m' (List.mem_cons_of_mem m hm')
    unfold Lower.storeInitializers
    split
    · exact .pure trivial
    · rename_i i name isReadonly init rest heq
      obtain ⟨rfl, rfl⟩ := List.cons_eq_cons.1 heq
      have hm := hms _ List.mem_cons_self
      have hinit : p.Has (.expr init) := hp.has_slot (hhas.child hm) (by simp [Node.slots])
      refine .relying fun hreached _ =>
        .bind_gives (rvalue_works (emitTo_works depth) init h.ready) (.refl _)
        (rvalue_guarded hp hem init hinit h.ready) fun v t hgives _ hreach hv hw => ?_
      have ht := h.mono (hreach.ready rfl rfl h.ready) hreach.changes
      refine .bind (storeProperty_works ht.ready ht.usable hv)
        (storeProperty_guarded ht hthis hw ?_)
        fun _ u _ hreach' hr' _ => ih hrest (ht.mono hr' hreach'.changes)
      exact .initializer ht.made hd hc hparent hm ⟨depth, s, t, hreached, hgives, .refl _⟩
    · rename_i heq
      obtain ⟨-, rfl⟩ := List.cons_eq_cons.1 heq
      exact ih hrest h

theorem allocate_guarded {r : RecordId} (hr : Ready f s) (hlt : r < s.module.records.length) :
    Guarded p o (.within f) s (Lower.allocate (.record r)) Value.IsWritable := by
  refine .relying fun _ hadmits =>
    .read_bind (isString_reads (t := .record r)) (.of_tame isString_tame) fun b _ _ => ?_
  split
  · exact .of_tame (.bind typeText_tame fun _ _ _ => .bind (Q := fun _ => False) .refuse
      fun _ _ h => h.elim)
  refine .bind_le (byteSize_works (M := .asIs) hlt (hadmits.filled r hlt List.not_mem_nil))
    (.asIs rfl) (.of_tame byteSize_tame) fun size t1 _ h1 _ _ => ?_
  refine .bind_le (builtin_works (M := .quiet) rfl rfl rfl) (.quiet rfl rfl rfl)
    (.of_tame builtin_tame) fun g t2 hs2 h2 hg _ => ?_
  have hr2 := h2.ready rfl rfl (h1.ready rfl rfl hr)
  have hargs : ∀ v ∈ [Value.const (.int 32 size.toInt)], Usable f t2 v ∧ v.IsWritable := by
    intro v hv
    rw [List.mem_singleton.1 hv]
    exact ⟨usable_const trivial, fun h => absurd h (by decide)⟩
  exact .bind (runtimeCall_works hr2 hg rfl fun v hv => (hargs v hv).1)
    (call_guarded hr2 (hs2.table_func hg) fun v hv => (hargs v hv).2) fun raw t3 _ h3 _ hraw =>
    emit_guarded (h3.ready rfl rfl hr2) (isWritable_single rfl rfl hraw)

theorem setThis_tame {v : Value} (hv : v.IsWritable) :
    Tame s (modify fun s => { s with frame := { s.frame with this? := some v } }) fun _ => True :=
  .keep fun hs => ⟨hs.module, hs.names, fun _ hw => Option.some.inj hw ▸ hv⟩

theorem constructObject_guarded (hp : p.IsWhole) (hem : EmitterGuarded p o (Lower.emitTo p depth))
    {e : Emission}
    {scope : ScopeId} (hr : Ready f s) (hfirst : s.module.firstCall? f = none) (he : e.Fits p s)
    (hc : e.function.shape = .constructor) (hmade : (f, ⟨e.decl, e.owner?⟩) ∈ s.origins)
    (howner : ∃ owner, e.owner? = some owner) (hreceiver : ∃ t, e.receiver? = some t) :
    Guarded p o (.body f) s (Lower.constructObject p (Lower.emitTo p depth) e f scope) fun _ =>
      True := by
  refine .orCrash_bind hreceiver fun t ht => .orCrash_bind howner fun owner howner => ?_
  obtain ⟨r, rfl, hlt⟩ := he.receiver t ht
  have hreceiver :
      IsReceiver p owner r s :=
      he.owner (he.requested.isMember_constructor he.function hc) owner r howner ht
  refine .bind_le (allocate_works hr hlt hfirst) .within_body (allocate_guarded hr hlt)
    fun this t1 _ h1 ⟨hthis, halloc, hstring⟩ hw => ?_
  have hr1 := h1.ready rfl rfl hr
  have hmaking : Constructing p e f owner r this t1 :=
    ⟨hr1, howner ▸ h1.changes.remembers.origins.subset hmade,
      (hreceiver.resolve_right hstring).mono h1.changes, halloc, hthis⟩
  refine .bind (setThis_works hr1 hthis) (.of_tame (setThis_tame hw)) fun _ t2 _ h2 hr2 _ => ?_
  have hmaking2 := hmaking.mono hr2 h2.changes
  refine .bind_le (bindValue_works (M := .within f) rfl hmaking2.usable.fit) .within_body
    (.of_tame (bindName_tame fun w h => Binding.value.inj h ▸ hw)) fun _ t3 _ h3 _ _ => ?_
  have hmaking3 := hmaking2.mono (h3.ready rfl rfl hr2) h3.changes
  refine .bind_le (storeParams_works hmaking3.ready hmaking3.usable) .within_body
    (storeParams_guarded he.function hc (fun j => by rw [Nat.zero_add]) hmaking3 hw)
    fun _ t4 _ h4 hr4 _ => ?_
  have hmaking4 := hmaking3.mono hr4 h4.changes
  split
  · rename_i hparent
    refine .weaken .within_body (storeInitializers_guarded hp hem he.function hc hparent
      (has_parent he.requested.mem_places hparent) (fun m hm => List.mem_map_of_mem hm) hmaking4 hw)
  · exact .pure trivial

/-! ## Bodies -/

theorem bindParams_tame {scope : ScopeId} {index : Nat} {names : List String}
    {params : List Ir.Param} :
    Tame s (Lower.bindParams f scope index names params) fun _ => True := by
  induction params generalizing s index names with
  | nil => cases names <;> exact .pure trivial
  | cons q params ih =>
    cases names with
    | nil => exact .pure trivial
    | cons name names =>
      rw [Lower.bindParams]
      dsimp only
      split
      · exact .bind (bindName_tame fun v hv => Binding.value.inj hv ▸ trivial) fun _ _ _ =>
          .bind (.discard localName_tame) fun _ _ _ => ih
      · exact ih

theorem open_guarded {α : Type} {fn : Func} {isConstructor : Bool} {rest : Lower α} {P : α → Prop}
    (hf : s.module.func? f = some fn) (hblocks : fn.blocks = []) (hdistinct : fn.paramNames.Nodup)
    (hgiven : ∀ n ∈ fn.paramNames, p.Mentions n ∧ 0 < s.given f n)
    (hrest : ∀ t, Ready f t → t.module.firstCall? f = none → Changes p s t →
      Guarded p o (.body f) t rest P) : Guarded p o (.body f) s
      (do let block ← Lower.newBlock f "entry"
          modify fun s => { s with cursor := ⟨f, block⟩, frame := ⟨f, none, isConstructor⟩ }
          rest) P := by
  have hchange : Change p s _ := .open f fn isConstructor hf hblocks hdistinct hgiven
  have hbody := Module.func?_setBody (b := ⟨"entry", 0, [], none⟩) hf
  refine .step hchange (fun ho hc => .setBody hc ho rfl hf rfl rfl (fun h => by cases h)
    (fun _ => rfl) rfl rfl
    ⟨rfl, rfl⟩) (fun hs => ⟨hs.module.setBody ⟨rfl, nofun, nofun⟩, hs.names, nofun⟩) ?_ fun _ h =>
      hrest _ ⟨rfl, ⟨_, _, hbody, rfl, rfl⟩⟩ (Module.firstCall?_setBody hf _) h.changes
  rw [run_bind, run_newBlock hf hblocks]
  rfl

theorem statements_then_guarded (hp : p.IsWhole) (hem : EmitterGuarded p o (Lower.emitTo p depth))
    {scope : ScopeId}
    {ss : List Stmt} {last : Lower Unit} (hss : ∀ st ∈ ss, p.Has (.stmt st)) (hr : Ready f s)
    (hne : f ≠ Lower.entryFunc) (hscope : 0 < scope)
    (hlast : ∀ t, Ready f t → Guarded p o (.body f) t last fun _ => True) :
    Guarded p o (.body f) s
      (do Lower.statements p (Lower.emitTo p depth) scope ss
          if ! (← Lower.isTerminated) then last) fun _ => True := by
  have hopen : f = Lower.entryFunc → s.module.IsOpen f := fun he => absurd he hne
  have hscope' : scope ≠ Environment.global ∨ AtEntry s := .inl (Nat.ne_of_gt hscope)
  refine .bind_le (statements_works (emitTo_works depth) ss hss hr.here hopen hscope') .along_body
    (statements_guarded hp hem ss hss hr.here hopen hscope') fun _ t ht h _ _ =>
    .read_bind (isTerminated_reads ht) isTerminated_guarded fun ended hended _ => ?_
  have hcursor : t.cursor.func = f := (h.place rfl).1 ▸ hr.here
  rw [hcursor] at hended
  split
  · rename_i hgo
    exact hlast t ⟨hcursor, hended.1 (by simpa using hgo)⟩
  · exact .pure trivial

theorem emitBody_guarded (hp : p.IsWhole) (hem : EmitterGuarded p o (Lower.emitTo p depth))
    {e : Emission} {fn : Func}
    {body : Program.Block} {scope : ScopeId} (hf : s.module.func? f = some fn)
    (hblocks : fn.blocks = [])
    (hne : f ≠ Lower.entryFunc) (hscope : 0 < scope ∧ scope < s.env.scopes.length) (he : e.Fits p s)
    (hbody : e.function.body? = some body) (hnamed : AreNamed e.names fn.params)
    (hmade : (f, ⟨e.decl, e.owner?⟩) ∈ s.origins)
    (howned : e.function.shape = .constructor → (∃ owner, e.owner? = some owner) ∧
      ∃ t, e.receiver? = some t)
    (hreceived : e.function.shape.takesReceiver = true → fn.paramTypes ≠ []) :
    Guarded p o (.body f) s (Lower.emitBody p (Lower.emitTo p depth) e f body scope) fun _ =>
      True := by
  have returnThis (t : State) :
      Guarded p o (.body f) t (do Lower.terminate (.ret (← get).frame.this?)) fun _ => True := by
    intro hc ho ht
    refine Guarded.get_bind (.of_tame (terminate_tame fun v hv => ?_)) hc ho ht
    cases hthis : t.frame.this? with
    | none =>
      rw [hthis] at hv
      cases hv
    | some this =>
      rw [hthis] at hv
      exact List.mem_singleton.1 hv ▸ ht.this this hthis
  have fallOff (t : State) (hr : Ready f t) : Guarded p o (.body f) t
      (do if (← Lower.func f).returns.isMatch (← get).module.records .void then
            Lower.terminate (.ret none)
          else Lower.terminate .unreachable) fun _ => True := by
    obtain ⟨fn', b, hf', -⟩ := hr.isOpen
    refine .func_bind hf' (.get_bind ?_)
    split
    · exact .of_tame (terminate_tame nofun)
    · exact .of_tame (terminate_tame nofun)
  refine .func_bind hf ?_
  refine .bind_le (bindParams_works hf hscope.2 (fun j q hj => by simp [Func.paramTypes, hj])
    he.names hnamed) (.naming rfl rfl) (.of_tame bindParams_tame) fun _ t _ h hbound _ => ?_
  obtain ⟨hdistinct, hgiven⟩ := hbound
  have hft : t.module.func? f = some fn := by
    unfold Module.func?
    rw [(h.still rfl).1]
    exact hf
  have hss : ∀ st ∈ body.statements, p.Has (.stmt st) := fun st hst =>
    Has.statement ⟨e.decl, he.requested.mem_places, rfl⟩ he.function hbody hst
  refine open_guarded hft hblocks hdistinct (fun n hn => (hgiven n hn).2) fun t1 hr1 hfirst hc1 =>
    ?_
  have hc : Changes p s t1 := h.changes.trans hc1
  dsimp only
  split
  · rename_i hshape
    have hshape : e.function.shape = .constructor := by simpa using hshape
    refine .bind (constructObject_works (emitTo_works depth) hr1 hfirst (he.mono hc) hshape)
      (constructObject_guarded hp hem hr1 hfirst (he.mono hc) hshape
        (hc.remembers.origins.subset hmade) (howned hshape).1
        (howned hshape).2) fun _ u _ _ hconstructed _ => ?_
    exact statements_then_guarded hp hem hss hconstructed.1 hne hscope.1 fun t _ => returnThis t
  · split
    · rename_i htakes
      obtain ⟨fn1, hf1, hgrown⟩ := hc.grows.funcs f fn hf
      have hparam : ∃ q, fn1.params[0]? = some q := by
        have hne : fn1.paramTypes ≠ [] := hgrown.paramTypes ▸ hreceived htakes
        cases hparams : fn1.params with
        | nil => exact absurd (by simp [Func.paramTypes, hparams]) hne
        | cons q qs => exact ⟨q, rfl⟩
      refine .sound fun hs1 => .func_bind hf1 (.orCrash_bind hparam fun q hq => ?_)
      exact .bind (setThis_works hr1 (usable_param hs1 hf1 hq)) (.of_tame (setThis_tame trivial))
        fun _ u _ _ hu _ =>
        statements_then_guarded hp hem hss hu hne hscope.1 fallOff
    · exact statements_then_guarded hp hem hss hr1 hne hscope.1 fallOff

/-! ## Verification -/

theorem verifyFunc_guarded {e : Emission} (hf : Ended s.module f) :
    Guarded p o M s (Lower.verifyFunc e f) fun _ => True := by
  obtain ⟨fn, hfn, hended⟩ := hf
  intro hc ho ht
  refine Guarded.get_bind ?_ hc ho ht
  dsimp only
  split
  · exact .pure trivial
  · refine .func_bind hfn ?_
    rw [hended]
    refine .orCrash_bind (ht.module.exists_printFunc hfn hended) fun shown _ => ?_
    intro _ _ _
    exact .inl ⟨_, rfl⟩

/-! ## Emission -/

structure Emission.IsProvided (e : Emission) (params : List Ty) : Prop where
  owned : e.function.shape = .constructor → (∃ owner, e.owner? = some owner) ∧
    ∃ t, e.receiver? = some t
  received : e.function.shape.takesReceiver = true → params ≠ []

theorem Guarded.declared {α : Type} {fn : Func} {x y : Lower α} {P : α → Prop} (hc : Change p s t)
    (ht : t.module.funcs = s.module.funcs ++ [fn]) (hrecords : t.module.records = s.module.records)
    (htidy : s.IsTidy → t.IsTidy) (hrun : x.run s = y.run t)
    (hy : Guarded p o (.body s.module.funcs.length) t y P) : Guarded p o .away s x P := by
  intro hs hadmits htidy'
  unfold Ends
  rw [hrun]
  exact hy (hs.tail hc) (hadmits.declared hc ht hrecords) (htidy htidy')

theorem insideFrom_guarded {α : Type} {body : Lower α} {P : α → Prop} {path : List String}
    {scope : ScopeId}
    (hbody : ∀ inner, Guarded p o M { s with env := { s.env with inner } } body P) :
    Guarded p o M s (Lower.insideFrom scope body path) P := by
  induction path generalizing s scope with
  | nil => exact .enter (hbody _)
  | cons name rest ih =>
    refine .enter (.get_bind (.read_bind (.ofCause (fun _ => resolveIn_error) fun _ _ => trivial)
      (.of_tame (.ofCause fun _ _ => trivial)) fun b (_ : True) (_ : True) => ?_))
    split
    · exact ih fun inner => hbody inner
    · exact .refuse

theorem insideNamespaces_guarded {α : Type} {body : Lower α} {P : α → Prop} {path : List String}
    (hbody : ∀ inner, Guarded p o M { s with env := { s.env with inner } } body P) :
    Guarded p o M s (Lower.insideNamespaces path body) P := by
  cases path with
  | nil => exact hbody s.env.inner
  | cons name rest =>
    exact .read_bind namespaceScope_reads (.of_tame namespaceScope_tame) fun _ _ _ =>
      insideFrom_guarded hbody

theorem emitDetached_guarded (hp : p.IsWhole) (hem : EmitterGuarded p o (Lower.emitTo p depth))
    {e : Emission} {fn : Func}
    {body : Program.Block} (hf : s.module.func? f = some fn) (hblocks : fn.blocks = [])
    (hne : f ≠ Lower.entryFunc)
    (he : e.Fits p s) (hbody : e.function.body? = some body) (hnamed : AreNamed e.names fn.params)
    (hmade : (f, ⟨e.decl, e.owner?⟩) ∈ s.origins)
    (howned : e.function.shape = .constructor → (∃ owner, e.owner? = some owner) ∧
      ∃ t, e.receiver? = some t)
    (hreceived : e.function.shape.takesReceiver = true → fn.paramTypes ≠ []) :
    Guarded p o (.body f) s
      (Action.detached <| Lower.insideNamespaces e.decl.namespacePath <|
        Action.withScope e.name (Lower.emitBody p (Lower.emitTo p depth) e f body))
          fun _ => True := by
  refine .withInner (insideNamespaces_guarded fun inner => ?_)
  refine .bind_le (createScope_works (M := .naming) rfl fun o h => by cases h) (.naming rfl rfl)
    (.of_tame createScope_tame) fun k t _ h hk _ => ?_
  have hft : t.module.func? f = some fn := by
    unfold Module.func?
    rw [(h.still rfl).1]
    exact hf
  have het : e.Fits p t := (he.mono (.single (.enter inner))).mono h.changes
  exact .enter (emitBody_guarded hp hem hft hblocks hne ⟨hk.1, hk.2.1⟩ ⟨het.requested, het.function,
    het.mangled, het.receiver, het.owner, het.names⟩ hbody hnamed
      (h.changes.remembers.origins.subset hmade) howned hreceived)

theorem Emission.isTidy_declare {e : Emission} {returns : Ty} {params : List Ty} (h : s.IsTidy) :
    (e.declare returns params s).IsTidy where
  module := h.module.snoc rfl ⟨fun q hq => by obtain ⟨_, -, rfl⟩ := List.mem_map.1 hq; rfl, nofun⟩
  names := h.names
  this := h.this

theorem defineFunc_guarded (hp : p.IsWhole) (hem : EmitterGuarded p o (Lower.emitTo p depth))
    {e : Emission} {returns : Ty}
    {params : List Ty} (hnew : s.funcs.lookup e.name = none) (he : e.Fits p s)
    (hreturns : returns.IsPlain s.module.records)
    (hparams : ∀ t ∈ params, t.IsPlain s.module.records) (hprovided : e.IsProvided params) :
    Guarded p o .away s (Lower.defineFunc p (Lower.emitTo p depth) e returns params) fun _ =>
      True := by
  refine .sound fun hs => ?_
  have hchange := Emission.change_declare hnew he hreturns hparams
  refine .declared (y := emitDeclared p (Lower.emitTo p depth) e s.module.funcs.length)
    hchange rfl rfl Emission.isTidy_declare (by rfl) ?_
  have hne : s.module.funcs.length ≠ Lower.entryFunc := by
    obtain ⟨fn0, b0, h0, -⟩ := hs.entry
    exact Nat.ne_of_gt (List.getElem?_eq_some_iff.1 h0).1
  have hmade :
      (s.module.funcs.length, (⟨e.decl, e.owner?⟩ : Request)) ∈
      (e.declare returns params s).origins :=
    List.mem_append_right _ (List.mem_singleton_self _)
  refine .bind_le (debug_works (M := .asIs)) (.asIs rfl) (.of_tame debug_tame) fun _ t1 _ h1 _ _ =>
    ?_
  have hf1 : t1.module.func? s.module.funcs.length = some (e.func returns params) := by
    unfold Module.func?
    rw [(h1.still rfl).1]
    exact List.getElem?_concat_length
  split
  · exact .pure trivial
  · rename_i body hbody
    have he1 := he.mono ((Relation.ReflTransGen.single hchange).trans h1.changes)
    have hreceived :
        e.function.shape.takesReceiver = true → (e.func returns params).paramTypes ≠ [] := by
      rw [Emission.paramTypes_func]
      exact hprovided.received
    refine .bind (emitDetached_works (emitTo_works depth) hf1 rfl hne he1 hbody
      Emission.areNamed_func)
      (emitDetached_guarded hp hem hf1 rfl hne he1 hbody Emission.areNamed_func
        (h1.changes.remembers.origins.subset hmade) hprovided.owned hreceived)
          fun _ t3 _ h3 hdone _ => ?_
    exact .bind_le (verifyFunc_works (M := .asIs) hdone.1) (.asIs rfl) (verifyFunc_guarded hdone.1)
      fun _ _ _ _ _ _ =>
      .pure trivial

theorem mangledFunction_reported {d : Place} {owner? : Option TypeId} {fault : Fault}
    (hd : d.node.IsWhole) (h : p.mangledFunction d owner? = .error fault) : fault.IsReported := by
  obtain ⟨text, htext⟩ := hd.exists_source
  obtain ⟨base, hbase⟩ := hd.exists_baseName
  unfold Program.mangledFunction at h
  rw [htext, hbase] at h
  split at h
  · cases h
    exact ⟨_, rfl⟩
  · cases hq : p.mangledQualifier d owner? with
    | ok q =>
      rw [hq] at h
      cases h
    | error q =>
      rw [hq] at h
      cases h
      cases owner? with
      | none => cases hq
      | some owner =>
        simp only [Program.mangledQualifier] at hq
        cases hm : p.mangledType owner <;> rw [hm] at hq <;> cases hq
        trivial

/-- Members get no name without an owner. -/
theorem exists_owner_of_mangled {d : Place} {owner? : Option TypeId} {name : String}
    (h : p.mangledFunction d owner? = .ok name) (hm : d.isMember = true) :
    ∃ owner, owner? = some owner := by
  cases owner? with
  | some owner => exact ⟨owner, rfl⟩
  | none =>
    unfold Program.mangledFunction at h
    simp only [hm, Option.isNone_none, Bool.and_self, if_true] at h
    cases hs : Program.shown d.node.source <;> rw [hs] at h <;> cases h

theorem emitNew_guarded (hp : p.IsWhole) (hem : EmitterGuarded p o (Lower.emitTo p depth))
    {decl : Place}
    {function : FunctionLike} {owner? : Option TypeId} {args : List (Option TypeId)} {name : String}
    {parent : ScopeId}
    (hnew : s.funcs.lookup name = none) (hname : p.mangledFunction decl owner? = .ok name)
    (hrequest : Requested p ⟨decl, owner?⟩) (hfunction : decl.node.functionLike? = some function)
    (hparent : decl.isMember = true → ∀ owner, owner? = some owner →
      IsOwnerScope p owner parent s) :
    Guarded p o .away s (Lower.emitNew p (Lower.emitTo p depth) decl function owner? args name
      parent) fun _ => True := by
  have howned (h : function.shape ≠ .free) : ∃ owner, owner? = some owner :=
    exists_owner_of_mangled hname (hrequest.isMember hfunction h)
  have hsource :
      ∃ text, decl.node.source = some text :=
        (hp.node ⟨decl, hrequest.mem_places, rfl⟩).exists_source
  have receiver :
      Tame s (owner?.mapM (Lower.receiverRecord p parent)) fun t? => owner?.isSome = t?.isSome := by
    cases owner? with
    | none => exact .pure rfl
    | some owner => exact .map (receiverRecord_tame.mono fun _ _ => rfl)
  refine .bind_le (receiver_works hparent) (.asIs rfl) (.of_tame receiver)
    fun receiver? t1 _ h1 ⟨hreceiver, howner⟩ hsome => ?_
  have hreceived (h : function.shape ≠ .free) : ∃ t, receiver? = some t := by
    obtain ⟨owner, rfl⟩ := howned h
    exact Option.isSome_iff_exists.1 hsome.symm
  refine .bind_le (returnType_works hreceiver) (.asIs rfl)
    (.of_tame (returnType_tame (fun h => hreceived (by rw [h]; decide))
    fun h => howned (by rw [h]; decide))) fun returns t2 _ h2 hreturns _ => ?_
  refine .bind_le (receiverParam_works (hreceiver.mono h2.changes.grows)) (.asIs rfl)
    (.of_tame (receiverParam_tame hsource)) fun own t3 _ h3 hown hgiven => ?_
  refine .bind_le paramTypes_works (.asIs rfl) (.of_tame (.mapM fun _ _ _ => type_tame))
    fun types t4 _ h4 htypes _ => ?_
  have h : Reach p .asIs s t4 := ((h1.trans h2).trans h3).trans h4
  have hc : Changes p t1 t4 := ((h2.trans h3).trans h4).changes
  refine defineFunc_guarded hp hem ?_ ⟨hrequest, hfunction, hname, hreceiver.mono hc.grows,
    fun hm owner r ho hr => (howner hm owner r ho hr).mono hc, fun _ =>
      hrequest.mentions_names hfunction⟩
    ((h3.trans h4).changes.grows.records.plain hreturns) (fun t ht => ?_) ⟨fun hshape => ?_,
      fun htakes => ?_⟩
  · rw [(h.still rfl).2]
    exact hnew
  · rcases List.mem_append.1 ht with ht | ht
    · exact h4.changes.grows.records.plain (hown t ht)
    · exact htypes t ht
  · have hfree :
        function.shape ≠ .free := by rw [show function.shape = .constructor from hshape]; decide
    exact ⟨howned hfree, hreceived hfree⟩
  · exact List.append_ne_nil_of_left_ne_nil (hgiven htakes) _

theorem emitTo_guarded (hp : p.IsWhole) (depth : Nat) :
    EmitterGuarded p o (Lower.emitTo p depth) := by
  induction depth with
  | zero => exact fun d owner? args s _ => .of_tame (.throw trivial)
  | succ depth ih =>
    intro d owner? args s hrequest
    have hwhole : d.node.IsWhole := hp.node ⟨d, hrequest.mem_places, rfl⟩
    unfold Lower.emitTo
    split
    · exact .refuseAt
    rename_i function hfunction
    refine .read_bind (.ofExcept (fun _ => mangledFunction_error) fun _ => id)
      (.of_tame (.ofExcept fun _ => mangledFunction_reported hwhole)) fun name hname _ =>
        .get_bind ?_
    split
    · exact .pure trivial
    rename_i hnew
    refine .bind_le (declaringScope_works (M := .naming) rfl) (.naming rfl rfl)
      (.of_tame (declaringScope_tame hwhole.exists_source)) fun parent t1 _ h1 hparent _ => ?_
    have hnew1 : t1.funcs.lookup name = none := by
      rw [(h1.still rfl).2]
      exact hnew
    -- whether the runtime has the function or it is emitted, its name is bound afterwards
    have bound {g : FuncId} {t : State} (hg : t.funcs.lookup name = some g) : Guarded p o .away t
        (do let base ← Lower.orCrash d.node.baseName
            Action.bindName parent base (.value (← Lower.funcValue g))
            return g) fun _ => True := by
      refine .sound fun ht => .orCrash_bind hwhole.exists_baseName fun base _ => ?_
      obtain ⟨fn, hfn⟩ := ht.table_func hg
      unfold Lower.funcValue
      rw [bind_assoc]
      refine .func_bind hfn ?_
      rw [pure_bind]
      refine .of_tame (.bind (bindName_tame fun v hv => ?_) fun _ _ _ => .pure trivial)
      rw [← Binding.value.inj hv]
      trivial
    dsimp only
    split
    · exact .bind (builtin_works rfl rfl rfl) (.of_tame builtin_tame) fun g t _ _ hg _ => bound hg
    · exact .bind (emitNew_works (emitTo_works depth) hnew1 hname hrequest hfunction hparent)
        (emitNew_guarded hp ih hnew1 hname hrequest hfunction hparent) fun g t _ _ hg _ => bound hg

theorem emitFunction_guarded (hp : p.IsWhole) : EmitterGuarded p o (Lower.emitFunction p) :=
  emitTo_guarded hp _

end

end CheckedIR.Lowering

import CheckedIR.Proofs.Lowering.Guarded

/-!
# Expressions and statements are guarded

In a whole program every expression is there and every node that is refused can be shown. What is
left are accesses to fields that a record does not have.
-/

namespace CheckedIR.Lowering

open CheckedIR.Ir CheckedIR.Program CheckedIR.Scope CheckedIR.Scope.Action

def EmitterGuarded (p : Program) (o : Options) (emitFunction : Emitter) : Prop :=
  ∀ d owner? args s, Requested p ⟨d, owner?⟩ →
    Guarded p o .away s (emitFunction d owner? args) fun _ => True

section
variable {p : Program} {o : Options} {M : Manner} {s : State} {f : FuncId} {depth : Nat}

/-! ## Operators -/

theorem plus_guarded {span : Span} {l r : Value} (hr : Ready f s) (hl : l.IsWritable)
    (hright : r.IsWritable) : Guarded p o (.within f) s (Lower.plus span l r) Value.IsWritable := by
  unfold Lower.plus
  split
  · exact emit_guarded hr (isWritable_pair rfl rfl hl hright)
  · refine .read_bind isString_reads (.of_tame isString_tame) fun _ _ _ =>
      .read_bind isString_reads (.of_tame isString_tame) fun _ _ _ => ?_
    split
    · refine .bind (builtin_works rfl rfl rfl) (.of_tame builtin_tame) fun g t ht hreach hg _ =>
        call_guarded (hreach.ready rfl rfl hr) (ht.table_func hg) fun v hv => ?_
      simp only [List.mem_cons, List.not_mem_nil, or_false] at hv
      rcases hv with rfl | rfl
      · exact hl
      · exact hright
    · exact .read_bind typeText_reads (.of_tame typeText_tame) fun _ _ _ =>
        .read_bind typeText_reads (.of_tame typeText_tame) fun _ _ _ => .refuseAt

theorem binary_guarded {operator : String} {span : Span} {l r : Value} (hr : Ready f s)
    (hl : l.IsWritable) (hright : r.IsWritable) :
    Guarded p o (.within f) s (Lower.binary operator span l r) Value.IsWritable := by
  have checked {op : Op} {ty : Ty} (hcall : op.isCall = false) (hop : op.operands = [l, r]) :
      Guarded p o (.within f) s (do
        if l.type.isDouble && r.type.isDouble then Lower.emit op ty
        else
          Lower.refuseAt
            (.invalidOperands operator (← Lower.typeText l.type) (← Lower.typeText r.type)) span)
        Value.IsWritable := by
    split
    · exact emit_guarded hr (isWritable_pair hcall hop hl hright)
    · exact .read_bind typeText_reads (.of_tame typeText_tame) fun _ _ _ =>
        .read_bind typeText_reads (.of_tame typeText_tame) fun _ _ _ => .refuseAt
  unfold Lower.binary
  split
  · exact plus_guarded hr hl hright
  dsimp only
  split
  · exact checked rfl rfl
  · exact checked rfl rfl
  · exact .refuseAt

/-! ## Members -/

theorem lacksField {r : RecordId} {owner : TypeId} {name : String} {k : Nat}
    (hlt : r < s.module.records.length)
    (hfilled : Filled p s r) (hvisible : (s.module.records.get r).isOpaque = false)
    (hk : p.fieldIndex? owner name = some k) (hnone : (s.module.records.get r).fields[k]? = none) :
    LacksField p s r owner name := by
  have hrec : s.module.records[r]? = some (s.module.records.get r) := by
    rw [Records.get, List.getElem?_eq_getElem hlt]
    rfl
  have hle := List.getElem?_eq_none_iff.1 hnone
  refine ⟨_, k, hrec, hvisible, fun hobject => ?_, hk, hle⟩
  obtain ⟨hlt, -⟩ := List.findIdx?_eq_some_iff_getElem.1 hk
  rcases hfilled owner _ hobject hrec with hopaque | hfull
  · rw [hvisible] at hopaque
    cases hopaque
  · rw [hfull] at hle
    exact absurd hlt (Nat.not_lt_of_le hle)

theorem valueMember_guarded {i : NodeInfo} {object : Expr} {span : Span} {v : Value} {name : String}
    (hr : Ready f s)
    (hv : Usable f s v) (hw : v.IsWritable) (he : p.Has (.expr (.member i object name)))
    (hy : Yields p o object v s) :
    Guarded p o (.within f) s (Lower.valueMember p span object.type v name) Value.IsWritable := by
  have unknown : Guarded p o (.within f) s
      (do Lower.refuseAt (.unknownMember name (← Lower.answered (p.typeText object.type))) span)
      Value.IsWritable :=
    .of_tame (.bind .answered fun _ _ _ => .refuseAt)
  refine .read_bind isString_reads (.of_tame isString_tame) fun _ _ _ => ?_
  split
  · have htyped : (Op.extract v 1).IsTyped s.module := trivial
    have hplain : Ty.i32.IsPlain s.module.records := trivial
    refine .bind (emit_unary_works hr hv rfl rfl htyped rfl hplain)
      (emit_guarded hr (isWritable_single rfl rfl hw))
      fun n t _ hreach _ hn => emit_guarded (hreach.ready rfl rfl hr) (isWritable_single rfl rfl hn)
  · dsimp only
    split
    · rename_i r htype
      refine .relying fun _ hadmits => .get_bind ?_
      split
      · exact unknown
      · rename_i hvisible
        split
        · exact unknown
        · rename_i k hk
          refine fieldAddress_guarded hr hw fun hnone => .access he hy htype ?_
          have hlt : r < s.module.records.length := by
            have := hv.fit.plain
            rwa [htype] at this
          exact lacksField hlt (hadmits.filled r hlt List.not_mem_nil)
            (by simpa using hvisible) hk hnone
    · exact unknown

/-! ## Callees -/

theorem constructorOf_tame {span : Span} {callee : Expr} :
    Tame s (Lower.constructorOf p span callee) fun _ => True := by
  have notClass :
      Tame s (do
        Lower.refuseAt (.notClass (← Lower.answered (p.typeText callee.type))) span : Lower Place)
      fun _ => True := .bind .answered fun _ _ _ => .refuseAt
  unfold Lower.constructorOf
  dsimp only
  split
  · exact notClass
  · split
    · split
      · exact .pure trivial
      · exact .refuseAt
    · exact notClass

theorem calledFunction_guarded {span : Span} {callee : Expr}
    (hsource : ∃ text, callee.source = some text) :
    Guarded p o M s (Lower.calledFunction p span callee) fun _ => True := by
  have invalid :
      Guarded p o M s
      (do Lower.refuseAt (.invalidCallTarget (← Lower.orCrash callee.source)) span : Lower Place)
      fun _ => True := .orCrash_bind hsource fun _ _ => .refuseAt
  unfold Lower.calledFunction
  split
  · split
    · exact .pure trivial
    · exact invalid
  · exact invalid

theorem callee_guarded (hem : EmitterGuarded p o (Lower.emitTo p depth)) {e : Expr} {d : Place}
    {owner? : Option TypeId} {args : List (Option TypeId)} (hd : request? p e = some ⟨d, owner?⟩) :
    Guarded p o .quiet s (Lower.keepingCursor (Lower.emitTo p depth d owner? args)) fun _ => True :=
  .keepingCursor (hem d owner? args s ⟨e, hd⟩)

theorem notedCall_guarded {e : Expr} {r : Request} {g : FuncId} {args : List Value} (hr : Ready f s)
    (hg : Answers p r g s) (hargs : ∀ v ∈ args, v.IsWritable) :
    Guarded p o M s (do Lower.noteCall e (← Lower.call g args)) Value.IsWritable := by
  refine .sound fun hs => ?_
  obtain ⟨name, -, hl⟩ := hg
  obtain ⟨fn, hf⟩ := hr.func
  obtain ⟨callee, hcallee⟩ := hs.table_func hl
  exact .of_tame (.bind (call_tame hf hcallee hargs) fun _ _ hv => noteCall_tame hv)

/-! ## Expressions -/

mutual

theorem lvalue_guarded (hp : p.IsWhole) (hem : EmitterGuarded p o (Lower.emitTo p depth)) :
    (e : Expr) → p.Has (.expr e) → ∀ {s : State}, Ready f s →
    Guarded p o (.within f) s (Lower.lvalue p (Lower.emitTo p depth) e) Value.IsWritable
  | .missing, he, s, hr => absurd (hp.node he) Node.not_isWhole_missing
  | .numeric _ x, he, s, hr => .pure trivial
  | .boolean _ b, he, s, hr => .pure fun _ => by cases b <;> simp
  | .text _ text, he, s, hr => .of_tame (.bind stringConstant_tame fun c _ hc => .pure hc)
  | .ident i name, he, s, hr => lookupValue_guarded
  | .this i, he, s, hr => lookupValue_guarded
  | .binary i operator l r, he, s, hr => by
    have hl : p.Has (.expr l) := hp.has_slot he (by simp [Node.slots])
    have hright : p.Has (.expr r) := hp.has_slot he (by simp [Node.slots])
    have works := emitTo_works (p := p) depth
    rw [Lower.lvalue]
    split
    · exact .of_tame (.bind (Q := fun _ => False) .refuseAt fun _ _ h => h.elim)
    refine .bind (lvalue_works works l hr) (lvalue_guarded hp hem l hl hr) fun v1 t1 _ h1 hv1 hw1 =>
      ?_
    have hr1 := h1.ready rfl rfl hr
    refine .bind (loaded_works hr1 hv1) (loaded_guarded hr1 hv1 hw1) fun v2 t2 _ h2 hv2 hw2 => ?_
    have hr2 := h2.ready rfl rfl hr1
    refine .bind (lvalue_works works r hr2) (lvalue_guarded hp hem r hright hr2)
      fun v3 t3 _ h3 hv3 hw3 => ?_
    have hr3 := h3.ready rfl rfl hr2
    refine .bind (loaded_works hr3 hv3) (loaded_guarded hr3 hv3 hw3) fun v4 t4 _ h4 hv4 hw4 => ?_
    exact binary_guarded (h4.ready rfl rfl hr3) hw2 hw4
  | .unary i operator x, he, s, hr => by
    have hx : p.Has (.expr x) := hp.has_slot he (by simp [Node.slots])
    rw [Lower.lvalue]
    split
    · exact .of_tame (.bind (Q := fun _ => False) .refuseAt fun _ _ h => h.elim)
    exact .bind (lvalue_works (emitTo_works depth) x hr) (lvalue_guarded hp hem x hx hr)
      fun v t _ h hv hw =>
      loaded_guarded (h.ready rfl rfl hr) hv hw
  | .member i object name, he, s, hr => by
    have hobject : p.Has (.expr object) := hp.has_slot he (by simp [Node.slots])
    have hsource := (hp.node he).exists_source
    rw [Lower.lvalue]
    refine .read_bind (scopeOf?_reads object) (.of_tame (scopeOf?_tame object)) fun k? _ _ => ?_
    split
    · exact scopeMember_guarded hsource
    have rest : Guarded p o (.within f) s (do
        Lower.valueMember p i.span object.type (← Lower.rvalue p (Lower.emitTo p depth) object)
          name) Value.IsWritable := by
      refine .relying fun hc _ =>
        .bind_gives (rvalue_works (emitTo_works depth) object hr) (.refl _)
        (rvalue_guarded hp hem object hobject hr) fun v t hgives _ h hv hw => ?_
      exact valueMember_guarded (h.ready rfl rfl hr) hv hw he ⟨depth, s, t, hc, hgives, .refl _⟩
    split
    · exact .orCrash_bind hsource fun _ _ =>
        .of_tame (.bind (Q := fun _ => False) .refuseAt fun _ _ h => h.elim)
    · rw [← bind_assoc]
      exact rest
  | .construct i callee args, he, s, hr => by
    rw [Lower.lvalue]
    refine .read_bind (constructorOf_reads i callee args) (.of_tame constructorOf_tame)
      fun d hd _ => ?_
    refine .bind_le (callee_works (emitTo_works depth) hd) (.quiet rfl rfl rfl)
      (callee_guarded hem hd) fun g t1 _ h1 hg _ => ?_
    have hr1 := h1.ready rfl rfl hr
    refine .bind (rvalues_works (emitTo_works depth) args hr1) (rvalues_guarded hp hem args ?_ hr1)
      fun vs t2 _ h2 _ hws => notedCall_guarded (h2.ready rfl rfl hr1) (hg.mono h2.changes) hws
    exact fun a ha => hp.has_slot he (List.mem_cons_of_mem _ (List.mem_map_of_mem ha))
  | .call i callee args, he, s, hr => by
    have hcallee : p.Has (.expr callee) := hp.has_slot he List.mem_cons_self
    have hargs : ∀ a ∈ args, p.Has (.expr a) := fun a ha =>
      hp.has_slot he (List.mem_cons_of_mem _ (List.mem_map_of_mem ha))
    rw [Lower.lvalue]
    refine .read_bind (calledFunction_reads i callee args)
      (calledFunction_guarded (hp.node hcallee).exists_source) fun d hd _ => ?_
    refine .bind_le (callee_works (emitTo_works depth) hd) (.quiet rfl rfl rfl)
      (callee_guarded hem hd) fun g t1 _ h1 hg _ => ?_
    have hr1 := h1.ready rfl rfl hr
    split
    · rename_i j object name _
      have hobject : p.Has (.expr object) := hp.has_slot hcallee (by simp [Node.slots])
      refine .bind (lvalue_works (emitTo_works depth) object hr1)
        (lvalue_guarded hp hem object hobject hr1) fun v t2 _ h2 hv hw => ?_
      have hr2 := h2.ready rfl rfl hr1
      refine .bind (loaded_works hr2 hv) (loaded_guarded hr2 hv hw) fun w t3 _ h3 _ hw => ?_
      have hr3 := h3.ready rfl rfl hr2
      refine .bind (rvalues_works (emitTo_works depth) args hr3)
        (rvalues_guarded hp hem args hargs hr3) fun vs t4 _ h4 _ hws => ?_
      refine notedCall_guarded (h4.ready rfl rfl hr3) (hg.mono ((h2.trans h3).trans h4).changes)
        fun x hx => ?_
      rcases List.mem_cons.1 hx with rfl | hx
      · exact hw
      · exact hws x hx
    · exact .bind (rvalues_works (emitTo_works depth) args hr1)
        (rvalues_guarded hp hem args hargs hr1)
        fun vs t2 _ h2 _ hws => notedCall_guarded (h2.ready rfl rfl hr1) (hg.mono h2.changes) hws
  | .unknown i name, he, s, hr => .orCrash_bind (hp.node he).exists_source fun _ _ => .refuseAt

theorem rvalue_guarded (hp : p.IsWhole) (hem : EmitterGuarded p o (Lower.emitTo p depth)) (e : Expr)
    (he : p.Has (.expr e)) {s : State} (hr : Ready f s) :
    Guarded p o (.within f) s (Lower.rvalue p (Lower.emitTo p depth) e) Value.IsWritable :=
  .bind (lvalue_works (emitTo_works depth) e hr) (lvalue_guarded hp hem e he hr)
    fun _ _ _ h hv hw =>
    loaded_guarded (h.ready rfl rfl hr) hv hw

theorem rvalues_guarded (hp : p.IsWhole) (hem : EmitterGuarded p o (Lower.emitTo p depth)) :
    (es : List Expr) → (∀ e ∈ es, p.Has (.expr e)) → ∀ {s : State}, Ready f s →
    Guarded p o (.within f) s (Lower.rvalues p (Lower.emitTo p depth) es) fun vs =>
      ∀ v ∈ vs, v.IsWritable
  | [], _, s, hr => .pure nofun
  | e :: es, hes, s, hr => by
    rw [Lower.rvalues]
    refine .bind (lvalue_works (emitTo_works depth) e hr)
      (lvalue_guarded hp hem e (hes e List.mem_cons_self) hr) fun v1 t1 _ h1 hv1 hw1 => ?_
    have hr1 := h1.ready rfl rfl hr
    refine .bind (loaded_works hr1 hv1) (loaded_guarded hr1 hv1 hw1) fun v2 t2 _ h2 _ hw2 => ?_
    have hr2 := h2.ready rfl rfl hr1
    refine .bind (rvalues_works (emitTo_works depth) es hr2)
      (rvalues_guarded hp hem es (fun e' he' => hes e' (List.mem_cons_of_mem e he')) hr2)
      fun vs t3 _ _ _ hws => .pure ?_
    intro v hv
    rcases List.mem_cons.1 hv with rfl | hv
    · exact hw2
    · exact hws v hv

end

/-! ## Statements -/

theorem declareVariable_guarded (hp : p.IsWhole) (hem : EmitterGuarded p o (Lower.emitTo p depth))
    {isConst : Bool}
    {scope : ScopeId} {d : Variable} (hd : p.Has (.declarator d)) (hr : Ready f s) :
    Guarded p o (.within f) s (Lower.declareVariable p (Lower.emitTo p depth) isConst scope d)
    fun _ => True := by
  have bound {t : State} {v : Value} (hv : Usable f t v) (hw : v.IsWritable) :
      Guarded p o (.within f) t (do
      Lower.orAt d.info.span (Action.bindName scope d.name (.value v))
      Lower.noteVariable d.name v) fun _ => True :=
    .of_tame (.bind (.orAt (bindName_tame fun w h => Binding.value.inj h ▸ hw)) fun _ _ _ =>
      noteVariable_tame)
  unfold Lower.declareVariable
  split
  · exact .orCrash_bind (hp.node hd).exists_source fun _ _ => .refuseAt
  · rename_i e he
    have hhas : p.Has (.expr e) := hp.has_slot hd (by simp [Node.slots, he])
    refine .bind (rvalue_works (emitTo_works depth) e hr) (rvalue_guarded hp hem e hhas hr)
      fun v t _ h hv hw => ?_
    have hr1 := h.ready rfl rfl hr
    split
    · exact .bind (nameResult_works hr1 hv (.declared hd rfl)) (.of_tame nameResult_tame)
        fun _ u _ h2 _ _ =>
        bound (hv.mono h2.changes) hw
    · refine .bind (newSlot_works hr1 (.declared hd rfl) hv.fit.plain) (newSlot_guarded hr1)
        fun slot u _ h2 ⟨hslot, htype⟩ hslotw => ?_
      have hr2 := h2.ready rfl rfl hr1
      have hplain := (hv.mono h2.changes).fit.plain
      refine .bind (store_works hr2 (hv.mono h2.changes) hslot ?_)
        (store_guarded hr2 hw hslotw htype fun hno => ?_)
        fun _ w _ h3 _ _ => bound (hslot.mono h3.changes) hslotw
      · intro elem helem
        rw [htype] at helem
        exact .inr (Ty.pointer.inj helem).symm
      · rw [(Ty.Alike.refl hplain).isMatch] at hno
        cases hno

theorem returnFrom_guarded (hp : p.IsWhole) (hem : EmitterGuarded p o (Lower.emitTo p depth))
    {i : NodeInfo} {e : Option Expr} (he : p.Has (.stmt (.ret i e))) (hr : Ready f s) :
    Guarded p o (.along f) s (Lower.returnFrom p (Lower.emitTo p depth) i e) fun _ => True := by
  intro hc ho ht
  refine Guarded.get_bind ?_ hc ho ht
  dsimp only
  split
  · exact .orCrash_bind (hp.node he).exists_source fun _ _ =>
      .of_tame (.bind (Q := fun _ => False) .refuseAt fun _ _ h => h.elim)
  · split
    · rename_i e
      have hhas : p.Has (.expr e) := hp.has_slot he (by simp [Node.slots])
      refine .bind_le (rvalue_works (emitTo_works depth) e hr) .within_along
        (rvalue_guarded hp hem e hhas hr) fun v t _ _ _ hw =>
          .of_tame (terminate_tame fun w hwv => ?_)
      exact List.mem_singleton.1 hwv ▸ hw
    · refine .of_tame (terminate_tame fun w hw => ?_)
      split at hw
      · cases hthis : s.frame.this? with
        | none =>
          rw [hthis] at hw
          cases hw
        | some v =>
          rw [hthis] at hw
          exact List.mem_singleton.1 hw ▸ ht.this v hthis
      · cases hw

theorem moveToEntry_guarded : Guarded p o M s Lower.moveToEntry fun _ => True := by
  refine .sound fun hs => ?_
  obtain ⟨fn, b, hf, -⟩ := hs.entry
  exact .func_bind hf (.of_tame (.keep fun ht => ⟨ht.module, ht.names, nofun⟩))

theorem atTop_guarded {α : Type} {scope : ScopeId} {rest : Lower α} {P : α → Prop}
    (h : scope ≠ Environment.global ∨ AtEntry s) (hrest : Guarded p o M s rest P) :
    Guarded p o M s (if scope = Environment.global then Lower.moveToEntry >>= fun _ => rest else
      rest) P := by
  split
  · rename_i hglobal
    exact .sound fun hs =>
      .read_bind (moveToEntry_reads hs (h.resolve_left (· hglobal))) moveToEntry_guarded
      fun _ _ _ => hrest
  · exact hrest

mutual

theorem statement_guarded (hp : p.IsWhole) (hem : EmitterGuarded p o (Lower.emitTo p depth)) :
    (st : Stmt) → p.Has (.stmt st) → ∀ {s : State} {scope : ScopeId}, Ready f s →
    (scope ≠ Environment.global ∨ AtEntry s) →
    Guarded p o (.along f) s (Lower.statement p (Lower.emitTo p depth) scope st) fun _ => True
  | .endOfFile _, hst, s, scope, hr, htop => .pure trivial
  | .function .., hst, s, scope, hr, htop => .pure trivial
  | .classDecl i name params isAmbient members, hst, s, scope, hr, htop => by
    rw [Lower.statement]
    split
    · exact .of_tame (.bind debug_tame fun _ _ _ => .pure trivial)
    · exact .of_tame classScope_tame
  | .interfaceDecl i name params members, hst, s, scope, hr, htop =>
    .of_tame (.bind interfaceScope_tame fun _ _ _ => .pure trivial)
  | .namespaceDecl i name isAmbient body, hst, s, scope, hr, htop => by
    rw [Lower.statement]
    refine .bind_le (namespaceOf_works (M := .within f) rfl) .within_along
      (.of_tame namespaceOf_tame) fun k t _ h hk _ => ?_
    have hr1 := h.ready rfl rfl hr
    have hbody : ∀ st ∈ body, p.Has (.stmt st) := fun st h => hst.child (List.mem_map_of_mem h)
    exact .map (.enter (statements_guarded hp hem body hbody hr1.here (fun _ => hr1.isOpen)
      (.inl (Nat.ne_of_gt hk))))
  | .variableDecl i isConst ds, hst, s, scope, hr, htop => by
    have hds {d : Variable} (hd : d ∈ ds) :
        p.Has (.declarator d) := hst.child (List.mem_map_of_mem hd)
    rw [Lower.statement]
    refine atTop_guarded htop (.map (.weaken .within_along (.forM (I := Ready f) hr ?_ ?_)))
    · exact fun d hd t ht => declareVariable_works (emitTo_works depth) (hds hd) ht
    · exact fun d hd t ht => declareVariable_guarded hp hem (hds hd) ht
  | .expression i e, hst, s, scope, hr, htop => by
    have he : p.Has (.expr e) := hp.has_slot hst List.mem_cons_self
    rw [Lower.statement]
    exact atTop_guarded htop (.map (.weaken .within_along (lvalue_guarded hp hem e he hr).discard))
  | .block (.mk i ss), hst, s, scope, hr, htop => by
    rw [Lower.statement]
    refine atTop_guarded htop (.map ?_)
    refine .bind_le (createScope_works (M := .within f) rfl fun o h => by cases h) .within_along
      (.of_tame createScope_tame) fun k t _ h hk _ => ?_
    have hr1 := h.ready rfl rfl hr
    have hss : ∀ st ∈ ss, p.Has (.stmt st) := fun st h => hst.child (List.mem_map_of_mem h)
    exact .enter (statements_guarded hp hem ss hss hr1.here (fun _ => hr1.isOpen)
      (.inl (Nat.ne_of_gt hk.1)))
  | .ret i e, hst, s, scope, hr, htop => by
    rw [Lower.statement]
    exact atTop_guarded htop (.map (returnFrom_guarded hp hem hst hr))
  | .ifElse .., hst, s, scope, hr, htop => by
    rw [Lower.statement]
    exact atTop_guarded htop (.pure trivial)
  | .whileLoop .., hst, s, scope, hr, htop => by
    rw [Lower.statement]
    exact atTop_guarded htop (.pure trivial)
  | .unknown .., hst, s, scope, hr, htop => .pure trivial

theorem statements_guarded (hp : p.IsWhole) (hem : EmitterGuarded p o (Lower.emitTo p depth)) :
    (ss : List Stmt) → (∀ st ∈ ss, p.Has (.stmt st)) →
    ∀ {s : State} {scope : ScopeId}, s.cursor.func = f →
    (f = Lower.entryFunc → s.module.IsOpen f) → (scope ≠ Environment.global ∨ AtEntry s) →
    Guarded p o (.along f) s (Lower.statements p (Lower.emitTo p depth) scope ss) fun _ => True
  | [], hss, s, scope, hf, hopen, htop => .pure trivial
  | st :: ss, hss, s, scope, hf, hopen, htop => by
    have hst := hss st List.mem_cons_self
    rw [Lower.statements]
    refine .sound fun hs =>
      .read_bind (isTerminated_reads hs) isTerminated_guarded fun ended hended _ => .get_bind ?_
    split
    · exact .of_tame debug_tame
    · rename_i hgo
      have hr : Ready f s := by
        refine ⟨hf, ?_⟩
        rw [hs.frame_func, hf] at hgo
        by_cases he : f = Lower.entryFunc
        · exact hopen he
        · exact hf ▸ hended.1 (by simpa [he] using hgo)
      refine .bind (statement_works (emitTo_works depth) st hst hr htop)
        (statement_guarded hp hem st hst hr htop) fun outcome t _ h hopen' _ => ?_
      have hrest : ∀ st' ∈ ss, p.Has (.stmt st') := fun st' h => hss st' (List.mem_cons_of_mem st h)
      have hf' : t.cursor.func = f := (h.place rfl).1 ▸ hf
      have htop' : scope ≠ Environment.global ∨ AtEntry t := htop.imp_right (h.atEntry rfl)
      split
      · refine .orCrash_bind (hp.node hst).exists_source fun _ _ => ?_
        refine .bind_le (warn_works (M := .within f)) .within_along (.of_tame warn_tame)
          fun _ u _ h' _ _ => ?_
        refine statements_guarded hp hem ss hrest ?_ (fun he => h'.opened rfl f (hopen' he))
          (htop'.imp_right (h'.atEntry rfl))
        exact (h'.place rfl).1 ▸ hf'
      · exact statements_guarded hp hem ss hrest hf' hopen' htop'

end

end

end CheckedIR.Lowering

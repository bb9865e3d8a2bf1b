import CheckedIR.Proofs.Lowering.Voids

/-!
# Programs without void

A call takes a void where an argument has no value; otherwise the parameters of the function that is
emitted for it have values. A variable takes one where its initializer has no value.
-/

namespace CheckedIR.Lowering

open CheckedIR.Ir CheckedIR.Program CheckedIR.Scope CheckedIR.Scope.Action

def EmitterClears (p : Program) (emitFunction : Emitter) : Prop :=
  ∀ (P : Prop) d owner? args s, (P → ∀ t, some t ∈ args → p.isVoid t = false) →
    Clears p P s (emitFunction d owner? args) fun _ => True

section
variable {p : Program} {P : Prop} {emitFunction : Emitter} {s t : State}

/-! ## Results -/

theorem Gives.call {f : FuncId} {args : List Value} {v : Value}
    (h : Gives (Lower.call f args) s v t) : ∃ g i ty, v = .inst g i ty := by
  obtain ⟨callee, u, -, h⟩ := h.bind
  obtain ⟨fn, u', -, h⟩ := h.bind
  obtain ⟨⟨i, hi⟩, -⟩ := h.emit
  exact ⟨_, i, _, hi⟩

theorem Gives.newSlot {name : String} {ty : Ty} {v : Value}
    (h : Gives (Lower.newSlot name ty) s v t) : v.type = .pointer ty := by
  obtain ⟨name', u, -, h⟩ := h.get_bind.bind
  obtain ⟨fn, u', -, h⟩ := h.bind
  obtain ⟨-, u'', -, h⟩ := h.bind
  obtain ⟨rfl, -⟩ := h.pure
  rfl

/-! ## Operators and members -/

theorem isDouble_eq {ty : Ty} (h : ty.isDouble = true) : ty = .double := by
  simpa [Ty.isDouble] using h

theorem isClear_doubles {op : Op} {l r : Value} (hcall : op.isCall = false) (htypes : op.types = [])
    (hop : op.operands = [l, r]) (h : (l.type.isDouble && r.type.isDouble) = true) :
    op.IsClear := by
  obtain ⟨hl, hr⟩ := Bool.and_eq_true_iff.1 h
  refine Op.isClear_of_operands hcall (by simp [htypes]) ?_
  simp [hop, isDouble_eq hl, isDouble_eq hr]

theorem plus_clears {span : Span} {l r : Value} (hl : P → l.type.isResult = true)
    (hr : P → r.type.isResult = true) :
    Clears p P s (Lower.plus span l r) fun v => v.type.isResult = true := by
  unfold Lower.plus
  split
  · rename_i hdouble
    exact emit_clears (fun _ => isClear_doubles rfl rfl rfl hdouble) fun _ => by simp [Ty.isResult]
  · refine .bind isString_clears fun _ _ => .bind isString_clears fun _ _ => ?_
    split
    · refine .bind builtin_clears fun _ _ => call_clears fun hP v hv => ?_
      simp only [List.mem_cons, List.not_mem_nil, or_false] at hv
      rcases hv with rfl | rfl
      · exact hl hP.1.1.1
      · exact hr hP.1.1.1
    · exact .bind typeText_clears fun _ _ => .bind typeText_clears fun _ _ => .refuseAt

theorem binary_clears {operator : String} {span : Span} {l r : Value}
    (hl : P → l.type.isResult = true) (hr : P → r.type.isResult = true) :
    Clears p P s (Lower.binary operator span l r) fun v => v.type.isResult = true := by
  have checked {op : Op} {ty : Ty} (hcall : op.isCall = false) (htypes : op.types = [])
      (hop : op.operands = [l, r]) (hty : ty.isVoidFree = true) : Clears p P s (do
        if l.type.isDouble && r.type.isDouble then Lower.emit op ty
        else
          Lower.refuseAt
            (.invalidOperands operator (← Lower.typeText l.type) (← Lower.typeText r.type)) span)
        fun v => v.type.isResult = true := by
    split
    · rename_i hdouble
      exact emit_clears (fun _ => isClear_doubles hcall htypes hop hdouble) fun _ =>
        Ty.isResult_of_isVoidFree hty
    · exact .bind typeText_clears fun _ _ => .bind typeText_clears fun _ _ => .refuseAt
  unfold Lower.binary
  split
  · exact plus_clears hl hr
  dsimp only
  split
  · exact checked rfl rfl rfl Ty.isVoidFree_int
  · exact checked rfl rfl rfl Ty.isVoidFree_double
  · exact .refuseAt

theorem scopeMember_clears {span : Span} {k : ScopeId} {name : String} {source : Option String} :
    Clears p P s (Lower.scopeMember span k name source) fun v => v.type.isResult = true := by
  refine .orAt (.clear (.get_bind (.bind (Q := fun b => ∀ v, b = .value v → v.type.isResult = true)
    (.ofCause fun b hb hP v hv => ?_) fun b _ => ?_)))
  · obtain ⟨k', n, hk⟩ := exists_lookupIn_of_resolveIn hb
    exact hP.2.names k' n v (hv ▸ hk)
  split
  · exact .bind (.orCrash fun _ _ _ => trivial) fun _ _ => .refuse
  · exact .bind (Q := fun _ => True) (.orCrash fun _ _ _ => trivial) fun _ _ =>
      localValue_clears fun hP => hP.1.2 _ rfl
  · exact .crash

theorem valueMember_clears {span : Span} {owner : TypeId} {v : Value} {name : String} :
    Clears p P s (Lower.valueMember p span owner v name) fun v => v.type.isResult = true := by
  have unknown {P' : Prop} {t : State} : Clears p P' t
      (do Lower.refuseAt (.unknownMember name (← Lower.answered (p.typeText owner))) span)
      fun v : Value => v.type.isResult = true :=
    .bind .answered fun _ _ => .refuseAt
  refine .bind isString_clears fun isString t => ?_
  split
  · rename_i hlength
    have hstring : isString = true := (Bool.and_eq_true_iff.1 hlength).1
    refine .bind_gives (emit_clears (fun hP => Op.isClear_of_operands rfl nofun ?_)
      fun _ => Ty.isResult_of_isVoidFree
      Ty.isVoidFree_int) fun n u hn => emit_clears (fun _ =>
        Op.isClear_of_operands rfl ?_ ?_) fun _ =>
      Ty.isResult_of_isVoidFree Ty.isVoidFree_double
    · obtain ⟨r, hr⟩ := hP.2 hstring
      intro _ h
      rw [List.mem_singleton.1 h, hr]
      exact Ty.isVoidFree_record
    · exact fun _ h => List.mem_singleton.1 h ▸ Ty.isVoidFree_double
    · intro _ h
      obtain ⟨⟨j, rfl⟩, -⟩ := hn.emit
      rw [List.mem_singleton.1 h]
      exact Ty.isVoidFree_int
  · dsimp only
    split
    · rename_i r htype
      refine .get_bind ?_
      split
      · exact unknown
      · split
        · exact unknown
        · exact fieldAddress_clears fun _ => by simp [htype]
    · exact unknown

/-! ## Callees -/

theorem constructorOf_clears {span : Span} {callee : Expr} :
    Clears p P s (Lower.constructorOf p span callee) fun _ => True := by
  have notClass :
      Clears p P s
      (do Lower.refuseAt (.notClass (← Lower.answered (p.typeText callee.type))) span : Lower Place)
      fun _ => True := .bind .answered fun _ _ => .refuseAt
  unfold Lower.constructorOf
  dsimp only
  split
  · exact notClass
  · split
    · split
      · exact .pure fun _ => trivial
      · exact .refuseAt
    · exact notClass

theorem calledFunction_clears {span : Span} {callee : Expr} :
    Clears p P s (Lower.calledFunction p span callee) fun _ => True := by
  have invalid :
      Clears p P s
      (do Lower.refuseAt (.invalidCallTarget (← Lower.orCrash callee.source)) span : Lower Place)
      fun _ => True := .bind (.orCrash fun _ _ _ => trivial) fun _ _ => .refuseAt
  unfold Lower.calledFunction
  split
  · split
    · exact .pure fun _ => trivial
    · exact invalid
  · exact invalid

theorem notedCall_clears {e : Expr} {g : FuncId} {args : List Value}
    (hargs : P → ∀ v ∈ args, v.type.isResult = true) :
    Clears p P s (do Lower.noteCall e (← Lower.call g args)) fun v => v.type.isResult = true :=
  .bind (call_clears hargs) fun _ _ => noteCall_clears fun hP => hP.2

theorem notedCall_spoils {e a : Expr} {g : FuncId} {args : List Value} (ha : a ∈ e.arguments)
    (hvoid : p.isVoid a.type = true) : Spoils p s (do Lower.noteCall e (← Lower.call g args)) := by
  refine (call_clears (P := False) False.elim).bind_gives_spoils fun v t hv => ?_
  obtain ⟨f, i, ty, rfl⟩ := hv.call
  have hn := Notes.Within.refl t.notes
  refine .bind (P := False) (R := fun _ => True)
    (.modify { hn with calls := List.subset_append_left _ _ } ?_) fun _ _ => .pure False.elim
  exact .argument f i e a (List.mem_append_right _ (List.mem_singleton_self _)) ha hvoid

/-! ## Expressions -/

theorem argumentTypes_of_not_void {args : List Expr} (h : ¬ ∃ a ∈ args, p.isVoid a.type = true) :
    ∀ t, some t ∈ args.map (some ·.type) → p.isVoid t = false := by
  intro t ht
  obtain ⟨a, ha, rfl⟩ : ∃ a ∈ args, a.type = t := by simpa using ht
  simpa using fun hvoid => h ⟨a, ha, hvoid⟩

mutual

theorem lvalue_clears (hem : EmitterClears p emitFunction) : (e : Expr) → ∀ {P : Prop} {s : State},
    Clears p P s (Lower.lvalue p emitFunction e) fun v => v.type.isResult = true
  | .missing, P, s => .crash
  | .numeric _ x, P, s => .pure fun _ => Ty.isResult_of_isVoidFree Ty.isVoidFree_double
  | .boolean _ b, P, s => .pure fun _ => Ty.isResult_of_isVoidFree Ty.isVoidFree_int
  | .text _ text, P, s => .bind stringConstant_clears fun _ _ => .pure fun hP => hP.2
  | .ident i name, P, s => lookupValue_clears
  | .this i, P, s => lookupValue_clears
  | .binary i operator l r, P, s => by
    have rest {P' : Prop} {t : State} : Clears p P' t (do
        let l ← Lower.loaded (← Lower.lvalue p emitFunction l)
        let r ← Lower.loaded (← Lower.lvalue p emitFunction r)
        Lower.binary operator i.span l r) fun v => v.type.isResult = true :=
      .bind (lvalue_clears hem l) fun _ _ => .bind (loaded_clears fun hP => hP.2) fun _ _ =>
        .bind (lvalue_clears hem r) fun _ _ => .bind (loaded_clears fun hP => hP.2) fun _ _ =>
        binary_clears (fun hP => hP.1.1.2) fun hP => hP.2
    rw [Lower.lvalue]
    split
    · exact .bind (Q := fun _ => True) .refuseAt fun _ _ => rest
    · exact rest
  | .unary i operator x, P, s => by
    have rest {P' : Prop} {t : State} :
        Clears p P' t (do Lower.loaded (← Lower.lvalue p emitFunction x))
        fun v => v.type.isResult = true :=
      .bind (lvalue_clears hem x) fun _ _ => loaded_clears fun hP => hP.2
    rw [Lower.lvalue]
    split
    · exact .bind (Q := fun _ => True) .refuseAt fun _ _ => rest
    · exact rest
  | .member i object name, P, s => by
    have rest {P' : Prop} {t : State} : Clears p P' t (do
        Lower.valueMember p i.span object.type
          (← Lower.loaded (← Lower.lvalue p emitFunction object)) name)
        fun v => v.type.isResult = true :=
      .bind (lvalue_clears hem object) fun _ _ => .bind (loaded_clears fun hP => hP.2) fun _ _ =>
        valueMember_clears
    rw [Lower.lvalue]
    refine .bind (scopeOf?_clears object) fun k? _ => ?_
    split
    · exact scopeMember_clears
    · split
      · exact .bind (Q := fun _ => True) (.orCrash fun _ _ _ => trivial) fun _ _ =>
          .bind (Q := fun _ => True) .refuseAt fun _ _ => rest
      · exact rest
  | .construct i callee args, P, s => by
    rw [Lower.lvalue]
    by_cases hvoid : ∃ a ∈ args, p.isVoid a.type = true
    · obtain ⟨a, ha, hvoid⟩ := hvoid
      refine Spoils.clears ((constructorOf_clears (P := False)).bind_spoils fun d _ => ?_)
      refine (Clears.keepingCursor (hem False d _ _ _ False.elim)).bind_spoils fun g _ => ?_
      exact (rvalues_clears hem args (P := False)).bind_spoils fun vs _ => notedCall_spoils ha hvoid
    · exact .bind constructorOf_clears fun d _ =>
        .bind (.keepingCursor (hem _ d _ _ _ fun _ => argumentTypes_of_not_void hvoid)) fun g _ =>
        .bind (rvalues_clears hem args) fun vs _ => notedCall_clears fun hP => hP.2
  | .call i callee args, P, s => by
    rw [Lower.lvalue]
    by_cases hvoid : ∃ a ∈ args, p.isVoid a.type = true
    · obtain ⟨a, ha, hvoid⟩ := hvoid
      refine Spoils.clears ((calledFunction_clears (P := False)).bind_spoils fun d _ => ?_)
      refine (Clears.keepingCursor (hem False d _ _ _ False.elim)).bind_spoils fun g _ => ?_
      split
      · rename_i j object name _
        refine (lvalue_clears hem object (P := False)).bind_spoils fun _ _ => ?_
        refine (loaded_clears (P := False) False.elim).bind_spoils fun _ _ => ?_
        exact (rvalues_clears hem args (P := False)).bind_spoils fun vs _ =>
          notedCall_spoils ha hvoid
      · exact (rvalues_clears hem args (P := False)).bind_spoils fun vs _ =>
          notedCall_spoils ha hvoid
    · refine .bind calledFunction_clears fun d _ =>
        .bind (.keepingCursor (hem _ d _ _ _ fun _ => argumentTypes_of_not_void hvoid)) fun g _ =>
          ?_
      split
      · rename_i j object name _
        exact .bind (lvalue_clears hem object) fun _ _ =>
          .bind (loaded_clears fun hP => hP.2) fun _ _ =>
          .bind (rvalues_clears hem args) fun vs _ => notedCall_clears fun hP =>
            List.forall_mem_cons.2 ⟨hP.1.2, hP.2⟩
      · exact .bind (rvalues_clears hem args) fun vs _ => notedCall_clears fun hP => hP.2
  | .unknown i name, P, s =>
    .bind (Q := fun _ => True) (.orCrash fun _ _ _ => trivial) fun _ _ => .refuseAt

theorem rvalues_clears (hem : EmitterClears p emitFunction) :
    (es : List Expr) → ∀ {P : Prop} {s : State},
    Clears p P s (Lower.rvalues p emitFunction es) fun vs => ∀ v ∈ vs, v.type.isResult = true
  | [], P, s => .pure fun _ => nofun
  | e :: es, P, s => by
    rw [Lower.rvalues]
    exact .bind (lvalue_clears hem e) fun _ _ => .bind (loaded_clears fun hP => hP.2) fun _ _ =>
      .bind (rvalues_clears hem es) fun _ _ => .pure fun hP => List.forall_mem_cons.2 ⟨hP.1.2, hP.2⟩

end

theorem rvalue_clears (hem : EmitterClears p emitFunction) (e : Expr) :
    Clears p P s (Lower.rvalue p emitFunction e) fun v => v.type.isResult = true :=
  .bind (lvalue_clears hem e) fun _ _ => loaded_clears fun hP => hP.2

/-! ## Statements -/

theorem declareVariable_clears (hem : EmitterClears p emitFunction) {isConst : Bool} {k : ScopeId}
    {d : Variable} :
    Clears p P s (Lower.declareVariable p emitFunction isConst k d) fun _ => True := by
  have bound {P' : Prop} {v : Value} {t : State} (hv : P' → v.type.isResult = true) :
      Clears p P' t (do
      Lower.orAt d.info.span (Action.bindName k d.name (.value v))
      Lower.noteVariable d.name v) fun _ => True :=
    .bind (.orAt (bindName_clears fun hP _ hw => Binding.value.inj hw ▸ hv hP)) fun _ _ =>
      noteVariable_clears
  unfold Lower.declareVariable
  split
  · exact .bind (.orCrash fun _ _ _ => trivial) fun _ _ => .refuseAt
  · refine .bind (rvalue_clears hem _) fun v t => ?_
    split
    · exact .bind nameResult_clears fun _ _ => bound fun hP => hP.1.2
    by_cases hvoid : v.type = .void
    · refine Spoils.clears ((newSlot_clears (P := False) False.elim).bind_gives_spoils
        fun slot u hslot => ?_)
      refine (store_clears (P := False) False.elim False.elim).bind_spoils fun _ _ => ?_
      refine (Clears.orAt (bindName_clears (P := False) False.elim)).bind_spoils fun _ w => ?_
      have hn := Notes.Within.refl w.notes
      refine .modify { hn with declared := List.subset_append_left _ _ }
        (.slot w.frame.func d.name slot ?_ ?_)
      · exact List.mem_append_right _ (List.mem_singleton_self _)
      · rw [hslot.newSlot, hvoid]
    · exact .bind (newSlot_clears fun hP => Ty.isVoidFree_of_isResult hP.2 hvoid) fun slot u =>
        .bind (store_clears (fun hP => hP.1.2) fun hP => hP.2) fun _ _ => bound fun hP => hP.1.2

theorem returnFrom_clears (hem : EmitterClears p emitFunction) {i : NodeInfo} {e? : Option Expr} :
    Clears p P s (Lower.returnFrom p emitFunction i e?) fun _ => True := by
  refine .clear (.get_bind ?_)
  cases e? with
  | none =>
    have object (hP : P ∧ s.IsClear) :
        ∀ v ∈ Terminator.operands (.ret (if s.frame.isConstructor then s.frame.this? else none)),
        v.type.isResult = true := by
      intro v hv
      split at hv
      · cases hthis : s.frame.this? with
        | none =>
          rw [hthis] at hv
          cases hv
        | some this =>
          rw [hthis] at hv
          exact List.mem_singleton.1 hv ▸ hP.2.this this hthis
      · cases hv
    dsimp only
    split
    · exact .bind (Q := fun _ => True) (.orCrash fun _ _ _ => trivial) fun _ _ =>
        .bind (Q := fun _ => False) .refuseAt fun _ _ => terminate_clears fun hP => hP.2.elim
    · exact terminate_clears object
  | some e =>
    have value {P' : Prop} {t : State} : Clears p P' t
        (do Lower.terminate (.ret (some (← Lower.rvalue p emitFunction e)))) fun _ => True :=
      .bind (rvalue_clears hem e) fun v _ => terminate_clears fun hP w hw =>
        List.mem_singleton.1 hw ▸ hP.2
    dsimp only
    split
    · exact .bind (Q := fun _ => True) (.orCrash fun _ _ _ => trivial) fun _ _ =>
        .bind (Q := fun _ => True) .refuseAt fun _ _ => value
    · exact value

theorem atTop_clears {α : Type} {k : ScopeId} {x : Lower α} {Q : α → Prop}
    (h : ∀ t, Clears p P t x Q) : Clears p P s (do
      if k = Environment.global then Lower.moveToEntry
      x) Q := by
  dsimp only
  split
  · exact .bind moveToEntry_clears fun _ t => (h t).weaken And.left
  · exact h s

mutual

theorem statement_clears (hem : EmitterClears p emitFunction) :
    (st : Stmt) → ∀ {P : Prop} {s : State} {k : ScopeId},
    Clears p P s (Lower.statement p emitFunction k st) fun _ => True
  | .endOfFile _, P, s, k => .pure fun _ => trivial
  | .function .., P, s, k => .pure fun _ => trivial
  | .classDecl i name params isAmbient members, P, s, k => by
    rw [Lower.statement]
    split
    · exact .bind debug_clears fun _ _ => .pure fun _ => trivial
    · exact classScope_clears
  | .interfaceDecl i name params members, P, s, k =>
    .bind interfaceScope_clears fun _ _ => .pure fun _ => trivial
  | .namespaceDecl i name isAmbient body, P, s, k => by
    rw [Lower.statement]
    exact .bind namespaceOf_clears fun _ _ =>
      .bind (.enter fun _ => statements_clears hem body) fun _ _ => .pure fun _ => trivial
  | .variableDecl i isConst ds, P, s, k => by
    rw [Lower.statement]
    exact atTop_clears fun _ => .bind (.forM fun d _ _ => declareVariable_clears hem) fun _ _ =>
      .pure fun _ => trivial
  | .expression i e, P, s, k => by
    rw [Lower.statement]
    exact atTop_clears fun _ => .bind (.discard (lvalue_clears hem e)) fun _ _ =>
      .pure fun _ => trivial
  | .block (.mk i ss), P, s, k => by
    rw [Lower.statement]
    exact atTop_clears fun _ =>
      .bind (withScope_clears fun _ _ => statements_clears hem ss) fun _ _ => .pure fun _ => trivial
  | .ret i e, P, s, k => by
    rw [Lower.statement]
    exact atTop_clears fun _ => .bind (returnFrom_clears hem) fun _ _ => .pure fun _ => trivial
  | .ifElse .., P, s, k => by
    rw [Lower.statement]
    exact atTop_clears fun _ => .pure fun _ => trivial
  | .whileLoop .., P, s, k => by
    rw [Lower.statement]
    exact atTop_clears fun _ => .pure fun _ => trivial
  | .unknown .., P, s, k => .pure fun _ => trivial

theorem statements_clears (hem : EmitterClears p emitFunction) :
    (ss : List Stmt) → ∀ {P : Prop} {s : State} {k : ScopeId},
    Clears p P s (Lower.statements p emitFunction k ss) fun _ => True
  | [], P, s, k => .pure fun _ => trivial
  | st :: ss, P, s, k => by
    rw [Lower.statements]
    refine .bind isTerminated_clears fun _ _ => .get_bind ?_
    split
    · exact .bind debug_clears fun _ _ => .pure fun _ => trivial
    · refine .bind (statement_clears hem st) fun outcome _ => ?_
      split
      · exact .bind (.orCrash fun _ _ _ => trivial) fun _ _ => .bind warn_clears fun _ _ =>
          statements_clears hem ss
      · exact statements_clears hem ss

end

/-! ## Functions -/

theorem returnType_clears {decl : Node} {shape : FunctionShape} {signature : Signature}
    {owner? : Option TypeId}
    {receiver? : Option Ty} (hreceiver : P → ∀ t, receiver? = some t → t.isVoidFree = true)
    (helem : P → shape = .indexSignature → ∀ owner elem, owner? = some owner →
      (p.typeInfo owner).index? = some elem → p.isVoid elem = false) :
    Clears p P s (Lower.returnType p decl shape signature owner? receiver?) fun t =>
      t.isResult = true := by
  unfold Lower.returnType
  split
  · exact .bind (.orCrash fun t ht hP => hreceiver hP t ht) fun t _ => .pure fun hP =>
      Ty.isResult_of_isVoidFree (Ty.isVoidFree_pointer.trans hP.2)
  · split
    · rename_i elem hindex
      obtain ⟨owner, howner, hindex⟩ := Option.bind_eq_some_iff.1 hindex
      refine .bind type_clears fun t _ => .pure fun hP =>
        Ty.isResult_of_isVoidFree (Ty.isVoidFree_pointer.trans (hP.2.value ?_))
      exact fun _ he => Option.some.inj he ▸ helem hP.1 rfl owner elem howner hindex
    · exact .bind (Q := fun _ => True) (.orCrash fun _ _ _ => trivial) fun owner _ =>
        .bind .answered fun _ _ => .refuseAt
  all_goals exact type_clears.mono fun _ h => h.result

theorem receiverParam_clears {decl : Place} {shape : FunctionShape} {receiver? : Option Ty}
    (hreceiver : P → ∀ t, receiver? = some t → t.isVoidFree = true) :
    Clears p P s (Lower.receiverParam decl shape receiver?) fun ts => ∀ t ∈ ts,
      t.isVoidFree = true ∧ t ≠ .i32 := by
  unfold Lower.receiverParam
  split
  · exact .pure fun _ => nofun
  · split
    · rename_i t
      refine .bind (Q := fun u => u.isVoidFree = true ∧
        u ≠ .i32) (.bind isValueType_clears fun isValue _ => ?_) fun u _ =>
        .pure fun hP => List.forall_mem_singleton.2 hP.2
      refine .pure fun hP => ?_
      split
      · rename_i hvalue
        exact ⟨hreceiver hP.1 t rfl, hP.2 hvalue⟩
      · exact ⟨Ty.isVoidFree_pointer.trans (hreceiver hP.1 t rfl), nofun⟩
    · exact .bind (.orCrash fun _ _ _ => trivial) fun _ _ => .refuseAt

theorem storeProperty_clears {owner : TypeId} {r : RecordId} {this v : Value} {name : String}
    (hthis : P → this.type.isVoidFree = true) (hv : P → v.type.isResult = true) :
    Clears p P s (Lower.storeProperty p owner r this name v) fun _ => True := by
  unfold Lower.storeProperty
  split
  · exact .bind .answered fun _ _ => .refuse
  · exact .bind (fieldAddress_clears hthis) fun _ _ =>
      store_clears (fun hP => hv hP.1) fun hP => hP.2

theorem storeParams_clears {f : FuncId} {owner : TypeId} {r : RecordId} {this : Value}
    {qs : List Program.Param} :
    ∀ {P : Prop} {s : State} {index : Nat}, (P → this.type.isVoidFree = true) →
    Clears p P s (Lower.storeParams p f owner r this index qs) fun _ => True := by
  induction qs with
  | nil => exact fun _ => .pure fun _ => trivial
  | cons q qs ih =>
    intro P s index hthis
    unfold Lower.storeParams
    split
    · refine .bind func_clears fun fn _ => ?_
      split
      · rename_i param hparam
        refine .bind
          (storeProperty_clears (fun hP => hthis hP.1) fun hP => Ty.isResult_of_isVoidFree ?_)
          fun _ _ =>
          ih fun hP => hthis hP.1.1
        exact (Func.isVoidFree_signature.1 hP.2.signature).2 _
          (List.mem_map_of_mem (List.mem_of_getElem? hparam))
      · exact ih fun hP => hthis hP.1
    · exact ih hthis

theorem storeInitializers_clears (hem : EmitterClears p emitFunction) {owner : TypeId}
    {r : RecordId} {this : Value}
    {ms : List Member} : ∀ {P : Prop} {s : State}, (P → this.type.isVoidFree = true) →
    Clears p P s (Lower.storeInitializers p emitFunction owner r this ms) fun _ => True := by
  induction ms with
  | nil => exact fun _ => .pure fun _ => trivial
  | cons m ms ih =>
    intro P s hthis
    unfold Lower.storeInitializers
    split
    · exact .pure fun _ => trivial
    · rename_i heq
      obtain ⟨-, rfl⟩ := List.cons_eq_cons.1 heq
      exact .bind (rvalue_clears hem _) fun _ _ =>
        .bind (storeProperty_clears (fun hP => hthis hP.1) fun hP => hP.2) fun _ _ =>
        ih fun hP => hthis hP.1.1
    · rename_i heq
      obtain ⟨-, rfl⟩ := List.cons_eq_cons.1 heq
      exact ih hthis

theorem setThis_clears {v : Value} (hv : P → v.type.isResult = true) :
    Clears p P s (modify fun s => { s with frame := { s.frame with this? := some v } }) fun _ =>
      True :=
  .keep rfl fun hP hs => ⟨hs.module, hs.names, hs.scopes, fun _ hw => Option.some.inj hw ▸ hv hP⟩

theorem constructObject_clears (hem : EmitterClears p emitFunction) {e : Emission} {f : FuncId}
    {k : ScopeId} (hreceiver : P → ∀ t, e.receiver? = some t → t.isVoidFree = true) :
    Clears p P s (Lower.constructObject p emitFunction e f k) fun _ => True := by
  refine .bind (.orCrash fun t ht hP => hreceiver hP t ht) fun ty _ =>
    .bind (Q := fun _ => True) (.orCrash fun _ _ _ => trivial)
    fun owner _ => .bind (allocate_clears fun hP => hP.1.2) fun this _ => ?_
  have free (hP : (((P ∧ ty.isVoidFree = true) ∧ True) ∧ this.type = .pointer ty)) :
      this.type.isVoidFree = true := by
    rw [hP.2]
    exact Ty.isVoidFree_pointer.trans hP.1.1.2
  refine .bind (setThis_clears fun hP => Ty.isResult_of_isVoidFree (free hP)) fun _ _ =>
    .bind (bindName_clears fun hP _ hw => Binding.value.inj hw ▸
      Ty.isResult_of_isVoidFree (free hP.1)) fun _ _ => ?_
  split
  · refine .bind (storeParams_clears fun hP => free hP.1.1) fun _ _ => ?_
    split
    · exact storeInitializers_clears hem fun hP => free hP.1.1.1
    · exact .pure fun _ => trivial
  · exact .crash

theorem bindParams_clears {f : FuncId} {k : ScopeId} {names : List String} :
    ∀ {P : Prop} {s : State} {index : Nat}
    {qs : List Ir.Param}, (P → ∀ q ∈ qs, q.type.isVoidFree = true) →
    Clears p P s (Lower.bindParams f k index names qs) fun _ => True := by
  induction names with
  | nil =>
    intro P s index qs hqs
    unfold Lower.bindParams
    exact .pure fun _ => trivial
  | cons name names ih =>
    intro P s index qs hqs
    cases qs with
    | nil => exact .pure fun _ => trivial
    | cons q qs =>
      have hrest (hP : P) :
          ∀ q ∈ qs, q.type.isVoidFree = true := fun q' hq => hqs hP q' (List.mem_cons_of_mem _ hq)
      unfold Lower.bindParams
      split
      · refine .bind (bindName_clears fun hP v hv => ?_) fun _ _ =>
          .bind (.discard localName_clears) fun _ _ =>
          ih fun hP => hrest hP.1.1
        rw [← Binding.value.inj hv]
        exact Ty.isResult_of_isVoidFree (hqs hP q List.mem_cons_self)
      · exact ih hrest

theorem statements_then_clears (hem : EmitterClears p emitFunction) {k : ScopeId} {ss : List Stmt}
    {x : Lower Unit} (hx : ∀ P t, Clears p P t x fun _ => True) : Clears p P s (do
      Lower.statements p emitFunction k ss
      if ! (← Lower.isTerminated) then x) fun _ => True := by
  refine .bind (statements_clears hem ss) fun _ _ => .bind isTerminated_clears fun ended t => ?_
  split
  · exact hx _ t
  · exact .pure fun _ => trivial

theorem emitBody_clears (hem : EmitterClears p emitFunction) {e : Emission} {f : FuncId}
    {body : Program.Block}
    {k : ScopeId} (hreceiver : P → ∀ t, e.receiver? = some t → t.isVoidFree = true) :
    Clears p P s (Lower.emitBody p emitFunction e f body k) fun _ => True := by
  have returnThis (P' : Prop) (t : State) :
      Clears p P' t (do Lower.terminate (.ret (← get).frame.this?)) fun _ => True := by
    refine .clear (.get_bind (terminate_clears fun hP v hv => ?_))
    cases hthis : t.frame.this? with
    | none =>
      rw [hthis] at hv
      cases hv
    | some this =>
      rw [hthis] at hv
      exact List.mem_singleton.1 hv ▸ hP.2.this this hthis
  have fallOff (P' : Prop) (t : State) : Clears p P' t
      (do if (← Lower.func f).returns.isMatch (← get).module.records .void then
            Lower.terminate (.ret none)
          else Lower.terminate .unreachable) fun _ => True := by
    refine .bind func_clears fun _ _ => .get_bind ?_
    split <;> exact terminate_clears fun _ => nofun
  have params {fn : Func} (h : fn.IsClear) :
      ∀ q ∈ fn.params, q.type.isVoidFree = true := fun q hq =>
    (Func.isVoidFree_signature.1 h.signature).2 _ (List.mem_map_of_mem hq)
  refine .bind func_clears fun fn _ => .bind (bindParams_clears fun hP => params hP.2) fun _ _ =>
    .bind newBlock_clears fun block _ =>
      .bind (.keep rfl fun _ hs => ⟨hs.module, hs.names, hs.scopes, nofun⟩) fun _ _ => ?_
  dsimp only
  split
  · exact .bind (constructObject_clears hem fun hP => hreceiver hP.1.1.1.1) fun _ _ =>
      statements_then_clears hem returnThis
  · split
    · refine .bind func_clears fun fn' _ =>
        .bind (Q := fun q => q.type.isVoidFree = true) (.orCrash fun q hq hP => ?_)
        fun q _ => .bind (setThis_clears fun hP => Ty.isResult_of_isVoidFree hP.2) fun _ _ =>
        statements_then_clears hem fallOff
      exact params hP.2 q (List.mem_of_getElem? hq)
    · exact statements_then_clears hem fallOff

theorem setModule_clears {m : Module} (hm : s.module.EqUpToNumbers m) :
    Clears p P s (modify fun s => { s with module := m }) fun _ => True :=
  .keep rfl fun _ hs => ⟨hs.module.of_sameCode hm.sameCode, hs.names, hs.scopes, hs.this⟩

theorem verifyFunc_clears {e : Emission} {f : FuncId} :
    Clears p P s (Lower.verifyFunc e f) fun _ => True := by
  refine .get_bind ?_
  dsimp only
  split
  · exact .pure fun _ => trivial
  · refine .bind_gives func_clears fun fn t ht => ?_
    obtain ⟨-, rfl⟩ := ht.func
    split
    · refine .bind_gives (Q := fun _ => True) (.orCrash fun _ _ _ => trivial) fun shown u hu => ?_
      obtain ⟨hshown, rfl⟩ := hu.orCrash
      obtain ⟨text, m⟩ := shown
      exact .bind (setModule_clears (Module.eqUpToNumbers_printFunc hshown)) fun _ _ => .throw
    · exact .throw

/-! ## Emission -/

theorem origins_within (s : State) (f : FuncId) (r : Request) :
    s.notes.Within { s.notes with origins := s.notes.origins ++ [(f, r)] } :=
  have hn := Notes.Within.refl s.notes
  { hn with origins := List.subset_append_left _ _ }

theorem lowerBody_clears (hem : EmitterClears p emitFunction) {e : Emission} {f : FuncId}
    (hreceiver : P → ∀ t, e.receiver? = some t → t.isVoidFree = true) :
    Clears p P s (emitDeclared p emitFunction e f) fun _ => True := by
  refine .bind debug_clears fun _ _ => ?_
  split
  · exact .pure fun _ => trivial
  · refine .bind (.detached fun _ => insideNamespaces_clears fun _ => withScope_clears fun _ _ =>
      emitBody_clears hem fun hP =>
      hreceiver hP.1) fun _ _ => .bind verifyFunc_clears fun _ _ => .pure fun _ => trivial

theorem defineFunc_clears (hem : EmitterClears p emitFunction) {e : Emission} {returns : Ty}
    {params : List Ty} (hreturns : P → returns.isResult = true)
    (hparams : P → ∀ t ∈ params, t.isVoidFree = true ∧ t ≠ .i32)
    (hreceiver : P → ∀ t, e.receiver? = some t → t.isVoidFree = true) :
    Clears p P s (Lower.defineFunc p emitFunction e returns params) fun _ => True := by
  have hmem {names : List String} {q : String × Ty} (hq : q ∈ names.zip params) :
      q.2 ∈ params := (List.of_mem_zip hq).2
  refine .bind (newFunc_clears hreturns (fun hP q hq => (hparams hP _ (hmem hq)).1) ?_) fun f _ =>
    .bind (.noting (origins_within _ f _) fun _ hs => ⟨hs.module, hs.names, hs.scopes, hs.this⟩)
      fun _ _ =>
    lowerBody_clears hem fun hP => hreceiver hP.1.1
  rintro hP ⟨q, hq, he⟩
  exact ((hparams hP _ (hmem hq)).2 he).elim

theorem defineFunc_spoils (hem : EmitterClears p emitFunction) {e : Emission} {returns : Ty}
    {params : List Ty}
    {owner elem : TypeId} {fn : FunctionLike} (hfn : e.decl.node.functionLike? = some fn)
    (hshape : fn.shape = .indexSignature)
    (howner : e.owner? = some owner) (hindex : (p.typeInfo owner).index? = some elem)
    (hvoid : p.isVoid elem = true) :
    Spoils p s (Lower.defineFunc p emitFunction e returns params) := by
  refine (newFunc_clears (P := False) False.elim False.elim False.elim).bind_spoils fun f t => ?_
  refine .bind (.modify (origins_within t f ⟨e.decl, e.owner?⟩) ?_) fun _ _ =>
    lowerBody_clears (P := False) hem False.elim
  exact .element f e.decl fn owner elem (howner ▸
    List.mem_append_right _ (List.mem_singleton_self _)) hfn hshape hindex hvoid

theorem emitNew_clears (hem : EmitterClears p emitFunction) {decl : Place} {function : FunctionLike}
    {owner? : Option TypeId} {args : List (Option TypeId)} {name : String} {parent : ScopeId}
    (hfunction : decl.node.functionLike? = some function) (hargs : P → ∀ t, some t ∈ args →
      p.isVoid t = false) :
    Clears p P s (Lower.emitNew p emitFunction decl function owner? args name parent) fun _ =>
      True := by
  have receiver {P' : Prop} : Clears p P' s (owner?.mapM (Lower.receiverRecord p parent)) fun t? =>
      ∀ t, t? = some t → t.isVoidFree = true := by
    cases owner? with
    | none => exact .pure fun _ => nofun
    | some owner => exact .map (receiverRecord_clears.mono fun _ h _ ht => Option.some.inj ht ▸ h)
  have types {P' : Prop} {t : State} (h : P' → P) :
      Clears p P' t (args.mapM (Lower.type p)) fun ts =>
      ∀ t ∈ ts, t.isVoidFree = true ∧ t ≠ .i32 := by
    refine .mapM fun t? ht _ => type_clears.mono_of fun hP' ty hty =>
      ⟨hty.value fun u hu => ?_, hty.unsized⟩
    exact hargs (h hP') u (hu ▸ ht)
  by_cases hvoid : function.shape = .indexSignature ∧ ∃ owner elem, owner? = some owner ∧
      (p.typeInfo owner).index? = some elem ∧ p.isVoid elem = true
  · obtain ⟨hshape, owner, elem, howner, hindex, hvoid⟩ := hvoid
    refine Spoils.clears ((@receiver False).bind_spoils fun _ _ => ?_)
    refine (returnType_clears (P := False) False.elim False.elim).bind_spoils fun _ _ => ?_
    refine (receiverParam_clears (P := False) False.elim).bind_spoils fun _ _ => ?_
    exact (types False.elim).bind_spoils fun _ _ =>
      defineFunc_spoils hem hfunction hshape howner hindex hvoid
  · refine .bind receiver fun receiver? _ =>
      .bind (returnType_clears (fun hP => hP.2) ?_) fun returns _ =>
      .bind (receiverParam_clears fun hP => hP.1.2) fun own _ =>
        .bind (types fun hP => hP.1.1.1) fun ts _ =>
      defineFunc_clears hem (fun hP => hP.1.1.2) (fun hP t ht => ?_) fun hP => hP.1.1.1.2
    · exact fun _ hshape owner elem howner hindex => by
        simpa using fun h => hvoid ⟨hshape, owner, elem, howner, hindex, h⟩
    · exact (List.mem_append.1 ht).elim (hP.1.2 t) (hP.2 t)

theorem emitTo_clears (depth : Nat) : EmitterClears p (Lower.emitTo p depth) := by
  induction depth with
  | zero => exact fun P d owner? args s _ => .throw
  | succ depth ih =>
    intro P d owner? args s hargs
    unfold Lower.emitTo
    split
    · exact .refuseAt
    rename_i function hfunction
    refine .bind .ofExcept fun name _ => .get_bind ?_
    split
    · exact .pure fun _ => trivial
    refine .bind declaringScope_clears fun parent _ => ?_
    -- whether the runtime has the function or it is emitted, its name is bound afterwards
    have bound {P' : Prop} {g : FuncId} {t : State} : Clears p P' t
        (do let base ← Lower.orCrash d.node.baseName
            Action.bindName parent base (.value (← Lower.funcValue g))
            return g) fun _ => True :=
      .bind (Q := fun _ => True) (.orCrash fun _ _ _ => trivial) fun _ _ =>
        .bind funcValue_clears fun _ _ =>
        .bind (bindName_clears fun hP _ hv => Binding.value.inj hv ▸ Ty.isResult_of_isVoidFree hP.2)
          fun _ _ =>
        .pure fun _ => trivial
    dsimp only
    split
    · exact .bind builtin_clears fun _ _ => bound
    · exact .bind (emitNew_clears ih hfunction fun hP => hargs hP.1.1) fun _ _ => bound

/-! ## Whole programs -/

theorem checkConfig_clears : Clears p P s Lower.checkConfig fun _ => True := by
  refine .get_bind ?_
  split
  · exact .refuse
  · exact .pure fun _ => trivial

theorem generate_clears {file : SourceFile} :
    Clears p P s (Lower.generate p file) fun _ => True := by
  have rest {P' : Prop} {t : State} : Clears p P' t (do
      Lower.debug ("generating " ++ file.name ++ " (" ++ toString file.statements.length ++
        " statements)")
      Lower.statements p (Lower.emitFunction p) Environment.global file.statements) fun _ => True :=
    .bind debug_clears fun _ _ => statements_clears (emitTo_clears _) file.statements
  refine .bind checkConfig_clears fun _ _ => .get_bind ?_
  dsimp only
  split
  · exact .bind (Q := fun _ => True) .refuse fun _ _ => rest
  · exact rest

theorem verifyModule_clears : Clears p P s Lower.verifyModule fun _ => True :=
  .get_bind (.bind (setModule_clears (verify_eqUpToNumbers s.module)) fun _ _ => .ofExcept)

theorem finish_clears : Clears p P s Lower.finish fun _ => True := by
  refine .bind checkConfig_clears fun _ _ => .get_bind ?_
  dsimp only
  split
  · refine .bind func_clears fun _ _ => .bind (modifyBlock_clears fun _ b hb => ?_) fun _ _ =>
      .bind (.aside rfl rfl rfl rfl rfl) fun _ _ => verifyModule_clears
    split
    · exact hb
    · refine ⟨hb.code, fun e he v hv => ?_⟩
      obtain rfl := Option.some.inj he
      rw [List.mem_singleton.1 hv]
      exact Ty.isResult_of_isVoidFree Ty.isVoidFree_int
  · exact verifyModule_clears

theorem program_clears : Clears p P s (Lower.program p) fun _ => True :=
  .bind (.forM fun _ _ _ => generate_clears) fun _ _ => finish_clears

end

end CheckedIR.Lowering

import CheckedIR.Proofs.Lowering.Values

/-!
# How expressions are lowered

An expression adds instructions to the function at the cursor and nothing to any other function that
is there, although the functions it calls may be emitted in between.
-/

namespace CheckedIR.Lowering

open CheckedIR.Ir CheckedIR.Program CheckedIR.Scope CheckedIR.Scope.Action

/-- A way to emit the functions that are asked for, which stays away from those that are there. -/
def EmitterWorks (p : Program) (emitFunction : Emitter) : Prop :=
  ∀ d owner? args s, Requested p ⟨d, owner?⟩ →
    Works p .away s (emitFunction d owner? args) fun g t => Answers p ⟨d, owner?⟩ g t

section
variable {p : Program} {emitFunction : Emitter} {s : State} {f : FuncId}

/-! ## Operators -/

theorem emit_binary_works {op : Op} {t : Ty} {l r : Value} (hr : Ready f s) (hl : Usable f s l)
    (hright : Usable f s r) (halloca : op.isAlloca = false) (hcall : op.isCall = false)
    (htyped : op.IsTyped s.module) (hop : op.operands = [l, r]) (ht : t.IsPlain s.module.records) :
    Works p (.within f) s (Lower.emit op t) fun v u => Usable f u v := by
  refine (emit_works hr ⟨halloca, htyped, ?_⟩ (fun h => by rw [hcall] at h; cases h) ht).mono
    fun _ _ _ _ h => h.1
  intro v hv
  rw [hop] at hv
  simp only [List.mem_cons, List.not_mem_nil, or_false] at hv
  rcases hv with rfl | rfl
  · exact ⟨hl.fit.known, hl.isUsable⟩
  · exact ⟨hright.fit.known, hright.isUsable⟩

theorem plus_works {span : Span} {l r : Value} (hr : Ready f s) (hl : Usable f s l)
    (hright : Usable f s r) :
    Works p (.within f) s (Lower.plus span l r) fun v u => Usable f u v := by
  unfold Lower.plus
  split
  · have htyped : (Op.arith .add l r).IsTyped s.module := trivial
    have hplain : Ty.double.IsPlain s.module.records := trivial
    exact emit_binary_works hr hl hright rfl rfl htyped rfl hplain
  · refine .read_bind isString_reads fun _ _ => .read_bind isString_reads fun _ _ => ?_
    split
    · refine .bind (builtin_works rfl rfl rfl) fun g t _ hreach hg => ?_
      refine runtimeCall_works (hreach.ready rfl rfl hr) hg rfl ?_
      intro v hv
      simp only [List.mem_cons, List.not_mem_nil, or_false] at hv
      rcases hv with rfl | rfl
      · exact hl.mono hreach.changes
      · exact hright.mono hreach.changes
    · exact .read_bind typeText_reads fun _ _ => .read_bind typeText_reads fun _ _ => .refuseAt rfl

theorem binary_works {operator : String} {span : Span} {l r : Value} (hr : Ready f s)
    (hl : Usable f s l) (hright : Usable f s r) :
    Works p (.within f) s (Lower.binary operator span l r) fun v u => Usable f u v := by
  unfold Lower.binary
  split
  · exact plus_works hr hl hright
  dsimp only
  split
  · split
    · rename_i c _ _
      have htyped : (Op.compare c l r).IsTyped s.module := trivial
      have hplain : Ty.i1.IsPlain s.module.records := trivial
      exact emit_binary_works hr hl hright rfl rfl htyped rfl hplain
    · exact .read_bind typeText_reads fun _ _ => .read_bind typeText_reads fun _ _ => .refuseAt rfl
  · split
    · rename_i a _ _ _
      have htyped : (Op.arith a l r).IsTyped s.module := trivial
      have hplain : Ty.double.IsPlain s.module.records := trivial
      exact emit_binary_works hr hl hright rfl rfl htyped rfl hplain
    · exact .read_bind typeText_reads fun _ _ => .read_bind typeText_reads fun _ _ => .refuseAt rfl
  · exact .refuseAt rfl

/-! ## Members -/

theorem scopeMember_reads {span : Span} {k : ScopeId} {name : String} {source : Option String}
    (hs : s.Sound) : Reads s (Lower.scopeMember span k name source) (Usable s.cursor.func s) := by
  refine .orAt (.get_bind (.bind (.ofCause (fun _ => resolveIn_error) fun _ => id) fun b hb => ?_))
  have hfits := hs.env.resolveIn hb
  split
  · exact .bind (.orCrash fun _ _ => trivial) fun _ _ => .refuse rfl
  · exact .bind (.orCrash fun _ _ => trivial) fun _ _ => localValue_reads hs hfits
  · exact .crash

theorem valueMember_works {span : Span} {owner : TypeId} {v : Value} {name : String}
    (hr : Ready f s) (hv : Usable f s v) :
    Works p (.within f) s (Lower.valueMember p span owner v name) fun w u => Usable f u w := by
  have unknown {t : State} : Works p (.within f) t
      (do Lower.refuseAt (.unknownMember name (← Lower.answered (p.typeText owner))) span)
      fun w u => Usable f u w :=
    .read_bind (.answered fun _ _ => trivial) fun _ _ => .refuseAt rfl
  refine .read_bind isString_reads fun _ _ => ?_
  split
  · have htyped : (Op.extract v 1).IsTyped s.module := trivial
    have hplain : Ty.i32.IsPlain s.module.records := trivial
    refine .bind (emit_unary_works hr hv rfl rfl htyped rfl hplain) fun n t _ hreach ⟨hn, _⟩ => ?_
    have htyped' : (Op.toFloat n .double).IsTyped t.module := trivial
    have hplain' : Ty.double.IsPlain t.module.records := trivial
    exact (emit_unary_works (hreach.ready rfl rfl hr) hn rfl rfl htyped' rfl hplain').mono
      fun _ _ _ _ h => h.1
  · dsimp only
    split
    · refine .get_bind fun _ => ?_
      split
      · exact unknown
      · split
        · exact unknown
        · exact (fieldAddress_works hr hv).mono fun _ _ _ _ h => h.1
    · exact unknown

/-! ## Callees -/

theorem constructorOf_reads {span : Span} (i : NodeInfo) (callee : Expr) (args : List Expr) :
    Reads s (Lower.constructorOf p span callee) fun d =>
      request? p (.construct i callee args) =
      some ⟨d, some (Expr.construct i callee args).type⟩ := by
  have notClass :
      Reads s (do Lower.refuseAt (.notClass (← Lower.answered (p.typeText callee.type))) span)
      fun d : Place => request? p (.construct i callee args) =
        some ⟨d, some (Expr.construct i callee args).type⟩ :=
    .bind (.answered fun _ _ => trivial) fun _ _ => .refuseAt rfl
  unfold Lower.constructorOf
  dsimp only
  split
  · exact notClass
  · rename_i d hd
    split
    · rename_i hnode
      split
      · rename_i m hm
        refine .pure ?_
        simp only [request?, hd, Option.bind_some, hnode, hm, Option.map_some]
      · exact .refuseAt rfl
    · exact notClass

theorem calledFunction_reads {span : Span} (i : NodeInfo) (callee : Expr) (args : List Expr) :
    Reads s (Lower.calledFunction p span callee) fun d =>
      request? p (.call i callee args) = some ⟨d, (Lower.receiver? p callee).map Expr.type⟩ := by
  have invalid :
      Reads s (do Lower.refuseAt (.invalidCallTarget (← Lower.orCrash callee.source)) span)
      fun d : Place => request? p (.call i callee args) =
        some ⟨d, (Lower.receiver? p callee).map Expr.type⟩ :=
    .bind (.orCrash fun _ _ => trivial) fun _ _ => .refuseAt rfl
  unfold Lower.calledFunction
  split
  · rename_i d hd
    split
    · refine .pure ?_
      simp only [request?, hd, Option.map_some]
    · exact invalid
  · exact invalid

/-- The function of a call is emitted first, and the cursor is moved back. -/
theorem callee_works (hem : EmitterWorks p emitFunction) {e : Expr} {d : Place}
    {owner? : Option TypeId} {args : List (Option TypeId)} (hd : request? p e = some ⟨d, owner?⟩) :
    Works p .quiet s (Lower.keepingCursor (emitFunction d owner? args)) fun g t =>
      Answers p ⟨d, owner?⟩ g t :=
  keepingCursor_works (hem d owner? args s ⟨e, hd⟩) fun _ _ h => h

/-! ## Expressions -/

mutual

theorem lvalue_works (hem : EmitterWorks p emitFunction) : (e : Expr) → ∀ {s : State}, Ready f s →
    Works p (.within f) s (Lower.lvalue p emitFunction e) fun v u => Usable f u v
  | .missing, s, hr => .crash
  | .numeric _ x, s, hr => .pure (usable_const trivial)
  | .boolean _ b, s, hr => .pure (usable_const trivial)
  | .text _ text, s, hr => .bind stringConstant_works fun c u _ _ hc => .pure (usable_const hc)
  | .ident i name, s, hr => .sound fun hs => .of_reads (lookupValue_reads hs) fun _ h => hr.here ▸ h
  | .this i, s, hr => .sound fun hs => .of_reads (lookupValue_reads hs) fun _ h => hr.here ▸ h
  | .binary i operator l r, s, hr => by
    rw [Lower.lvalue]
    split
    · exact .bind (.refuseAt rfl) fun _ _ _ _ h => False.elim h
    refine .bind (lvalue_works hem l hr) fun v1 t1 _ h1 hv1 => ?_
    have hr1 := h1.ready rfl rfl hr
    refine .bind (loaded_works hr1 hv1) fun v2 t2 _ h2 hv2 => ?_
    have hr2 := h2.ready rfl rfl hr1
    refine .bind (lvalue_works hem r hr2) fun v3 t3 _ h3 hv3 => ?_
    have hr3 := h3.ready rfl rfl hr2
    refine .bind (loaded_works hr3 hv3) fun v4 t4 _ h4 hv4 => ?_
    exact binary_works (h4.ready rfl rfl hr3) (hv2.mono (h3.trans h4).changes) hv4
  | .unary i operator x, s, hr => by
    rw [Lower.lvalue]
    split
    · exact .bind (.refuseAt rfl) fun _ _ _ _ h => False.elim h
    exact .bind (lvalue_works hem x hr) fun v t _ h hv => loaded_works (h.ready rfl rfl hr) hv
  | .member i object name, s, hr => by
    rw [Lower.lvalue]
    refine .read_bind (scopeOf?_reads object) fun k? _ => .sound fun hs => ?_
    split
    · exact .of_reads (scopeMember_reads hs) fun _ h => hr.here ▸ h
    have rest : Works p (.within f) s
        (do Lower.valueMember p i.span object.type
              (← Lower.loaded (← Lower.lvalue p emitFunction object)) name)
        fun v u => Usable f u v := by
      refine .bind (lvalue_works hem object hr) fun v1 t1 _ h1 hv1 => ?_
      have hr1 := h1.ready rfl rfl hr
      exact .bind (loaded_works hr1 hv1) fun v2 t2 _ h2 hv2 =>
        valueMember_works (h2.ready rfl rfl hr1) hv2
    split
    · exact .read_bind (.orCrash fun _ _ => trivial) fun _ _ =>
        .bind (.refuseAt rfl) fun _ _ _ _ h => False.elim h
    · exact rest
  | .construct i callee args, s, hr => by
    rw [Lower.lvalue]
    refine .read_bind (constructorOf_reads i callee args) fun d hd => ?_
    refine .bind_le (callee_works hem hd) (.quiet rfl rfl rfl) fun g t1 _ h1 hg => ?_
    have hr1 := h1.ready rfl rfl hr
    refine .bind (rvalues_works hem args hr1) fun vs t2 _ h2 hvs => ?_
    exact notedCall_works (h2.ready rfl rfl hr1) hd (hg.mono h2.changes) hvs
  | .call i callee args, s, hr => by
    rw [Lower.lvalue]
    refine .read_bind (calledFunction_reads i callee args) fun d hd => ?_
    refine .bind_le (callee_works hem hd) (.quiet rfl rfl rfl) fun g t1 _ h1 hg => ?_
    have hr1 := h1.ready rfl rfl hr
    split
    · rename_i j object name _
      refine .bind (lvalue_works hem object hr1) fun v t2 _ h2 hv => ?_
      have hr2 := h2.ready rfl rfl hr1
      refine .bind (loaded_works hr2 hv) fun w t3 _ h3 hw => ?_
      have hr3 := h3.ready rfl rfl hr2
      refine .bind (rvalues_works hem args hr3) fun vs t4 _ h4 hvs => ?_
      refine notedCall_works (h4.ready rfl rfl hr3) hd (hg.mono ((h2.trans h3).trans h4).changes) ?_
      intro x hx
      rcases List.mem_cons.1 hx with rfl | hx
      · exact hw.mono h4.changes
      · exact hvs x hx
    · refine .bind (rvalues_works hem args hr1) fun vs t2 _ h2 hvs => ?_
      exact notedCall_works (h2.ready rfl rfl hr1) hd (hg.mono h2.changes) hvs
  | .unknown i name, s, hr => .read_bind (.orCrash fun _ _ => trivial) fun _ _ => .refuseAt rfl

theorem rvalues_works (hem : EmitterWorks p emitFunction) :
    (es : List Expr) → ∀ {s : State}, Ready f s →
    Works p (.within f) s (Lower.rvalues p emitFunction es) fun vs u => ∀ v ∈ vs, Usable f u v
  | [], s, hr => .pure fun v hv => by cases hv
  | e :: es, s, hr => by
    rw [Lower.rvalues]
    refine .bind (lvalue_works hem e hr) fun v1 t1 _ h1 hv1 => ?_
    have hr1 := h1.ready rfl rfl hr
    refine .bind (loaded_works hr1 hv1) fun v2 t2 _ h2 hv2 => ?_
    refine .bind (rvalues_works hem es (h2.ready rfl rfl hr1)) fun vs t3 _ h3 hvs => .pure ?_
    intro v hv
    rcases List.mem_cons.1 hv with rfl | hv
    · exact hv2.mono h3.changes
    · exact hvs v hv

end

theorem rvalue_works (hem : EmitterWorks p emitFunction) (e : Expr) (hr : Ready f s) :
    Works p (.within f) s (Lower.rvalue p emitFunction e) fun v u => Usable f u v :=
  .bind (lvalue_works hem e hr) fun _ _ _ h hv => loaded_works (h.ready rfl rfl hr) hv

end

end CheckedIR.Lowering

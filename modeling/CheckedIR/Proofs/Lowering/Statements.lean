import CheckedIR.Proofs.Lowering.Expressions
import CheckedIR.Proofs.Lowering.Scopes

/-!
# How statements are lowered

A statement that is not at the top level stays in the function at the cursor. At the top level the
cursor is in the entry function already, so moving there changes nothing; and the entry function
does not end, since there is no top-level return.
-/

namespace CheckedIR.Lowering

open CheckedIR.Ir CheckedIR.Program CheckedIR.Scope CheckedIR.Scope.Action

structure AtEntry (s : State) : Prop where
  cursor : s.cursor = ⟨Lower.entryFunc, 0⟩
  frame : s.frame = ⟨Lower.entryFunc, none, false⟩

section
variable {p : Program} {M : Manner} {emitFunction : Emitter} {s : State} {f : FuncId}

theorem Reach.atEntry {t : State} (h : Reach p M s t) (hM : M.returns = true) (hs : AtEntry s) :
    AtEntry t :=
  ⟨(h.place hM).1.trans hs.cursor, (h.place hM).2.trans hs.frame⟩

theorem moveToEntry_reads (hs : s.Sound) (h : AtEntry s) :
    Reads s Lower.moveToEntry fun _ => True := by
  refine .bind func_reads fun fn hf => ?_
  obtain ⟨fn', b, hf', hb, -⟩ := hs.entry
  obtain rfl := Option.some.inj (hf.symm.trans hf')
  have hlen : fn.blocks.length - 1 = 0 := by rw [show fn.blocks = [b] from hb]; rfl
  refine ⟨?_, trivial⟩
  rw [hlen, ← h.cursor, ← h.frame]

theorem atTop_works {α : Type} {scope : ScopeId} {rest : Lower α} {Q : α → State → Prop}
    (h : scope ≠ Environment.global ∨ AtEntry s) (hrest : Works p M s rest Q) :
    Works p M s (if scope = Environment.global then Lower.moveToEntry >>= fun _ => rest else
      rest) Q := by
  split
  · rename_i hglobal
    exact .sound fun hs => .read_bind (moveToEntry_reads hs (h.resolve_left (· hglobal))) fun _ _ =>
      hrest
  · exact hrest

theorem noteVariable_works {name : String} {v : Value} (hr : Ready f s) :
    Works p (.within f) s (Lower.noteVariable name v) fun _ u => Ready f u := by
  refine .sound fun hs => .modify (.note name v) (fun ho hc => ?_) ⟨hr.here, hr.isOpen⟩
  have hframe : s.frame.func = f := hs.frame_func.trans hr.here
  refine ⟨hc, ho, fun _ _ _ => rfl, fun g fn hg hf => ?_, rfl, fun g _ hg => ?_,
    fun _ => ⟨rfl, rfl⟩, fun _ _ h => h,
    fun h => (by cases h), fun h => (by cases h), .of_length rfl, fun _ _ => .inl⟩
  · rw [Module.func?, List.getElem?_eq_none hg] at hf
    cases hf
  · have hne : f ≠ g := fun he => hg (he ▸ rfl)
    simp [State.variablesOf, hframe, hne]

theorem declareVariable_works (hem : EmitterWorks p emitFunction) {isConst : Bool} {scope : ScopeId}
    {d : Variable} (hd : p.Has (.declarator d)) (hr : Ready f s) :
    Works p (.within f) s (Lower.declareVariable p emitFunction isConst scope d) fun _ u =>
      Ready f u := by
  unfold Lower.declareVariable
  split
  · exact .read_bind (.orCrash fun _ _ => trivial) fun _ _ => .refuseAt rfl
  · rename_i e _
    refine .bind (rvalue_works hem e hr) fun v t _ h hv => ?_
    have hr1 := h.ready rfl rfl hr
    split
    · refine .bind (nameResult_works hr1 hv (.declared hd rfl)) fun _ u _ h2 _ => ?_
      refine .bind (.orAt (bindValue_works rfl (hv.mono h2.changes).fit)) fun _ w _ h3 _ => ?_
      exact noteVariable_works ((h2.trans h3).ready rfl rfl hr1)
    · refine .bind (newSlot_works hr1 (.declared hd rfl) hv.fit.plain)
        fun slot u _ h2 ⟨hslot, htype⟩ => ?_
      have hr2 := h2.ready rfl rfl hr1
      refine .bind (store_works hr2 (hv.mono h2.changes) hslot ?_) fun _ w _ h3 _ => ?_
      · intro elem helem
        rw [htype] at helem
        exact .inr (Ty.pointer.inj helem).symm
      · refine .bind (.orAt (bindValue_works rfl (hslot.mono h3.changes).fit)) fun _ x _ h4 _ => ?_
        exact noteVariable_works ((h3.trans h4).ready rfl rfl hr2)

theorem returnFrom_works (hem : EmitterWorks p emitFunction) {i : NodeInfo} {e : Option Expr}
    (hr : Ready f s) :
    Works p (.along f) s (Lower.returnFrom p emitFunction i e) fun _ _ => f ≠ Lower.entryFunc := by
  refine .get_bind fun hs => ?_
  have hframe : s.frame.func = f := hs.frame_func.trans hr.here
  dsimp only
  split
  · exact .read_bind (.orCrash fun _ _ => trivial) fun _ _ => .bind (.refuseAt rfl) fun _ _ _ _ h =>
      False.elim h
  · rename_i hne
    rw [hframe] at hne
    split
    · rename_i e
      refine .bind_le (rvalue_works hem e hr) .within_along fun v t _ h hv => ?_
      refine (terminate_works (h.ready rfl rfl hr) rfl rfl rfl rfl hne ?_).mono fun _ _ _ _ _ => hne
      intro w hw
      rw [List.mem_singleton.1 hw]
      exact hv
    · refine (terminate_works hr rfl rfl rfl rfl hne ?_).mono fun _ _ _ _ _ => hne
      intro w hw
      split at hw
      · cases hthis : s.frame.this? with
        | none =>
          rw [hthis] at hw
          cases hw
        | some v =>
          rw [hthis] at hw
          rw [List.mem_singleton.1 hw]
          obtain ⟨hfit, huse⟩ := hs.place.this v hthis
          exact ⟨hfit, hframe ▸ huse⟩
      · cases hw

theorem namespaceOf_works {decl : Node} {name : String} {container : ScopeId}
    (hM : M.silent = false) :
    Works p M s (Lower.namespaceOf decl name container) fun k _ => 0 < k := by
  refine .sound fun hs => .read_bind lookupIn_reads fun b? hb => ?_
  split
  · exact .pure (hs.env.lookupIn hb.symm).1
  · exact bindNewScope_works hM (fun ty hty => by cases hty) fun ty hty => by cases hty

/-! ## Statements -/

mutual

theorem statement_works (hem : EmitterWorks p emitFunction) : (st : Stmt) → p.Has (.stmt st) →
    ∀ {s : State} {scope : ScopeId}, Ready f s → (scope ≠ Environment.global ∨ AtEntry s) →
    Works p (.along f) s (Lower.statement p emitFunction scope st)
      fun _ u => f = Lower.entryFunc → u.module.IsOpen f
  | .endOfFile _, hst, s, scope, hr, htop => .pure fun _ => hr.isOpen
  | .function .., hst, s, scope, hr, htop => .pure fun _ => hr.isOpen
  | .classDecl i name params isAmbient members, hst, s, scope, hr, htop => by
    rw [Lower.statement]
    split
    · exact .bind_le (debug_works (M := .within f)) .within_along fun _ t _ h _ =>
        .pure fun _ => h.opened rfl f hr.isOpen
    · exact .weaken .within_along
        ((classScope_works rfl).mono fun _ t _ h _ _ => h.opened rfl f hr.isOpen)
  | .interfaceDecl i name params members, hst, s, scope, hr, htop =>
    .bind_le (interfaceScope_works (M := .within f) rfl) .within_along fun _ t _ h _ =>
      .pure fun _ => h.opened rfl f hr.isOpen
  | .namespaceDecl i name isAmbient body, hst, s, scope, hr, htop => by
    rw [Lower.statement]
    refine .bind_le (namespaceOf_works (M := .within f) rfl) .within_along fun k t _ h hk => ?_
    refine .bind (Q := fun _ u => f = Lower.entryFunc → u.module.IsOpen f) ?_ fun _ _ _ _ h =>
      .pure h
    have hr1 := h.ready rfl rfl hr
    exact enter_works rfl (statements_works hem body (fun st h => hst.child (List.mem_map_of_mem h))
      hr1.here (fun _ => hr1.isOpen) (.inl (Nat.ne_of_gt hk))) fun _ _ h => h
  | .variableDecl i isConst ds, hst, s, scope, hr, htop => by
    rw [Lower.statement]
    refine atTop_works htop ?_
    refine .bind_le (.forM (I := Ready f) hr fun d hd t ht =>
      declareVariable_works hem (hst.child (List.mem_map_of_mem hd)) ht) .within_along
      fun _ t _ _ ht => .pure fun _ => ht.isOpen
  | .expression i e, hst, s, scope, hr, htop => by
    rw [Lower.statement]
    refine atTop_works htop ?_
    exact .bind_le (lvalue_works hem e hr).discard .within_along fun _ t _ h _ =>
      .pure fun _ => h.opened rfl f hr.isOpen
  | .block (.mk i ss), hst, s, scope, hr, htop => by
    rw [Lower.statement]
    refine atTop_works htop ?_
    refine .bind (Q := fun _ u => f = Lower.entryFunc → u.module.IsOpen f) ?_ fun _ _ _ _ h =>
      .pure h
    refine .bind_le (createScope_works (M := .within f) rfl fun o h => by cases h) .within_along
      fun k t _ h hk => ?_
    have hr1 := h.ready rfl rfl hr
    exact enter_works rfl (statements_works hem ss (fun st h => hst.child (List.mem_map_of_mem h))
      hr1.here (fun _ => hr1.isOpen) (.inl (Nat.ne_of_gt hk.1))) fun _ _ h => h
  | .ret i e, hst, s, scope, hr, htop => by
    rw [Lower.statement]
    refine atTop_works htop ?_
    exact .bind (returnFrom_works hem hr) fun _ _ _ _ hne => .pure fun he => absurd he hne
  | .ifElse .., hst, s, scope, hr, htop => by
    rw [Lower.statement]
    exact atTop_works htop (.pure fun _ => hr.isOpen)
  | .whileLoop .., hst, s, scope, hr, htop => by
    rw [Lower.statement]
    exact atTop_works htop (.pure fun _ => hr.isOpen)
  | .unknown .., hst, s, scope, hr, htop => .pure fun _ => hr.isOpen

theorem statements_works (hem : EmitterWorks p emitFunction) :
    (ss : List Stmt) → (∀ st ∈ ss, p.Has (.stmt st)) →
    ∀ {s : State} {scope : ScopeId}, s.cursor.func = f → (f = Lower.entryFunc → s.module.IsOpen f) →
    (scope ≠ Environment.global ∨ AtEntry s) →
    Works p (.along f) s (Lower.statements p emitFunction scope ss)
      fun _ u => f = Lower.entryFunc → u.module.IsOpen f
  | [], hss, s, scope, hf, hopen, htop => .pure hopen
  | st :: ss, hss, s, scope, hf, hopen, htop => by
    rw [Lower.statements]
    refine .sound fun hs => .read_bind (isTerminated_reads hs) fun ended hended =>
      .get_bind fun _ => ?_
    split
    · refine .bind_le (debug_works (M := .within f)) .within_along fun _ t _ h _ =>
        .pure fun he => ?_
      exact h.opened rfl f (hopen he)
    · rename_i hgo
      have hr : Ready f s := by
        refine ⟨hf, ?_⟩
        rw [hs.frame_func, hf] at hgo
        by_cases he : f = Lower.entryFunc
        · exact hopen he
        · exact hf ▸ hended.1 (by simpa [he] using hgo)
      refine .bind (statement_works hem st (hss st List.mem_cons_self) hr htop)
        fun outcome t _ h hopen' => ?_
      have hrest : ∀ st' ∈ ss, p.Has (.stmt st') := fun st' h => hss st' (List.mem_cons_of_mem st h)
      have hf' : t.cursor.func = f := (h.place rfl).1 ▸ hf
      have htop' : scope ≠ Environment.global ∨ AtEntry t := htop.imp_right (h.atEntry rfl)
      split
      · refine .read_bind (.orCrash fun _ _ => trivial) fun _ _ => ?_
        refine .bind_le (warn_works (M := .within f)) .within_along fun _ u _ h' _ => ?_
        refine statements_works hem ss hrest ?_ (fun he => h'.opened rfl f (hopen' he))
          (htop'.imp_right (h'.atEntry rfl))
        exact (h'.place rfl).1 ▸ hf'
      · exact statements_works hem ss hrest hf' hopen' htop'

end

end

end CheckedIR.Lowering

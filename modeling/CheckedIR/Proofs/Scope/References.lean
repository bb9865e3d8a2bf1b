import CheckedIR.Proofs.Scope.Declaring
import CheckedIR.Proofs.Sessions

/-!
# References to functions

A function is emitted by its first call, and only then its name is bound. So a name, or a member of
a namespace, that denotes a declared function stands for it from the first call on, and for nothing
before.
-/

namespace CheckedIR.Program

theorem Node.file_notMem_children {n : Node} {f : SourceFile} : .file f ∉ n.children := by
  have expr {e : Expr} : Node.file f ∉ e.node? := fun h => by cases Node.eq_expr_of_mem_node? h
  have exprOf {e? : Option Expr} : Node.file f ∉ e?.bind Expr.node? := by
    cases e? with
    | none => nofun
    | some e => exact expr
  cases n with
  | stmt s =>
    cases s with
    | block b => cases b; simp [Node.children]
    | _ => simp_all [Node.children, Block.node]
  | expr e => cases e <;> simp_all [Node.children]
  | member m => cases m <;> simp_all [Node.children, Block.node]
  | _ => simp_all [Node.children]

theorem Node.around_of_mem_postorder {around : List Node} {n : Node} {d : Place}
    (hd : d ∈ n.postorder around) :
    ∃ l, d.node :: d.ancestors = l ++ n :: around ∧ ∀ f, .file f ∉ l := by
  induction around, n using Node.postorder.induct with
  | case1 around n ih =>
    rcases mem_postorder.1 hd with ⟨c, hc, hd⟩ | rfl
    · obtain ⟨l, hl, hfile⟩ := ih ⟨c, hc⟩ hd
      refine ⟨l ++ [c], by rw [hl, List.append_assoc]; rfl, fun f hf => ?_⟩
      rcases List.mem_append.1 hf with hf | hf
      · exact hfile f hf
      · obtain rfl := List.mem_singleton.1 hf
        exact file_notMem_children hc
    · exact ⟨[], rfl, fun _ => List.not_mem_nil⟩

theorem namespacePath_of_file {p : Program} {d : Place} {f : SourceFile} (hd : d ∈ p.places)
    (hparent : d.parent? = some (.file f)) : d.namespacePath = [] := by
  obtain ⟨g, -, hd⟩ := List.mem_flatMap.1 hd
  obtain ⟨l, hl, hfile⟩ := Node.around_of_mem_postorder hd
  obtain ⟨node, _ | ⟨parent, around⟩⟩ := d
  · rfl
  obtain rfl : parent = .file f := Option.some.inj hparent
  rcases l with _ | ⟨x, _ | ⟨y, l⟩⟩
  · cases hl
  · obtain ⟨-, hrest⟩ := List.cons_eq_cons.1 hl
    obtain ⟨-, rfl⟩ := List.cons_eq_cons.1 hrest
    rfl
  · obtain ⟨-, hrest⟩ := List.cons_eq_cons.1 hl
    obtain ⟨rfl, -⟩ := List.cons_eq_cons.1 hrest
    exact absurd (List.mem_cons_of_mem _ List.mem_cons_self) (hfile f)

end CheckedIR.Program

namespace CheckedIR.Lowering

open CheckedIR.Ir CheckedIR.Program CheckedIR.Scope CheckedIR.Scope.Action

/-- An expression is a name, or a member of what another such expression names. -/
inductive Names : Expr → List String → Prop
  | ident (i : NodeInfo) (name : String) : Names (.ident i name) [name]
  | member (i : NodeInfo) {object : Expr} {path : List String} (name : String)
      (h : Names object path) :
    Names (.member i object name) (path ++ [name])

theorem Names.isSome_source {e : Expr} {path : List String} (h : Names e path) :
    e.source.isSome := by
  induction h with
  | ident i name =>
    unfold Expr.source NodeInfo.textOr
    split <;> rfl
  | @member i object path name h ih =>
    unfold Expr.source NodeInfo.textOr
    obtain ⟨source, hsource⟩ := Option.isSome_iff_exists.1 ih
    rw [hsource]
    split <;> rfl

theorem Names.last {e : Expr} {path : List String} {b : String} (h : Names e (path ++ [b])) :
    (∃ i, e = .ident i b ∧ path = []) ∨ ∃ i object, e = .member i object b ∧ Names object path := by
  generalize hpath : path ++ [b] = q at h
  cases h with
  | ident i name =>
    have hpath : path ++ [b] = [] ++ [name] := hpath
    obtain ⟨rfl, hb⟩ := List.append_inj' hpath rfl
    obtain rfl := List.singleton_inj.1 hb
    exact .inl ⟨i, rfl, rfl⟩
  | member i name h =>
    obtain ⟨rfl, hb⟩ := List.append_inj' hpath rfl
    obtain rfl := List.singleton_inj.1 hb
    exact .inr ⟨i, _, rfl, h⟩

/-! ## Paths of plain names -/

section
variable {e : Env} {k : ScopeId} {name : String}

theorem getIn_unbound (h : IsPlain name) (hnone : e.lookupIn k name = none) :
    e.getIn k name = .error (.unknownIdentifier name) := by
  rw [Environment.getIn, segments_plain h, Environment.resolveIn, hnone]
  rfl

theorem namespacesIn_of_resolveIn {path : List String} (hplain : ∀ name ∈ path, IsPlain name)
    {j : Nested Value} (h : e.resolveIn k path = .ok (.scope j)) :
    ∃ js, e.namespacesIn k path = some js ∧ js.getLastD k = j.scope := by
  fun_induction e.resolveIn k path with
  | case1 => cases h
  | case2 k name b hb =>
    obtain rfl := Except.ok.inj h
    refine ⟨[j.scope], ?_, rfl⟩
    rw [Environment.namespacesIn_cons ((getIn_plain (hplain name List.mem_cons_self)).2 hb)]
    rfl
  | case3 => cases h
  | case4 k name rest hrest i hi ih =>
    obtain ⟨js, hjs, hlast⟩ := ih (fun n hn => hplain n (List.mem_cons_of_mem _ hn)) h
    refine ⟨i.scope :: js, ?_, by rw [List.getLastD_cons, hlast]⟩
    rw [Environment.namespacesIn_cons ((getIn_plain (hplain name List.mem_cons_self)).2 hi), hjs]
    rfl
  | case5 => cases h
  | case6 => cases h

theorem namespacesIn_concat {path : List String} {js : List ScopeId}
    (h : e.namespacesIn k (path ++ [name]) = some js) :
    ∃ is j, e.namespacesIn k path = some is ∧ e.getIn (is.getLastD k) name = .ok (.scope j) ∧
      js.getLastD k = j.scope := by
  induction path generalizing k js with
  | nil =>
    obtain ⟨j, rest, hj, hrest, rfl⟩ := Environment.namespacesIn_cons_some h
    obtain rfl := Option.some.inj hrest
    exact ⟨[], j, rfl, hj, rfl⟩
  | cons first path ih =>
    obtain ⟨i, rest, hi, hrest, rfl⟩ := Environment.namespacesIn_cons_some h
    obtain ⟨is, j, his, hj, hlast⟩ := ih hrest
    refine ⟨i.scope :: is, j, ?_, by rw [List.getLastD_cons, hj], by rw [List.getLastD_cons, hlast]⟩
    rw [Environment.namespacesIn_cons hi, his]
    rfl

end

/-! ## Looking up references -/

section
variable {p : Program} {s t : State} {e : Expr} {path : List String} {js : List ScopeId}
  {b : String}

theorem run_scopeOf? (h : Names e path) (hinner : s.env.inner = [])
    (hplain : ∀ name ∈ path, IsPlain name)
    (hjs : s.env.namespacesIn Environment.global path = some js) :
    (Lower.scopeOf? e).run s = (.ok (some (js.getLastD Environment.global)), s) := by
  induction h generalizing js with
  | ident i name =>
    obtain ⟨j, rest, hj, hrest, rfl⟩ := Environment.namespacesIn_cons_some hjs
    obtain rfl := Option.some.inj hrest
    rw [Lower.scopeOf?, run_get_bind, Viewpoint.active_get, Environment.get_of_inner_nil hinner, hj]
    rfl
  | @member i object path name h ih =>
    obtain ⟨is, j, his, hj, hlast⟩ := namespacesIn_concat hjs
    have hname := (getIn_plain (hplain name (by simp))).1 hj
    rw [Lower.scopeOf?, run_bind, ih (fun n hn => hplain n (List.mem_append_left _ hn)) his, hlast]
    dsimp only
    rw [run_get_bind, hname]
    rfl

theorem run_lvalue_unbound {em : Emitter} (h : Names e (path ++ [b])) (hinner : s.env.inner = [])
    (hplain : ∀ name ∈ path ++ [b], IsPlain name)
    (hjs : s.env.namespacesIn Environment.global path = some js)
    (hb : s.env.lookupIn (js.getLastD Environment.global) b = none) :
    (Lower.lvalue p em e).run s = (.error ((Fault.cause (.unknownIdentifier b)).orAt e.info.span),
      s) := by
  have hget := getIn_unbound (hplain b (by simp)) hb
  rcases h.last with ⟨i, rfl, rfl⟩ | ⟨i, object, rfl, hobject⟩
  · obtain rfl := Option.some.inj hjs
    rw [List.getLastD_nil] at hget
    have hvalue : s.env.getValue b = .error (.unknownIdentifier b) := by
      rw [Environment.getValue, Environment.get_of_inner_nil hinner, hget]
      rfl
    rw [Lower.lvalue, Lower.lookupValue, Lower.orAt, run_tryCatch, run_get_bind,
      Viewpoint.active_getValue, hvalue]
    rfl
  · rw [Lower.lvalue, run_bind,
      run_scopeOf? hobject hinner (fun n hn => hplain n (List.mem_append_left _ hn)) hjs]
    dsimp only
    rw [Lower.scopeMember, Lower.orAt, run_tryCatch, run_get_bind, hget]
    rfl

theorem run_lvalue_bound {em : Emitter} (h : Names e (path ++ [b])) (hinner : s.env.inner = [])
    (hplain : ∀ name ∈ path ++ [b], IsPlain name)
    (hjs : s.env.namespacesIn Environment.global path = some js) {f : FuncId} {t : Ty}
    (hb : s.env.lookupIn (js.getLastD Environment.global) b = some (.value (.func f t))) :
    (Lower.lvalue p em e).run s = (.ok (.func f t), s) := by
  have hget := (getIn_plain (hplain b (by simp))).2 hb
  rcases h.last with ⟨i, rfl, rfl⟩ | ⟨i, object, rfl, hobject⟩
  · obtain rfl := Option.some.inj hjs
    rw [List.getLastD_nil] at hget
    have hvalue : s.env.getValue b = .ok (some (.func f t)) := by
      rw [Environment.getValue, Environment.get_of_inner_nil hinner, hget]
      rfl
    rw [Lower.lvalue, Lower.lookupValue, Lower.orAt, run_tryCatch, run_get_bind,
      Viewpoint.active_getValue, hvalue]
    rfl
  · obtain ⟨source, hsource⟩ := Option.isSome_iff_exists.1 h.isSome_source
    rw [Lower.lvalue, run_bind,
      run_scopeOf? hobject hinner (fun n hn => hplain n (List.mem_append_left _ hn)) hjs]
    dsimp only
    rw [Lower.scopeMember, hsource, Lower.orAt, run_tryCatch, run_get_bind, hget]
    rfl

end

/-! ## The first call -/

structure State.AtTop (s : State) : Prop where
  inner : s.env.inner = []
  scopes : Environment.global < s.env.scopes.length
  closed : s.env.IsClosed
  entry : Lower.entryFunc < s.module.funcs.length

section
variable {p : Program} {s t : State} {d : Place} {name b : String}

theorem initial_atTop (o : Options) : (State.initial o).AtTop where
  inner := rfl
  scopes := Nat.zero_lt_one
  closed k name j h := by
    unfold Environment.lookupIn Environment.scope at h
    rcases k with _ | k <;> cases h
  entry := Nat.zero_lt_one

theorem State.Grows.atTop (h : s.Grows p true t) (hs : s.AtTop) : t.AtTop where
  inner := h.env.inner.trans hs.inner
  scopes := Nat.lt_of_lt_of_le hs.scopes h.env.scopes
  closed := h.env.closed hs.closed
  entry := by
    have hlength := h.tables.extends.headers.length_le
    simp only [State.tables, List.length_map] at hlength
    exact Nat.lt_of_lt_of_le hs.entry hlength

theorem State.AtTop.getLastD_lt (hs : s.AtTop) {path : List String} (hplain : ∀ n ∈ path, IsPlain n)
    {js : List ScopeId} (hjs : s.env.namespacesIn Environment.global path = some js) :
    js.getLastD Environment.global < s.env.scopes.length := by
  rcases List.eq_nil_or_concat' path with rfl | ⟨outer, inner, rfl⟩
  · obtain rfl := Option.some.inj hjs
    exact hs.scopes
  · obtain ⟨is, j, -, hj, hlast⟩ := namespacesIn_concat hjs
    rw [hlast]
    exact hs.closed _ _ _ ((getIn_plain (hplain inner (by simp))).1 hj)

theorem Gives.namespaceScope_found {path : List String} {k : ScopeId} (hinner : s.env.inner = [])
    (hplain : ∀ n ∈ path, IsPlain n) (h : Gives (Lower.namespaceScope path) s k t) :
    s = t ∧ ∃ js, s.env.namespacesIn Environment.global path = some js ∧
      js.getLastD Environment.global = k := by
  unfold Lower.namespaceScope at h
  split at h
  · obtain ⟨rfl, rfl⟩ := h.pure
    exact ⟨rfl, [], rfl, rfl⟩
  rename_i hne
  obtain ⟨hscope, rfl⟩ := h.get_bind.ofCause
  rw [Environment.getScope, Environment.get_of_inner_nil hinner, Environment.getIn,
    segments_join hne hplain] at hscope
  cases hresolve : s.env.resolveIn Environment.global path with
  | error c =>
    rw [hresolve] at hscope
    cases hscope
  | ok b =>
    rw [hresolve] at hscope
    cases b with
    | scope j =>
      obtain rfl := Except.ok.inj hscope
      exact ⟨rfl, namespacesIn_of_resolveIn hplain hresolve⟩
    | value | empty => cases hscope

theorem Gives.declaringScope_free {k : ScopeId} (hd : d ∈ p.places) (hinner : s.env.inner = [])
    (hplain : ∀ n ∈ d.namespacePath, IsPlain n) (h : Gives (Lower.declaringScope p d none) s k t) :
    s = t ∧ ∃ js, s.env.namespacesIn Environment.global d.namespacePath = some js ∧
      js.getLastD Environment.global = k := by
  unfold Lower.declaringScope at h
  split at h
  · exact h.not_refuseAt.elim
  rename_i parent around hancestors
  dsimp only at h
  split at h
  · rename_i file
    have hparent : d.parent? = some (.file file) := by
      rw [Place.parent?, hancestors]
      rfl
    obtain ⟨rfl, rfl⟩ := h.pure
    exact ⟨rfl, [], by rw [namespacePath_of_file hd hparent]; rfl, rfl⟩
  · exact h.namespaceScope_found hinner hplain
  · obtain ⟨_, _, -, h⟩ := Gives.bind h
    exact h.not_refuseAt.elim
  · obtain ⟨_, _, -, h⟩ := Gives.bind h
    exact h.not_refuseAt.elim
  · exact h.not_refuseAt.elim

theorem Gives.bindFunc {g f : FuncId} {k : ScopeId} (hb : d.node.baseName = some b) (h : Gives (do
    let base ← Lower.orCrash d.node.baseName
    Action.bindName k base (.value (← Lower.funcValue g))
    return g) s f t) :
    s.env.lookupIn k b = none ∧
      ∃ ty, k < s.env.scopes.length → t.env.lookupIn k b = some (.value (.func f ty)) := by
  obtain ⟨base, u, hread, h⟩ := Gives.bind h
  obtain ⟨hbase, rfl⟩ := hread.orCrash
  obtain rfl := Option.some.inj (hb.symm.trans hbase)
  obtain ⟨w, u, hw, h⟩ := h.bind
  obtain ⟨fn, u, hfn, hw⟩ := Gives.bind hw
  obtain ⟨-, rfl⟩ := hfn.func
  obtain ⟨rfl, rfl⟩ := hw.pure
  obtain ⟨_, u, hbind, h⟩ := h.bind
  obtain ⟨hfree, rfl⟩ := hbind.bindName
  obtain ⟨rfl, rfl⟩ := h.pure
  exact ⟨hfree, _, fun hk => (lookupIn_bind hk hfree k b).trans (if_pos ⟨rfl, rfl⟩)⟩

theorem Gives.emitTo_new {depth : Nat} {owner? : Option TypeId} {args : List (Option TypeId)}
    {f : FuncId} (hrequest : NamedRequest p name ⟨d, owner?⟩) (hnew : s.funcs.lookup name = none)
    (hb : d.node.baseName = some b) (h : Gives (Lower.emitTo p depth d owner? args) s f t) :
    ∃ k u, Gives (Lower.declaringScope p d owner?) s k u ∧ u.env.lookupIn k b = none ∧
      ∃ ty, k < u.env.scopes.length → t.env.lookupIn k b = some (.value (.func f ty)) := by
  cases depth with
  | zero => exact h.not_throw.elim
  | succ depth =>
    unfold Lower.emitTo at h
    split at h
    · exact h.not_refuseAt.elim
    rename_i function hfunction
    obtain ⟨_, u, hname, h⟩ := h.bind
    obtain ⟨hmangled, rfl⟩ := hname.ofExcept
    obtain rfl := Except.ok.inj (hrequest.mangled.symm.trans hmangled)
    have h := h.get_bind
    rw [hnew] at h
    obtain ⟨k, u, hk, h⟩ := h.bind
    -- That the name is free after the emission is what tells that it was free before: nothing is
    -- ever unbound.
    have bound {g : FuncId} {v : State} (hgrows : u.Grows p true v) (h : Gives (do
        let base ← Lower.orCrash d.node.baseName
        Action.bindName k base (.value (← Lower.funcValue g))
        return g) v f t) : u.env.lookupIn k b = none ∧
          ∃ ty, k < u.env.scopes.length → t.env.lookupIn k b = some (.value (.func f ty)) := by
      obtain ⟨hfree, ty, hbound⟩ := h.bindFunc hb
      exact ⟨hgrows.env.unbound hfree, ty,
        fun hlt => hbound (Nat.lt_of_lt_of_le hlt hgrows.env.scopes)⟩
    refine ⟨k, u, hk, ?_⟩
    dsimp only at h
    split at h
    · obtain ⟨g, v, hg, h⟩ := h.bind
      exact bound ((builtin_steady (R := .never)).gives hg) h
    · obtain ⟨g, v, hg, h⟩ := h.bind
      exact bound ((emitNew_steady (R := .never) (emitTo_steady depth) (hk.free_declaringScope hnew)
        hrequest fun _ _ _ _ _ => False.elim).gives hg) h

theorem Gives.topExpression {em : Emitter} {i : NodeInfo} {e : Expr} {o : Outcome}
    (h : Gives (Lower.statement p em Environment.global (.expression i e)) s o t) :
    ∃ u v, u.env = s.env ∧ u.tables = s.tables ∧ Gives (Lower.lvalue p em e) u v t := by
  rw [Lower.statement] at h
  obtain ⟨_, u, hmove, h⟩ := Gives.bind h
  obtain ⟨fn, s', hfn, hmove⟩ := Gives.bind hmove
  obtain ⟨-, rfl⟩ := hfn.func
  obtain ⟨_, u', hv, h⟩ := h.bind
  obtain ⟨v, hv⟩ := hv.discard
  obtain ⟨-, rfl⟩ := h.pure
  refine ⟨u, v, ?_, ?_, hv⟩ <;> rw [hmove.modify]
  rfl

theorem Gives.firstCall (hs : s.AtTop) {i j : NodeInfo} {callee : Expr} {args : List Expr}
    {o : Outcome} (hrequest : request? p (.call i callee args) = some ⟨d, none⟩)
    (hname : p.mangledFunction d none = .ok name)
    (hnew : s.funcs.lookup name = none) (hb : d.node.baseName = some b)
    (hplain : ∀ n ∈ d.namespacePath, IsPlain n)
    (h : Gives (Lower.statement p (Lower.emitFunction p) Environment.global
      (.expression j (.call i callee args))) s o t) :
    ∃ js, s.env.namespacesIn Environment.global d.namespacePath = some js ∧
      s.env.lookupIn (js.getLastD Environment.global) b = none ∧
      ∃ f ty, t.env.lookupIn (js.getLastD Environment.global) b = some (.value (.func f ty)) := by
  obtain ⟨s', v, henv, htables, h⟩ := h.topExpression
  rw [Lower.lvalue] at h
  obtain ⟨d', u, hd, h⟩ := h.bind
  obtain ⟨rfl, hcalled⟩ := hd.of_reads (calledFunction_reads i callee args)
  obtain ⟨rfl, howner⟩ := Request.mk.inj (Option.some.inj (hcalled.symm.trans hrequest))
  have hreceiver : Lower.receiver? p callee = none := Option.map_eq_none_iff.1 howner
  rw [hreceiver] at h
  obtain ⟨f, u, hf, h⟩ := h.bind
  obtain ⟨u, hemit, rfl⟩ := hf.keepingCursor
  have hrest : u.env.Extends t.env :=
    ((rvalues_steady (R := .never) emitFunction_steady args).bind fun _ _ =>
      .bind call_steady fun _ _ => noteCall_steady).gives h |>.env
  have hfuncs : s'.funcs = s.funcs := congrArg Tables.funcs htables
  obtain ⟨k, w, hk, hfree, ty, hbound⟩ := hemit.emitTo_new ⟨⟨_, hrequest⟩, hname⟩ (hfuncs ▸ hnew) hb
  obtain ⟨rfl, js, hjs, rfl⟩ :=
    hk.declaringScope_free (Requested.mem_places ⟨_, hrequest⟩) (henv ▸ hs.inner) hplain
  rw [henv] at hjs hfree hbound
  have hlast := hs.getLastD_lt hplain hjs
  exact ⟨js, hjs, hfree, f, ty, hrest.bound _ _ _ (hbound hlast)⟩

theorem State.AtTop.run_expression (hs : s.AtTop) {em : Emitter} {i : NodeInfo} {e : Expr} :
    ∃ u, u.env = s.env ∧ ((Lower.statement p em Environment.global (.expression i e)).run s).1 =
      ((Lower.lvalue p em e).run u).1.map fun _ => Outcome.lowered := by
  obtain ⟨fn, hfn⟩ : ∃ fn, s.module.func? Lower.entryFunc = some fn :=
    ⟨_, List.getElem?_eq_getElem hs.entry⟩
  let u : State := { s with
    frame := ⟨Lower.entryFunc, none, false⟩, cursor := ⟨Lower.entryFunc, fn.blocks.length - 1⟩ }
  have hmove : Lower.moveToEntry.run s = (.ok ⟨⟩, u) := by
    rw [Lower.moveToEntry, run_bind, run_func hfn]
    rfl
  refine ⟨u, rfl, ?_⟩
  rw [Lower.statement, if_pos rfl, run_bind, hmove]
  dsimp only
  rw [run_bind, run_discard]
  rcases (Lower.lvalue p em e).run u with ⟨f | v, t⟩ <;> rfl

end

/-- **A function has a name from its first call on.** At any point of the top level where a function
without an owner has not been called, its name, or the path to it through the namespaces around it,
is unknown. After a call it stands for the function, whatever else happens. So a call and a
reference can be lowered in the one order and not in the other. -/
theorem reference_after_call {p : Program} (o : Options) (before : List Demand) (ss : List Stmt)
    {i j k : NodeInfo} {callee e : Expr} {args : List Expr} {d : Place} {name b : String}
    (hrequest : request? p (.call i callee args) = some ⟨d, none⟩)
    (hname : p.mangledFunction d none = .ok name)
    (hb : d.node.baseName = some b) (hplain : ∀ n ∈ d.namespacePath ++ [b], IsPlain n)
    (he : Names e (d.namespacePath ++ [b])) :
    let s := ((Lower.statements p (Lower.emitFunction p) Environment.global ss).run
      (afterDemands p (State.initial o) before)).2
    let call := Lower.statement p (Lower.emitFunction p) Environment.global
      (.expression j (.call i callee args))
    let reference := Lower.statement p (Lower.emitFunction p) Environment.global (.expression k e)
    s.funcs.lookup name = none → ∀ c t, call.run s = (.ok c, t) →
      (reference.run s).1 = .error ((Fault.cause (.unknownIdentifier b)).orAt e.info.span) ∧
      ∀ after : List Demand, (reference.run (afterDemands p t after)).1 = .ok .lowered := by
  intro s call reference hnew c t hcall
  have hs : s.AtTop :=
    ((grows_afterDemands before).trans
      (statements_steady (R := .never) emitFunction_steady ss).grows).atTop (initial_atTop o)
  obtain ⟨js, hjs, hfree, f, ty, hbound⟩ :=
    Gives.firstCall hs hrequest hname hnew hb (fun n hn => hplain n (List.mem_append_left _ hn))
      hcall
  refine ⟨?_, fun after => ?_⟩
  · obtain ⟨u, henv, hrun⟩ := hs.run_expression (p := p) (e := e)
    rw [← henv] at hjs hfree
    rw [hrun, run_lvalue_unbound he (henv ▸ hs.inner) hplain hjs hfree]
    rfl
  · have hcalled :
        s.Grows p true t := (statement_steady (R := .never) emitFunction_steady _).gives hcall
    have hafter := grows_afterDemands (p := p) (s := t) after
    have htop := (hcalled.trans hafter).atTop hs
    -- The namespaces were found before the call, the name was bound by it; both last.
    have hjs := Environment.namespacesIn_mono (hcalled.trans hafter).env.bound hjs
    have hbound := hafter.env.bound _ _ _ hbound
    obtain ⟨u, henv, hrun⟩ := htop.run_expression (p := p) (e := e)
    rw [← henv] at hjs hbound
    rw [hrun, run_lvalue_bound he (henv ▸ htop.inner) hplain hjs hbound]
    rfl

def geoNamespace : Stmt :=
  .namespaceDecl .blank "Geo" false
    [.function { NodeInfo.blank with declares? := some ⟨"area"⟩ } "area" [] (some (.mk .blank []))]

def geoArea : Expr :=
  .member { NodeInfo.blank with symbol? := some ⟨"area"⟩ } (.ident .blank "Geo") "area"

def geoProgram (callFirst : Bool) : Program :=
  let call : Stmt := .expression .blank (.call .blank geoArea [])
  let reference : Stmt := .expression .blank geoArea
  ⟨[⟨.blank, "sample", geoNamespace :: if callFirst then [call, reference] else [reference, call]⟩],
    intrinsics, [(⟨"area"⟩, ⟨"area", [.func]⟩)]⟩

/-- One order compiles and the other does not; the reference alone makes the difference. -/
theorem reference_after_call_member :
    (∀ callFirst, (compile (geoProgram callFirst) "sample" defaultOptions).1.isOk = callFirst) ∧
    ∃ s c t, (Lower.statement (geoProgram true) (Lower.emitFunction (geoProgram true))
      Environment.global
        (.expression .blank (.call .blank geoArea []))).run s = (.ok c, t) ∧
      ((Lower.statement (geoProgram true) (Lower.emitFunction (geoProgram true)) Environment.global
        (.expression .blank geoArea)).run s).1 =
          .error ((Fault.cause (.unknownIdentifier "area")).orAt NodeInfo.blank.span) ∧
      ((Lower.statement (geoProgram true) (Lower.emitFunction (geoProgram true)) Environment.global
        (.expression .blank geoArea)).run t).1 = .ok .lowered := by
  refine ⟨by decide +kernel, ?_⟩
  let p := geoProgram true
  let s := ((Lower.statements p (Lower.emitFunction p) Environment.global [geoNamespace]).run
    (afterDemands p (State.initial defaultOptions) [])).2
  let r := (Lower.statement p (Lower.emitFunction p) Environment.global
    (.expression .blank (.call .blank geoArea []))).run s
  obtain ⟨c, hc⟩ : ∃ c, r.1 = .ok c := exists_of_isOk (by decide +kernel)
  have hcall : r = (.ok c, r.2) := Prod.ext hc rfl
  let d := (p.declaration? ⟨"area"⟩).get (by decide +kernel)
  have hd : p.declaration? ⟨"area"⟩ = some d := (Option.some_get _).symm
  obtain ⟨name, hname⟩ : ∃ name, p.mangledFunction d none = .ok name :=
    exists_of_isOk (by decide +kernel)
  have hpath : d.namespacePath = ["Geo"] := by decide +kernel
  have hreceiver :
      Lower.receiver? p geoArea = none := Option.isNone_iff_eq_none.1 (by decide +kernel)
  have hrequest : request? p (.call .blank geoArea []) = some ⟨d, none⟩ := by
    rw [request?, hreceiver]
    exact congrArg _ hd
  have hfuncs : s.funcs = [] := by decide +kernel
  have hreference := reference_after_call (e := geoArea) (k := .blank) (j := .blank)
    (b := "area") defaultOptions []
    [geoNamespace] hrequest hname (by decide +kernel) (by rw [hpath]; decide)
      (by rw [hpath]; exact .member _ _ (.ident _ _))
    (congrArg (List.lookup name) hfuncs) c r.2 hcall
  exact ⟨s, c, r.2, hcall, hreference.1, hreference.2 []⟩

end CheckedIR.Lowering

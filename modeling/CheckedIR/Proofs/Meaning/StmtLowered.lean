import CheckedIR.Proofs.Meaning.ExprLowered

/-!
# The code that statements lower to

Lowering statements of a numeric program appends their code to the function at the cursor, puts the
stack slots of their variables in front, and binds the variables in the innermost scope. A return
ends the function, and whatever follows it is dropped. This is about statements in functions and
blocks.
-/

namespace CheckedIR.Meaning

open CheckedIR.Ir CheckedIR.Program CheckedIR.Lowering CheckedIR.Scope

section
variable {p : Program} {s t : State} {f : FuncId} {emitFunction : Emitter} {v : Value}

/-! ## Slots -/

theorem newSlot_code {name : String} {ty : Ty} (h : Here p f s)
    (hg : Gives (Lower.newSlot name ty) s v t) :
    ∃ k, v = .inst f k (.pointer ty) ∧ Wrote p f none s t ⟨[], [(k, ty)], []⟩ := by
  obtain ⟨rfl, fn, b, hf, hb, -⟩ := h.ready
  obtain ⟨hv, rfl⟩ := Prod.mk.inj ((run_newSlot h.sound hf hb).symm.trans hg)
  refine ⟨b.insts.length, (Except.ok.inj hv).symm, ?_, ?_, .of_eq rfl rfl⟩
  · rw [codeOf_setBody _ hf, codeOf_body hf hb]
    simp [Block.code, Piece.allocas, Inst.core]
  · simp [State.variablesOf]

theorem store_code {a : Value} {u : Unit} (h : Here p f s) (hg : Gives (Lower.store v a) s u t) :
    ∃ j, Wrote p f none s t (.ofCode [(j, .store v a)]) := by
  obtain ⟨w, hemit⟩ := hg.store
  obtain ⟨j, -, hw⟩ := emit_code h hemit
  exact ⟨j, hw⟩

theorem nameResult_code {name : String} {u : Unit} (hg : Gives (Lower.nameResult v name) s u t) :
    Wrote p f none s t .empty := by
  unfold Lower.nameResult at hg
  split at hg
  · rename_i g i ty
    have hg := hg.get_bind
    split at hg
    · obtain ⟨-, rfl⟩ := hg.pure
      exact .refl
    · obtain rfl : { s with
          module := s.module.rename g i (countedName name (s.given s.frame.func name))
          locals := s.giving s.frame.func name
          named := (g, i) :: s.named } = t := (Prod.mk.inj hg).2
      exact .nothing (codeOf_sameCode (Module.sameCode_rename _ _ _ _) f) rfl (.of_eq rfl rfl)
  all_goals
    obtain ⟨-, rfl⟩ := hg.pure
    exact .refl

/-! ## Binding -/

theorem Here.current_lt (h : Here p f s) : s.env.current < s.env.scopes.length := by
  unfold Environment.current
  cases hi : s.env.inner with
  | nil => exact h.sound.env.global
  | cons k ks => exact (h.inner k (by simp [hi])).2

structure Bound (κ : ScopeId) (name : String) (v : Value) (s t : State) : Prop where
  inner : t.env.inner = s.env.inner
  lookup : ∀ k n, t.env.lookupIn k n = if k = κ ∧ n = name then some (.value v)
    else s.env.lookupIn k n

section
variable {κ : ScopeId} {name : String} {z : State}

theorem bound_gives {span : Span} {u : Unit} (h : Here p f s) (hκ : s.env.current = κ)
    (hg : Gives (Lower.orAt span (Action.bindName κ name (.value v))) s u t) :
    Bound κ name v s t := by
  subst hκ
  obtain ⟨hnew, rfl⟩ := hg.orAt.bindName
  exact ⟨rfl, fun k n => lookupIn_bind h.current_lt hnew k n⟩

theorem Bound.valueIn (h : Bound κ name v s t) (k : ScopeId) (n : String) :
    valueIn t.env k n = if k = κ ∧ n = name then some v else valueIn s.env k n := by
  unfold Meaning.valueIn
  rw [h.lookup]
  by_cases hand : k = κ ∧ n = name
  · rw [if_pos hand, if_pos hand]
  · rw [if_neg hand, if_neg hand]

theorem Bound.locals {ks : List ScopeId} (h : Bound κ name v s t) (hi : s.env.inner = κ :: ks) :
    localsOf t.env = Function.update (localsOf s.env) name (some v) := by
  funext n
  by_cases hn : n = name
  · subst hn
    simp [localsOf, h.inner, hi, h.valueIn]
  · rw [Function.update_of_ne hn]
    simp [localsOf, h.inner, h.valueIn, hn]

theorem Bound.global (h : Bound Environment.global name v s t) : globalOf t name = some v := by
  unfold globalOf
  rw [h.valueIn, if_pos ⟨rfl, rfl⟩]

theorem Bound.aside (h : Bound κ name v s t) (hf : t.funcs = s.funcs) : Aside p (some κ) s t where
  scopes k _ hk _ n := by
    rw [h.lookup, if_neg fun hand => hk (congrArg some hand.1.symm)]
  globals hκ n w hw := by
    unfold globalOf at hw
    rw [h.valueIn, if_neg fun hand => hκ (congrArg some hand.1.symm)] at hw
    exact .inl hw
  tame htame k n b hb := by
    rw [h.lookup] at hb
    split at hb
    · exact ⟨v, (Option.some.inj hb).symm⟩
    · exact htame k n b hb
  table _ _ hh := .inl (hf ▸ hh)

end

theorem noteVariable_code {κ? : Option ScopeId} {name : String} {u : Unit} (h : Here p f s)
    (hg : Gives (Lower.noteVariable name v) s u t) : Wrote p f κ? s t ⟨[], [], [(name, v)]⟩ := by
  obtain rfl := hg.modify
  have hframe : s.frame.func = f := h.sound.frame_func.trans h.ready.here
  refine ⟨?_, ?_, .of_eq rfl rfl⟩
  · simp [Piece.allocas]
  · simp [State.variablesOf, hframe]

theorem bound_code {κ : ScopeId} {name : String} {span : Span} {u : Unit} (h : Here p f s)
    (hκ : s.env.current = κ) (hv : Usable f s v)
    (hg : Gives (do
      Lower.orAt span (Action.bindName κ name (.value v))
      Lower.noteVariable name v) s u t) :
    Adds p f (some κ) s ⟨[], [], [(name, v)]⟩ t ∧ Bound κ name v s t := by
  obtain ⟨_, s₁, h₁, h₂⟩ := hg.bind
  have hbound := bound_gives h hκ h₁
  obtain ⟨hr₁, -⟩ :=
    h₁.of_works (M := .within f) (.orAt (bindValue_works rfl hv.fit)) h.reachable h.admits
  have hw₁ : Wrote p f (some κ) s s₁ .empty := by
    obtain ⟨-, rfl⟩ := h₁.orAt.bindName
    exact .nothing rfl rfl (hbound.aside rfl)
  have ha₁ : Adds p f (some κ) s .empty s₁ := ⟨hr₁, hw₁⟩
  have here₁ := ha₁.here h
  obtain ⟨hr₂, -⟩ := h₂.of_works (noteVariable_works here₁.ready) here₁.reachable here₁.admits
  have henv : t.env = s₁.env := by
    obtain rfl := h₂.modify
    rfl
  exact ⟨ha₁.trans ⟨hr₂, noteVariable_code here₁ h₂⟩, henv ▸ hbound.inner, henv ▸ hbound.lookup⟩

/-! ## Variables -/

theorem current_of_inner {e e' : Env} (h : e'.inner = e.inner) : e'.current = e.current := by
  unfold Environment.current
  rw [h]

structure Declares (p : Program) (f : FuncId) (κ : ScopeId) (isConst : Bool) (d : Variable)
    (s t : State) (P : Piece) (a : Value) (before : State) : Prop where
  computed : ∃ Q, Adds p f none s Q before
  bound : Bound κ d.name a before t
  changes : Changes p before t
  adds : Adds p f (some κ) s P t
  code : ∀ z, Changes p before z → VariableCode p z f isConst (localsOf s.env) d P a

theorem declareVariable_code (hem : EmitterWorks p emitFunction)
    (hcodes : EmitterCodes p emitFunction) {isConst : Bool}
    {κ : ScopeId} {d : Variable} {u : Unit} (hd : p.Has (.declarator d))
    (he : ∀ e, d.initializer? = some e → IsNumericExpr p e) (h : Here p f s)
    (hκ : s.env.current = κ) (hg : Gives (Lower.declareVariable p emitFunction isConst κ d) s u t) :
    ∃ P a before, Declares p f κ isConst d s t P a before := by
  unfold Lower.declareVariable at hg
  split at hg
  · obtain ⟨_, _, -, hg⟩ := hg.bind
    exact hg.not_refuseAt.elim
  rename_i e hinit
  obtain ⟨v, s₁, h₁, hg⟩ := hg.bind
  have hcomputed := rvalue_code hem hcodes (he e hinit) h h₁
  have here₁ := hcomputed.here h
  obtain ⟨c, ha₁, hq⟩ := hcomputed.code
  split at hg
  · rename_i hconst
    obtain ⟨_, s₂, h₂, hg⟩ := hg.bind
    obtain ⟨hr₂, -⟩ :=
      h₂.of_works (nameResult_works here₁.ready hcomputed.usable (.declared hd rfl)) here₁.reachable
        here₁.admits
    have ha₂ := ha₁.trans ⟨hr₂, nameResult_code h₂⟩
    have hinner : s₂.env.inner = s.env.inner := ha₂.reach.inner
    obtain ⟨ha₃, hbound⟩ := bound_code (ha₂.here h) ((current_of_inner hinner).trans hκ)
      (hcomputed.usable.mono hr₂.changes) hg
    refine ⟨_, v, s₂, ⟨_, ha₂⟩, hbound, ha₃.changes, ha₂.weaken.trans ha₃, fun z hz => ?_⟩
    refine ⟨e, c, v, hinit, hq z (hr₂.changes.trans hz), ?_⟩
    rw [if_pos hconst]
    exact ⟨rfl, by ext1 <;> simp [Piece.ofCode, Piece.empty]⟩
  · rename_i hconst
    obtain ⟨slot, s₂, h₂, hg⟩ := hg.bind
    obtain ⟨hr₂, hslot, htype⟩ :=
      h₂.of_works (newSlot_works here₁.ready (.declared hd rfl) hcomputed.usable.fit.plain)
        here₁.reachable here₁.admits
    obtain ⟨k, rfl, hw₂⟩ := newSlot_code here₁ h₂
    have ha₂ := ha₁.trans ⟨hr₂, hw₂⟩
    have here₂ := ha₂.here h
    obtain ⟨_, s₃, h₃, hg⟩ := hg.bind
    have helem : ∀ elem, (Value.inst f k (.pointer v.type)).type = .pointer elem →
        elem.IsField s₂.module.records ∨ elem = v.type :=
        fun elem helem => .inr (Ty.pointer.inj helem).symm
    obtain ⟨hr₃, -⟩ :=
      h₃.of_works (store_works here₂.ready (hcomputed.usable.mono hr₂.changes) hslot helem)
        here₂.reachable here₂.admits
    obtain ⟨j, hw₃⟩ := store_code here₂ h₃
    have ha₃ := ha₂.trans ⟨hr₃, hw₃⟩
    have hinner : s₃.env.inner = s.env.inner := ha₃.reach.inner
    obtain ⟨ha₄, hbound⟩ :=
      bound_code (ha₃.here h) ((current_of_inner hinner).trans hκ) (hslot.mono hr₃.changes) hg
    refine ⟨_, _, s₃, ⟨_, ha₃⟩, hbound, ha₄.changes, ha₃.weaken.trans ha₄, fun z hz => ?_⟩
    refine ⟨e, c, v, hinit, hq z (hr₂.changes.trans (hr₃.changes.trans hz)), ?_⟩
    rw [if_neg hconst]
    exact ⟨k, j, rfl, by ext1 <;> simp [Piece.ofCode]⟩

theorem forM_cons_gives {α : Type} {g : α → Lower Unit} {a : α} {as : List α} {u : Unit}
    (hg : Gives ((a :: as).forM g) s u t) :
    ∃ s₁, Gives (g a) s () s₁ ∧ Gives (as.forM g) s₁ u t := by
  obtain ⟨_, s₁, h₁, h₂⟩ := Gives.bind (show Gives (g a >>= fun _ => as.forM g) s u t from hg)
  exact ⟨s₁, h₁, h₂⟩

theorem declareVariables_code (hem : EmitterWorks p emitFunction)
    (hcodes : EmitterCodes p emitFunction) {isConst : Bool} {κ : ScopeId} {ks : List ScopeId} :
    (ds : List Variable) → ∀ {s : State} {u : Unit},
    (∀ d ∈ ds, p.Has (.declarator d)) →
    (∀ d ∈ ds, ∀ e, d.initializer? = some e → IsNumericExpr p e) → Here p f s →
    s.env.inner = κ :: ks → Gives (ds.forM (Lower.declareVariable p emitFunction isConst κ)) s u t →
    ∃ P, Adds p f (some κ) s P t ∧ ∀ z, Changes p t z →
      VariablesCode p z f isConst (localsOf s.env) ds P (localsOf t.env)
  | [], s, u, hds, he, h, hi, hg => by
    obtain ⟨-, rfl⟩ := Gives.pure (show Gives (pure ()) s u t from hg)
    exact ⟨.empty, .refl h, fun _ _ => ⟨rfl, rfl⟩⟩
  | d :: ds, s, u, hds, he, h, hi, hg => by
    obtain ⟨s₁, h₁, h₂⟩ := forM_cons_gives hg
    obtain ⟨P₁, a, before, hd⟩ :=
      declareVariable_code hem hcodes (hds d List.mem_cons_self) (he d List.mem_cons_self) h
        (by simp [Environment.current, hi]) h₁
    obtain ⟨Q, hbefore⟩ := hd.computed
    have hlocals : localsOf s₁.env = Function.update (localsOf s.env) d.name (some a) := by
      rw [hd.bound.locals (hbefore.reach.inner.trans hi), hbefore.locals h]
    obtain ⟨P₂, ha₂, hq₂⟩ :=
      declareVariables_code hem hcodes ds (fun d' hd' => hds d' (List.mem_cons_of_mem d hd'))
        (fun d' hd' => he d' (List.mem_cons_of_mem d hd')) (hd.adds.here h)
        (hd.adds.reach.inner.trans hi) h₂
    rw [hlocals] at hq₂
    refine ⟨P₁ ++ P₂, hd.adds.trans ha₂, fun z hz => ⟨P₁, a, P₂, hd.code z ?_, hq₂ z hz, rfl⟩⟩
    exact hd.changes.trans (ha₂.changes.trans hz)

/-! ## Blocks -/

def inside (s : State) (name : String) : State :=
  { s with env := ⟨s.env.scopes ++ [.fresh name none], s.env.scopes.length :: s.env.inner⟩ }

theorem inside_changes (s : State) (name : String) : Changes p s (inside s name) := by
  have hscope :
      Change p s { s with env := { s.env with scopes := s.env.scopes ++ [.fresh name none] } } :=
    .scope name none fun o ho => by cases ho
  exact .tail (.single hscope) (.enter (s.env.scopes.length :: s.env.inner))

theorem lookupIn_inside (s : State) (name : String) (k : ScopeId) (n : String) :
    (inside s name).env.lookupIn k n = s.env.lookupIn k n :=
  lookupIn_create s.env (.fresh name none) rfl k n

theorem Here.inside (h : Here p f s) (name : String) : Here p f (inside s name) where
  reachable := h.reachable.trans (inside_changes s name)
  admits := ⟨h.admits.own, h.admits.filled⟩
  ready := ⟨h.ready.here, h.ready.isOpen⟩
  frame := h.frame
  tame k n b hb := h.tame k n b (lookupIn_inside s name k n ▸ hb)
  inner k hk := by
    have hlen : (Meaning.inside s name).env.scopes.length = s.env.scopes.length + 1 :=
      List.length_append
    rw [hlen]
    rcases List.mem_cons.1 hk with rfl | hk
    · exact ⟨Nat.ne_of_gt h.sound.env.global, Nat.lt_succ_self _⟩
    · exact ⟨(h.inner k hk).1, Nat.lt_succ_of_lt (h.inner k hk).2⟩

theorem locals_inside (s : State) (name : String) :
    localsOf (inside s name).env = localsOf s.env := by
  funext n
  have hvalue (k : ScopeId) : valueIn (inside s name).env k n = valueIn s.env k n :=
    valueIn_congr (lookupIn_inside s name k n)
  have hnone : valueIn s.env s.env.scopes.length n = none := by
    simp [valueIn, Environment.lookupIn, Environment.scope, Scope.Contents.lookup,
      Scope.Contents.fresh]
  have hinner : (inside s name).env.inner = s.env.scopes.length :: s.env.inner := rfl
  simp only [localsOf, hvalue, hinner, List.findSome?_cons, hnone]

theorem Aside.leave {name : String} (hs : s.Sound)
    (h : Aside p (some s.env.scopes.length) (inside s name) t) :
    Aside p none s { t with env := { t.env with inner := s.env.inner } } where
  scopes k hk _ hlt n := by
    have hlt' : k < (inside s name).env.scopes.length := Nat.lt_of_lt_of_le hlt (by simp [inside])
    refine (h.scopes k hk (fun he => ?_) hlt' n).trans (lookupIn_inside s name k n)
    exact Nat.ne_of_gt hlt (Option.some.inj he)
  globals _ n v hv := by
    have hne : some s.env.scopes.length ≠ some Environment.global := fun he =>
      Nat.ne_of_gt hs.env.global (Option.some.inj he)
    refine (h.globals hne n v hv).imp_left fun hold => ?_
    exact (valueIn_congr (lookupIn_inside s name Environment.global n)).symm.trans hold
  tame htame := h.tame fun k n b hb => htame k n b (lookupIn_inside s name k n ▸ hb)
  table n g hg := (h.table n g hg).imp_right fun hem z hz => hem z (.head (.enter s.env.inner) hz)

theorem Wrote.leave {κ? : Option ScopeId} {name : String} {P : Piece} (hs : s.Sound)
    (h : Wrote p f (some s.env.scopes.length) (inside s name) t P) :
    Wrote p f κ? s { t with env := { t.env with inner := s.env.inner } } P where
  code := h.code
  declared := h.declared
  aside := (Aside.leave hs h.aside).weaken

/-! ## Ends -/

def endOf (m : Module) (f : FuncId) : Option Terminator :=
  ((m.func? f).bind fun fn => fn.blocks.head?).bind Block.term?

theorem endOf_body {m : Module} {fn : Func} {b : Ir.Block} (hf : m.func? f = some fn)
    (hb : fn.IsBody b) : endOf m f = b.term? := by
  simp [endOf, hf, show fn.blocks = [b] from hb]

theorem Here.endOf (h : Here p f s) : endOf s.module f = none := by
  obtain ⟨fn, b, hf, hb, hopen⟩ := h.ready.isOpen
  rw [endOf_body hf hb, hopen]

theorem isOpen_of_endOf (hs : s.Sound) (hf : s.cursor.func = f) (h : endOf s.module f = none) :
    s.module.IsOpen f := by
  obtain ⟨fn, b, hfn, hb⟩ := hs.place.body
  rw [hs.frame_func, hf] at hfn
  exact ⟨fn, b, hfn, hb, endOf_body hfn hb ▸ h⟩

theorem isTerminated_gives {b : Bool} (hs : s.Sound) (hf : s.cursor.func = f)
    (hg : Gives Lower.isTerminated s b t) : s = t ∧ b = (endOf s.module f).isSome := by
  obtain ⟨rfl, hopen, hended⟩ := hg.of_reads (isTerminated_reads hs)
  rw [hf] at hopen hended
  refine ⟨rfl, ?_⟩
  cases b with
  | false =>
    obtain ⟨fn, body, hfn, hbody, hnone⟩ := hopen rfl
    rw [endOf_body hfn hbody, hnone]
    rfl
  | true =>
    obtain ⟨fn, hfn, hterm⟩ := hended rfl
    obtain ⟨fn', body, hfn', hbody⟩ := hs.place.body
    rw [hs.frame_func, hf] at hfn'
    obtain rfl := Option.some.inj (hfn.symm.trans hfn')
    rw [endOf_body hfn hbody]
    simpa [Func.isTerminated, show fn.blocks = [body] from hbody] using hterm.symm

theorem terminate_code {e : Terminator} {u : Unit} (h : Here p f s)
    (hg : Gives (Lower.terminate e) s u t) :
    Wrote p f none s t .empty ∧ endOf t.module f = some e := by
  obtain ⟨rfl, fn, b, hf, hb, -⟩ := h.ready
  obtain rfl := hg.terminate h.sound hf hb
  refine ⟨.nothing ?_ rfl (.of_eq rfl rfl), endOf_body (Module.func?_setBody hf) rfl⟩
  rw [codeOf_setBody _ hf, codeOf_body hf hb]
  rfl

/-! ## Statements -/

/-- A piece of code was added to function `f`, which may have ended; `Q` tells how the piece looks
from the end. -/
structure Lowers (p : Program) (f : FuncId) (κ? : Option ScopeId) (s : State)
    (Q : State → Piece → Option Terminator → Prop) (t : State) : Prop where
  reach : Reach p (.along f) s t
  code : ∃ P, Wrote p f κ? s t P ∧ ∀ z, Changes p t z → Q z P (endOf t.module f)

theorem gives_atTop {α : Type} {a : α} {κ : ScopeId} {rest : Lower α} (hs : s.Sound)
    (htop : κ ≠ Environment.global ∨ AtEntry s)
    (hg : Gives (if κ = Environment.global then Lower.moveToEntry >>= fun _ => rest else rest)
      s a t) : Gives rest s a t := by
  split at hg
  · rename_i hglobal
    obtain ⟨_, s₁, h₁, h₂⟩ := hg.bind
    obtain ⟨rfl, -⟩ := h₁.of_reads (moveToEntry_reads hs (htop.resolve_left (· hglobal)))
    exact h₂
  · exact hg

theorem isNumericTop_of_stmt : {st : Stmt} → IsNumericStmt p st → IsNumericTop p st
  | .variableDecl .., h | .expression .., h | .block _, h | .ret .., h => h
  | .function .., h | .endOfFile _, h | .classDecl .., h | .interfaceDecl .., h
  | .namespaceDecl .., h
  | .ifElse .., h | .whileLoop .., h | .unknown .., h => h.elim

theorem isNumericTop_of_mem : {ss : List Stmt} → AreNumericStmts p ss → ∀ st ∈ ss, IsNumericTop p st
  | st :: ss, h, st', hst => by
    rcases List.mem_cons.1 hst with rfl | hst
    · exact isNumericTop_of_stmt h.1
    · exact isNumericTop_of_mem h.2 st' hst

theorem return_code (hem : EmitterWorks p emitFunction) (hcodes : EmitterCodes p emitFunction)
    {i : NodeInfo}
    {e : Option Expr} {u : Unit} (he : ∀ x, e = some x → IsNumericExpr p x) (h : Here p f s)
    (hg : Gives (Lower.returnFrom p emitFunction i e) s u t) :
    Lowers p f none s (fun z P end? => StmtCode p z f (localsOf s.env) (.ret i e) P
      (localsOf t.env) end?) t := by
  obtain ⟨hreach, -⟩ := hg.of_works (returnFrom_works hem h.ready) h.reachable h.admits_along
  refine ⟨hreach, ?_⟩
  have hframe : s.frame.func = f := h.sound.frame_func.trans h.ready.here
  have hg := hg.get_bind
  dsimp only at hg
  split at hg
  · obtain ⟨_, _, -, hg⟩ := hg.bind
    obtain ⟨_, _, hg, -⟩ := hg.bind
    exact hg.not_refuseAt.elim
  rename_i hne
  rw [hframe] at hne
  cases e with
  | none =>
    rw [h.frame] at hg
    obtain ⟨hw, hend⟩ := terminate_code h hg
    exact ⟨.empty, hw, fun _ _ => ⟨rfl, hend⟩⟩
  | some x =>
    obtain ⟨v, s₁, h₁, hg⟩ := hg.bind
    have hcomputed := rvalue_code hem hcodes (he x rfl) h h₁
    have here₁ := hcomputed.here h
    obtain ⟨c, ha, hq⟩ := hcomputed.code
    have hoperands : ∀ w ∈ (Terminator.ret (some v)).operands, Usable f s₁ w := fun w hw => by
      rw [List.mem_singleton.1 hw]
      exact hcomputed.usable
    have hlast :=
      (hg.of_works (M := .along f) (terminate_works here₁.ready rfl rfl rfl rfl hne hoperands)
        here₁.reachable here₁.admits_along).1.changes
    obtain ⟨hw, hend⟩ := terminate_code here₁ hg
    refine ⟨_, ha.wrote.trans ha.changes hlast hw,
      fun z hz => ⟨c, v, hq z (hlast.trans hz), ?_, hend⟩⟩
    ext1 <;> simp [Piece.ofCode, Piece.empty]

theorem statements_ended {κ : ScopeId} {κ? : Option ScopeId} {ss : List Stmt} {u : Unit}
    (hs : s.Sound) (hf : s.cursor.func = f)
    (hne : f ≠ Lower.entryFunc) (hended : (endOf s.module f).isSome = true)
    (hg : Gives (Lower.statements p emitFunction κ ss) s u t) :
    Changes p s t ∧ Wrote p f κ? s t .empty ∧ t.module = s.module := by
  cases ss with
  | nil =>
    obtain ⟨-, rfl⟩ := Gives.pure (show Gives (pure ()) s u t from hg)
    exact ⟨.refl, .refl, rfl⟩
  | cons st ss =>
    rw [Lower.statements] at hg
    obtain ⟨b, s₁, hb, hg⟩ := hg.bind
    obtain ⟨rfl, rfl⟩ := isTerminated_gives hs hf hb
    have hframe : s.frame.func = f := hs.frame_func.trans hf
    have hg := hg.get_bind
    rw [hframe, hended, if_pos (by simpa using hne)] at hg
    obtain ⟨_, s₂, h₂, hg⟩ := hg.bind
    obtain ⟨-, rfl⟩ := hg.pure
    obtain rfl := h₂.modify
    exact ⟨.single (.log _), .nothing rfl rfl (.of_eq rfl rfl), rfl⟩

def bindsIn? (κ : ScopeId) : Stmt → Option ScopeId
  | .variableDecl .. => some κ
  | _ => none

theorem Wrote.of_bindsIn {κ : ScopeId} {st : Stmt} {P : Piece}
    (h : Wrote p f (bindsIn? κ st) s t P) : Wrote p f (some κ) s t P := by
  cases st with
  | variableDecl => exact h
  | _ => exact h.weaken

theorem inner_of_current {e : Env} {κ : ScopeId} (h : e.current = κ) (hκ : κ ≠ Environment.global) :
    ∃ ks, e.inner = κ :: ks := by
  unfold Environment.current at h
  cases hi : e.inner with
  | nil =>
    rw [hi] at h
    exact absurd h.symm hκ
  | cons k ks =>
    rw [hi] at h
    exact ⟨ks, congrArg (· :: ks) h⟩

mutual

theorem statement_code (hem : EmitterWorks p emitFunction) (hcodes : EmitterCodes p emitFunction) :
    (st : Stmt) →
    ∀ {s t : State} {κ : ScopeId} {o : Outcome}, p.Has (.stmt st) → IsNumericTop p st → Here p f s →
    s.env.current = κ → (κ ≠ Environment.global ∨ AtEntry s ∧ bindsIn? κ st = none) →
    Gives (Lower.statement p emitFunction κ st) s o t →
    o ≠ .unsupported ∧
    Lowers p f (bindsIn? κ st) s (fun z P end? => StmtCode p z f (localsOf s.env) st P
      (localsOf t.env) end?) t
  | .endOfFile _, s, t, κ, o, hst, hn, h, hκ, htop, hg => by
    obtain ⟨rfl, rfl⟩ := Gives.pure (show Gives (pure .skipped) s o t from hg)
    exact ⟨nofun, .refl h.admits_along, .empty, .refl, fun _ _ => ⟨rfl, rfl, h.endOf⟩⟩
  | .function .., s, t, κ, o, hst, hn, h, hκ, htop, hg => by
    obtain ⟨rfl, rfl⟩ := Gives.pure (show Gives (pure .skipped) s o t from hg)
    exact ⟨nofun, .refl h.admits_along, .empty, .refl, fun _ _ => ⟨rfl, rfl, h.endOf⟩⟩
  | .variableDecl i isConst ds, s, t, κ, o, hst, hn, h, hκ, htop, hg => by
    have hne : κ ≠ Environment.global := htop.resolve_right fun he => by cases he.2
    obtain ⟨ks, hi⟩ := inner_of_current hκ hne
    rw [Lower.statement] at hg
    obtain ⟨_, s₁, h₁, hg⟩ := (gives_atTop h.sound (.inl hne) hg).bind
    obtain ⟨rfl, rfl⟩ := hg.pure
    obtain ⟨P, ha, hq⟩ :=
      declareVariables_code hem hcodes ds (fun d hd => hst.child (List.mem_map_of_mem hd))
        hn h hi h₁
    refine ⟨nofun, ha.reach.weaken .within_along h.admits_along, P, ha.wrote,
      fun z hz => ⟨hq z hz, ?_⟩⟩
    exact (ha.here h).endOf
  | .expression i e, s, t, κ, o, hst, hn, h, hκ, htop, hg => by
    rw [Lower.statement] at hg
    obtain ⟨_, s₁, h₁, hg⟩ := (gives_atTop h.sound (htop.imp_right And.left) hg).bind
    obtain ⟨rfl, rfl⟩ := hg.pure
    obtain ⟨v, h₁⟩ := h₁.discard
    have hcomputed := lvalue_code hem hcodes e hn h h₁
    obtain ⟨c, ha, hq⟩ := hcomputed.code
    refine ⟨nofun, ha.reach.weaken .within_along h.admits_along, .ofCode c, ha.wrote,
      fun z hz => ?_⟩
    exact ⟨c, v, hq z hz, rfl, ha.locals h, (ha.here h).endOf⟩
  | .block (.mk i ss), s, t, κ, o, hst, hn, h, hκ, htop, hg => by
    have htop := htop.imp_right And.left
    obtain ⟨hreach, -⟩ :=
      hg.of_works (statement_works hem _ hst h.ready htop) h.reachable h.admits_along
    rw [Lower.statement] at hg
    obtain ⟨_, s₁, h₁, hg⟩ := (gives_atTop h.sound htop hg).bind
    obtain ⟨rfl, rfl⟩ := hg.pure
    obtain ⟨u, hbody, rfl⟩ := h₁.withScope
    have hinner := statements_code hem hcodes ss (fun st h => hst.child (List.mem_map_of_mem h))
      (isNumericTop_of_mem hn) (h.inside "") rfl (Nat.ne_of_gt h.sound.env.global) hbody
    obtain ⟨P, hw, hq⟩ := hinner.code
    rw [locals_inside] at hq
    have hleft : Wrote p f none s { u with env := { u.env with inner := s.env.inner } } P :=
      hw.leave h.sound
    refine ⟨nofun, hreach, P, hleft,
      fun z hz => ⟨hq z (.head (.enter s.env.inner) hz), h.locals rfl hleft.aside⟩⟩
  | .ret i e, s, t, κ, o, hst, hn, h, hκ, htop, hg => by
    rw [Lower.statement] at hg
    obtain ⟨_, s₁, h₁, hg⟩ := (gives_atTop h.sound (htop.imp_right And.left) hg).bind
    obtain ⟨rfl, rfl⟩ := hg.pure
    exact ⟨nofun, return_code hem hcodes hn h h₁⟩
  | .classDecl .., _, _, _, _, _, hn, _, _, _, _ | .interfaceDecl .., _, _, _, _, _, hn, _, _, _, _
  | .namespaceDecl .., _, _, _, _, _, hn, _, _, _, _ | .ifElse .., _, _, _, _, _, hn, _, _, _, _
  | .whileLoop .., _, _, _, _, _, hn, _, _, _, _
  | .unknown .., _, _, _, _, _, hn, _, _, _, _ => hn.elim

theorem statements_code (hem : EmitterWorks p emitFunction) (hcodes : EmitterCodes p emitFunction) :
    (ss : List Stmt) →
    ∀ {s t : State} {κ : ScopeId} {u : Unit}, (∀ st ∈ ss, p.Has (.stmt st)) →
      (∀ st ∈ ss, IsNumericTop p st) →
    Here p f s → s.env.current = κ → κ ≠ Environment.global →
    Gives (Lower.statements p emitFunction κ ss) s u t →
    Lowers p f (some κ) s (fun z => StmtsCode p z f (localsOf s.env) ss) t
  | [], s, t, κ, u, hss, hn, h, hκ, hne, hg => by
    obtain ⟨-, rfl⟩ := Gives.pure (show Gives (pure ()) s u t from hg)
    exact ⟨.refl h.admits_along, .empty, .refl, fun _ _ => ⟨rfl, h.endOf⟩⟩
  | st :: ss, s, t, κ, u, hss, hn, h, hκ, hne, hg => by
    obtain ⟨hreach, -⟩ :=
      hg.of_works (statements_works hem _ hss h.ready.here (fun _ => h.ready.isOpen) (.inl hne))
        h.reachable h.admits_along
    refine ⟨hreach, ?_⟩
    rw [Lower.statements] at hg
    obtain ⟨b, s₁, hb, hg⟩ := hg.bind
    obtain ⟨rfl, rfl⟩ := isTerminated_gives h.sound h.ready.here hb
    have hg := hg.get_bind
    rw [h.endOf, Option.isSome_none, Bool.false_and, if_neg Bool.false_ne_true] at hg
    obtain ⟨o, s₁, h₁, hg⟩ := hg.bind
    have hhas := hss st List.mem_cons_self
    obtain ⟨ho, hr₁, P₁, hw₁, hq₁⟩ :=
      statement_code hem hcodes st hhas (hn st List.mem_cons_self) h hκ (.inl hne) h₁
    have hw₁ : Wrote p f (some κ) s s₁ P₁ := hw₁.of_bindsIn
    rw [if_neg ho] at hg
    have hsound := (h.reachable.trans hr₁.changes).sound
    have hcursor : s₁.cursor.func = f := (hr₁.place rfl).1 ▸ h.ready.here
    cases hend : endOf s₁.module f with
    | none =>
      have here₁ := h.next hr₁ (isOpen_of_endOf hsound hcursor hend) hw₁.aside
      obtain ⟨hr₂, P₂, hw₂, hq₂⟩ :=
        statements_code hem hcodes ss (fun st' h' => hss st' (List.mem_cons_of_mem st h'))
          (fun st' h' => hn st' (List.mem_cons_of_mem st h')) here₁
          ((current_of_inner hr₁.inner).trans hκ) hne hg
      refine ⟨P₁ ++ P₂, hw₁.trans hr₁.changes hr₂.changes hw₂,
        fun z hz => ⟨P₁, localsOf s₁.env, none, ?_, ?_⟩⟩
      · exact hend ▸ hq₁ z (hr₂.changes.trans hz)
      · exact ⟨P₂, hq₂ z hz, rfl⟩
    | some e =>
      -- the entry function does not end here
      have hentry : f ≠ Lower.entryFunc := by
        intro he
        obtain ⟨fn, b, hfn, hb, hnone⟩ :=
          (h₁.of_works (statement_works hem st hhas h.ready (.inl hne)) h.reachable
            h.admits_along).2 he
        rw [endOf_body hfn hb, hnone] at hend
        cases hend
      obtain ⟨hc₂, hw₂, hmodule⟩ := statements_ended (p := p) hsound hcursor hentry (hend ▸ rfl) hg
      refine ⟨P₁ ++ .empty, hw₁.trans hr₁.changes hc₂ hw₂,
        fun z hz => ⟨P₁, localsOf s₁.env, some e, ?_, ?_⟩⟩
      · exact hend ▸ hq₁ z (hc₂.trans hz)
      · rw [hmodule, hend]
        refine ⟨?_, rfl⟩
        ext1 <;> simp [Piece.empty]

end

end

end CheckedIR.Meaning

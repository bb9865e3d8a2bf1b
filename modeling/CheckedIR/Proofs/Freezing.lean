import CheckedIR.Proofs.Restoration

/-!
# Blocks that have ended

A block that has a terminator keeps it and gets no more instructions, whatever is lowered or
demanded afterwards and however that ends. The statements of a body that follow a return are
dropped, at any depth of blocks: without them the same is lowered, apart from what is logged.
-/

namespace CheckedIR

namespace Program

mutual

/-- Whether a statement leads to a return. Conditional statements are not lowered. -/
def Stmt.returns : Stmt → Bool
  | .ret .. => true
  | .block (.mk _ ss) => returnsAmong ss
  | .namespaceDecl _ _ _ body => returnsAmong body
  | _ => false

def returnsAmong : List Stmt → Bool
  | [] => false
  | st :: rest => st.returns || returnsAmong rest

end

mutual

def Stmt.cut : Stmt → Stmt
  | .block (.mk i ss) => .block (.mk i (reached ss))
  | st => st

def reached : List Stmt → List Stmt
  | [] => []
  | st :: rest => if st.returns then [st.cut] else st :: reached rest

end

def Block.cut : Block → Block
  | .mk i ss => .mk i (reached ss)

end Program

namespace Lowering

open CheckedIR.Ir CheckedIR.Program CheckedIR.Scope CheckedIR.Scope.Action

/-! ## Apart from the log -/

def State.SameButLog (s t : State) : Prop := ∃ lines, t = { s with log := lines }

def AgreeButLog {α : Type} (r r' : Except Fault α × State) : Prop :=
  r.1 = r'.1 ∧ r.2.SameButLog r'.2

/-- Run from `s`, which satisfies `I`, both actions do the same apart from what they log. -/
def Agrees {α : Type} (I : State → Prop) (s : State) (x y : Lower α) : Prop :=
  I s → AgreeButLog (x.run s) (y.run s)

def Careless {α : Type} (x : Lower α) : Prop :=
  ∀ s lines, AgreeButLog (x.run s) (x.run { s with log := lines })

section
variable {α β : Type} {I K : State → Prop} {s t u : State} {x y : Lower α}

theorem State.SameButLog.refl (s : State) : s.SameButLog s := ⟨s.log, rfl⟩

theorem AgreeButLog.refl (r : Except Fault α × State) : AgreeButLog r r := ⟨rfl, .refl _⟩

namespace Careless

theorem pure (a : α) : Careless (pure a : Lower α) := fun _ lines => ⟨rfl, lines, rfl⟩

theorem throw (f : Fault) : Careless (throw f : Lower α) := fun _ lines => ⟨rfl, lines, rfl⟩

theorem crash : Careless (Lower.crash : Lower α) := .throw _

theorem orCrash (a? : Option α) : Careless (Lower.orCrash a?) := by
  cases a? with
  | none => exact .crash
  | some a => exact .pure a

theorem bind {k : α → Lower β} (hx : Careless x) (hk : ∀ a, Careless (k a)) :
    Careless (x >>= k) := by
  intro s lines
  have h := hx s lines
  rw [run_bind, run_bind]
  revert h
  rcases x.run s with ⟨r, t⟩
  rcases x.run { s with log := lines } with ⟨r', t'⟩
  rintro ⟨hr, lines', ht⟩
  dsimp only at hr ht
  subst hr ht
  cases r with
  | error f => exact ⟨rfl, lines', rfl⟩
  | ok a => exact hk a t lines'

theorem get_bind {k : State → Lower β} (heq : ∀ s lines, k { s with log := lines } = k s)
    (hk : ∀ s, Careless (k s)) : Careless (get >>= k) := by
  intro s lines
  rw [run_get_bind, run_get_bind, heq s lines]
  exact hk s s lines

theorem modify {g : State → State}
    (h : ∀ s lines, g { s with log := lines } = { g s with log := lines }) :
    Careless (modify g : Lower PUnit) :=
  fun s lines => ⟨rfl, lines, h s lines⟩

end Careless

namespace Agrees

theorem refl : Agrees I s x x := fun _ => .refl _

theorem bind_same {k k' : α → Lower β} (hx : Leads I K s x)
    (hk : ∀ a t, Gives x s a t → Agrees K t (k a) (k' a)) : Agrees I s (x >>= k) (x >>= k') := by
  intro hs
  have ht := hx hs
  rw [run_bind, run_bind]
  unfold Gives at hk
  revert ht hk
  rcases x.run s with ⟨f | a, t⟩
  · exact fun _ _ => .refl _
  · exact fun hk ht => hk a t rfl ht

theorem bind_careless {k : α → Lower β} (h : Agrees I s x y) (hk : ∀ a, Careless (k a)) :
    Agrees I s (x >>= k) (y >>= k) := by
  intro hs
  have hxy := h hs
  rw [run_bind, run_bind]
  revert hxy
  rcases x.run s with ⟨r, t⟩
  rcases y.run s with ⟨r', t'⟩
  rintro ⟨hr, lines, ht⟩
  dsimp only at hr ht
  subst hr ht
  cases r with
  | error f => exact ⟨rfl, lines, rfl⟩
  | ok a => exact hk a t lines

theorem get_bind {k k' : State → Lower β} (h : Agrees I s (k s) (k' s)) :
    Agrees I s (get >>= k) (get >>= k') := h

theorem withInner [Stable I] {inner : List ScopeId} (h : ∀ t, Agrees I t x y) :
    Agrees I s (Action.withInner inner x) (Action.withInner inner y) := by
  intro hs
  have hI : I { s with env := { s.env with inner } } :=
    Stable.env s _ (fun h => ⟨h.pos, h.hidden⟩) hs
  obtain ⟨hr, lines, ht⟩ := h _ hI
  exact ⟨hr, lines,
    congrArg (fun u : State => { u with env := { u.env with inner := s.env.inner } }) ht⟩

theorem enter [Stable I] {k : ScopeId} (h : ∀ t, Agrees I t x y) :
    Agrees I s (Action.enter k x) (Action.enter k y) :=
  .get_bind (.withInner h)

theorem insideFrom [Stable I] (h : ∀ t, Agrees I t x y) (path : List String) :
    ∀ {s : State} {k : ScopeId},
      Agrees I s (Lower.insideFrom k x path) (Lower.insideFrom k y path) := by
  induction path with
  | nil => exact .enter h
  | cons name path ih =>
    refine .enter fun t => .get_bind (.bind_same .ofCause fun b _ _ => ?_)
    cases b with
    | scope next => exact ih
    | value | empty => exact .refl

theorem insideNamespaces [Stable I] (h : ∀ t, Agrees I t x y) {path : List String} :
    Agrees I s (Lower.insideNamespaces path x) (Lower.insideNamespaces path y) := by
  cases path with
  | nil => exact h s
  | cons name path => exact .bind_same namespaceScope_leads fun _ _ _ => insideFrom h _

theorem withScope [Stable I] {name : String} {body body' : ScopeId → Lower α}
    (hides : ∀ t, I t → t.env.HidesGlobal)
    (h : ∀ k t, k ≠ Environment.global → Agrees I t (body k) (body' k)) :
    Agrees I s (Action.withScope name body) (Action.withScope name body') := by
  intro hs
  refine Agrees.bind_same createScope_leads (fun k t hk => ?_) hs
  obtain ⟨rfl, -⟩ := hk.createScope
  exact .enter fun u => h _ u (Nat.ne_of_gt (hides s hs).pos)

end Agrees

theorem Leads.gives {J : State → Prop} {a : α} (h : Leads I J s x) (hs : I s) (hx : Gives x s a t) :
    J t := by
  have ht := h hs
  rwa [show x.run s = (.ok a, t) from hx] at ht

end

/-! ## Returns -/

def HasEnded (f : FuncId) (t : State) : Prop := ∃ fn b, t.module.func? f = some fn ∧ fn.IsBody b ∧
    b.term?.isSome = true

section
variable {m : Module} {f : FuncId} {p : Program} {emitFunction : Emitter} {s t : State}
  {k : ScopeId}

theorem run_isTerminated {fn : Func} {b : Ir.Block} (h : Inside m f s)
    (hf : s.module.func? f = some fn) (hb : fn.IsBody b) :
    Lower.isTerminated.run s = (.ok b.term?.isSome, s) := by
  have hf' : s.module.func? s.cursor.func = some fn := by rw [h.cursor, hf]
  rw [Lower.isTerminated, run_get_bind]
  dsimp only
  rw [run_bind, run_func hf']
  dsimp only
  rw [h.cursor, show fn.blocks = [b] from hb]
  rfl

/-- What follows the end of a body is only logged. -/
theorem run_statements_ended (h : Inside m f s) (hne : f ≠ Lower.entryFunc) (hend : HasEnded f s)
    (ss : List Stmt) :
    ∃ lines, (Lower.statements p emitFunction k ss).run s = (.ok (), { s with log := lines }) := by
  cases ss with
  | nil => exact ⟨s.log, by rw [Lower.statements]; rfl⟩
  | cons st ss =>
    obtain ⟨fn, b, hf, hb, hterm⟩ := hend
    have hframe : s.frame.func ≠ Lower.entryFunc := h.frame ▸ hne
    rw [Lower.statements, run_bind, run_isTerminated h hf hb, hterm]
    dsimp only
    rw [run_get_bind, if_pos (by simpa using hframe)]
    exact ⟨_, rfl⟩

theorem run_statements_cons {fn : Func} {b : Ir.Block} (h : Inside m f s)
    (hf : s.module.func? f = some fn) (hb : fn.IsBody b)
    (hopen : b.term? = none) (st : Stmt) (ss : List Stmt) :
    (Lower.statements p emitFunction k (st :: ss)).run s = (do
      let outcome ← Lower.statement p emitFunction k st
      if outcome = Outcome.unsupported then
        Lower.warn (st.info.span.start.text ++ ": unhandled " ++ st.kind.name ++ ": " ++
          (← Lower.orCrash st.source))
      Lower.statements p emitFunction k ss).run s := by
  rw [Lower.statements, run_bind, run_isTerminated h hf hb, hopen]
  rfl

theorem Working.inScope {env : Env} (h : Working m f s)
    (henv : s.env.HidesGlobal → env.HidesGlobal) : Working m f { s with env } :=
  Stable.env s env henv h

theorem Working.statement (hem : EmitterSpares emitFunction) (hs : Working m f s)
    (hk : k ≠ Environment.global) {st : Stmt}
    {o : Outcome} (h : Gives (Lower.statement p emitFunction k st) s o t) : Inside m f t :=
  (statement_leads isBodyOf_working hem.working st fun he => absurd he hk).gives hs h

theorem Gives.returnFrom_ends (hem : EmitterSpares emitFunction) (hne : f ≠ Lower.entryFunc)
    {i : NodeInfo} {e? : Option Expr}
    {v : Unit} (hs : Working m f s) (h : Gives (Lower.returnFrom p emitFunction i e?) s v t) :
    HasEnded f t := by
  have hframe : s.frame.func ≠ Lower.entryFunc := hs.frame ▸ hne
  have ends {e : Terminator} {u : State} {v : Unit} (hu : Working m f u)
      (h : Gives (Lower.terminate e) u v t) : HasEnded f t := by
    obtain ⟨fn, b, hf, hb, -⟩ := hu.isOpen
    obtain rfl := h.get_bind.modify
    refine ⟨{ fn with blocks := [{ b with term? := some e }] }, { b with term? := some e },
      ?_, rfl, rfl⟩
    rw [hu.cursor]
    dsimp only
    rw [modifyBlock_eq hf hb fun b => { b with term? := some e }]
    exact Module.func?_modifyFunc_self _ hf
  unfold Lower.returnFrom at h
  have h := h.get_bind
  dsimp only at h
  rw [if_neg hframe] at h
  cases e? with
  | none => exact ends hs h
  | some e =>
    obtain ⟨v, u, hv, h⟩ := h.bind
    exact ends ((rvalue_leads hem.working e).gives hs hv) h

mutual

/-- A statement that leads to a return ends the body, unless something in it fails. -/
theorem Gives.statement_ends (hem : EmitterSpares emitFunction) (hne : f ≠ Lower.entryFunc) :
    (st : Stmt) → st.returns = true → ∀ {s t : State} {k : ScopeId} {o : Outcome},
      k ≠ Environment.global → Working m f s →
      Gives (Lower.statement p emitFunction k st) s o t → o = .lowered ∧ HasEnded f t
  | .ret i e, _, s, t, k, o, hk, hs, h => by
    rw [Lower.statement] at h
    dsimp only at h
    rw [if_neg hk] at h
    obtain ⟨v, u, hv, h⟩ := h.bind
    obtain ⟨rfl, rfl⟩ := h.pure
    exact ⟨rfl, hv.returnFrom_ends hem hne hs⟩
  | .block (.mk i ss), hr, s, t, k, o, hk, hs, h => by
    rw [Lower.statement] at h
    dsimp only at h
    rw [if_neg hk] at h
    obtain ⟨v, u, hv, h⟩ := h.bind
    obtain ⟨rfl, rfl⟩ := h.pure
    obtain ⟨w, hw, rfl⟩ := hv.withScope
    rw [Stmt.returns] at hr
    have hinner : s.env.scopes.length ≠ Environment.global := Nat.ne_of_gt hs.hides.pos
    have hnew : Working m f
        { s with env := ⟨s.env.scopes ++ [.fresh "" none], s.env.scopes.length :: s.env.inner⟩ } :=
      hs.inScope fun h => ⟨(h.create "" none).pos, (h.create "" none).hidden⟩
    have hend : HasEnded f w := Gives.statements_end hem hne ss hr hinner hnew.toInside hw
    exact ⟨rfl, hend⟩
  | .namespaceDecl i name isAmbient body, hr, s, t, k, o, hk, hs, h => by
    rw [Lower.statement] at h
    obtain ⟨ns, u, hns, h⟩ := h.bind
    obtain ⟨v, w, hw, h⟩ := h.bind
    obtain ⟨rfl, rfl⟩ := h.pure
    obtain ⟨w', hw', rfl⟩ := hw.enter
    rw [Stmt.returns] at hr
    have hu : Working m f u := namespaceOf_leads.gives hs hns
    have hnew : Working m f { u with env := { u.env with inner := ns :: u.env.inner } } :=
      hu.inScope fun h => ⟨h.pos, h.hidden⟩
    have hend : HasEnded f w' :=
      Gives.statements_end hem hne body hr (hns.namespaceOf_ne hs.hides) hnew.toInside hw'
    exact ⟨rfl, hend⟩
  | .endOfFile _, hr, _, _, _, _, _, _, _ | .classDecl .., hr, _, _, _, _, _, _, _
  | .interfaceDecl .., hr, _, _, _, _, _, _, _ | .function .., hr, _, _, _, _, _, _, _
  | .variableDecl .., hr, _, _, _, _, _, _, _ | .expression .., hr, _, _, _, _, _, _, _
  | .ifElse .., hr, _, _, _, _, _, _, _ | .whileLoop .., hr, _, _, _, _, _, _, _
  | .unknown .., hr, _, _, _, _, _, _, _ => by
    cases hr

theorem Gives.statements_end (hem : EmitterSpares emitFunction) (hne : f ≠ Lower.entryFunc) :
    (ss : List Stmt) → returnsAmong ss = true → ∀ {s t : State} {k : ScopeId} {v : Unit},
      k ≠ Environment.global →
      Inside m f s → Gives (Lower.statements p emitFunction k ss) s v t → HasEnded f t
  | [], hr, _, _, _, _, _, _, _ => by cases hr
  | st :: ss, hr, s, t, k, v, hk, hs, h => by
    have dropped {u t : State} {ss : List Stmt} {v : Unit} (hu : Inside m f u) (hend : HasEnded f u)
        (h : Gives (Lower.statements p emitFunction k ss) u v t) : HasEnded f t := by
      obtain ⟨lines, hrun⟩ := run_statements_ended hu hne hend ss
      obtain ⟨-, rfl⟩ := Prod.mk.inj (hrun.symm.trans h)
      exact hend
    obtain ⟨fn, b, hf, hb, hentry⟩ := hs.body
    cases hterm : b.term? with
    | some e => exact dropped hs ⟨fn, b, hf, hb, by rw [hterm]; rfl⟩ h
    | none =>
      have hwork : Working m f s := ⟨hs, fn, b, hf, hb, hterm⟩
      unfold Gives at h
      rw [run_statements_cons hs hf hb hterm] at h
      obtain ⟨o, u, hst, h⟩ := Gives.bind h
      have hu := hwork.statement hem hk hst
      by_cases hreturns : st.returns = true
      · obtain ⟨rfl, hend⟩ := hst.statement_ends hem hne st hreturns hk hwork
        exact dropped hu hend h
      · have hrest : returnsAmong ss = true := by
          rw [returnsAmong, Bool.or_eq_true] at hr
          exact hr.resolve_left hreturns
        split at h
        · obtain ⟨source, w, hw, h⟩ := Gives.bind h
          obtain ⟨-, rfl⟩ := hw.orCrash
          obtain ⟨_, w, hw, h⟩ := Gives.bind h
          exact Gives.statements_end hem hne ss hrest hk (warn_leads.gives hu hw) h
        · exact Gives.statements_end hem hne ss hrest hk hu h

end

mutual

theorem statement_cut (hem : EmitterSpares emitFunction) (hne : f ≠ Lower.entryFunc) :
    (st : Stmt) → ∀ {s : State} {k : ScopeId},
    k ≠ Environment.global →
      Agrees (Working m f) s (Lower.statement p emitFunction k st)
      (Lower.statement p emitFunction k st.cut)
  | .block (.mk i ss), s, k, hk => by
    rw [Stmt.cut, Lower.statement, Lower.statement]
    dsimp only
    rw [if_neg hk, if_neg hk]
    refine .bind_careless
      (.withScope (fun _ (ht : Working m f _) => ht.hides) fun inner t hne' ht => ?_) fun _ =>
        .pure _
    exact statements_reached hem hne ss hne' ht.toInside
  | .ret .., _, _, _ | .namespaceDecl .., _, _, _ | .endOfFile _, _, _, _ | .classDecl .., _, _, _
  | .interfaceDecl .., _, _, _ | .function .., _, _, _ | .variableDecl .., _, _, _
  | .expression .., _, _, _
  | .ifElse .., _, _, _ | .whileLoop .., _, _, _ | .unknown .., _, _, _ => .refl

theorem statements_reached (hem : EmitterSpares emitFunction) (hne : f ≠ Lower.entryFunc) :
    (ss : List Stmt) →
    ∀ {s : State} {k : ScopeId}, k ≠ Environment.global →
      Agrees (Inside m f) s (Lower.statements p emitFunction k ss) (Lower.statements p emitFunction
        k (reached ss))
  | [], s, k, _ => by
    rw [reached]
    exact .refl
  | st :: ss, s, k, hk => by
    intro hs
    have dropped (hend : HasEnded f s) (ss : List Stmt) :
        ∃ lines, (Lower.statements p emitFunction k ss).run s = (.ok (), { s with log := lines }) :=
      run_statements_ended hs hne hend ss
    obtain ⟨fn, b, hf, hb, hentry⟩ := hs.body
    cases hterm : b.term? with
    | some e =>
      have hend : HasEnded f s := ⟨fn, b, hf, hb, by rw [hterm]; rfl⟩
      obtain ⟨lines, hx⟩ := dropped hend (st :: ss)
      obtain ⟨lines', hy⟩ := dropped hend (reached (st :: ss))
      rw [hx, hy]
      exact ⟨rfl, lines', rfl⟩
    | none =>
      have hwork : Working m f s := ⟨hs, fn, b, hf, hb, hterm⟩
      rw [reached]
      split
      · -- the statement leads to a return, so the others are only logged
        have hcut : AgreeButLog ((Lower.statement p emitFunction k st).run s)
            ((Lower.statement p emitFunction k st.cut).run s) :=
          statement_cut hem hne st hk hwork
        have hends {o : Outcome} {u : State}
            (h : Gives (Lower.statement p emitFunction k st) s o u) :=
          And.intro (h.statement_ends hem hne st (by assumption) hk hwork)
            (hwork.statement hem hk h)
        rw [run_statements_cons hs hf hb hterm, run_statements_cons hs hf hb hterm,
          run_bind, run_bind]
        unfold Gives at hends
        revert hcut hends
        rcases (Lower.statement p emitFunction k st).run s with ⟨r, u⟩
        rcases (Lower.statement p emitFunction k st.cut).run s with ⟨r', u'⟩
        rintro ⟨hr, lines, hu⟩ hends
        dsimp only at hr hu
        subst hr hu
        cases r with
        | error f => exact ⟨rfl, lines, rfl⟩
        | ok o =>
          obtain ⟨⟨rfl, hend⟩, hinside⟩ := hends rfl
          obtain ⟨lines', hrun⟩ : ∃ lines, (Lower.statements p emitFunction k ss).run u =
            (.ok (), { u with log := lines }) :=
            run_statements_ended hinside hne hend ss
          have hnil : (Lower.statements p emitFunction k []).run { u with log := lines } =
              (.ok (), { u with log := lines }) := by
            rw [Lower.statements]
            rfl
          dsimp only
          rw [if_neg (by decide), if_neg (by decide), hrun, hnil]
          exact ⟨rfl, lines, rfl⟩
      · rw [run_statements_cons hs hf hb hterm, run_statements_cons hs hf hb hterm]
        refine Agrees.bind_same (I := Working m f) (K := Inside m f)
          (statement_leads isBodyOf_working hem.working st fun he => absurd he hk)
          (fun o u _ => ?_) hwork
        split
        · exact .bind_same .orCrash fun _ _ _ => .bind_same warn_leads fun _ _ _ =>
            statements_reached hem hne ss hk
        · exact statements_reached hem hne ss hk

end

/-! ## Functions -/

def Emission.cut (e : Emission) : Emission :=
  { e with function := { e.function with body? := e.function.body?.map Program.Block.cut } }

theorem isTerminated_careless : Careless Lower.isTerminated :=
  .get_bind (fun _ _ => rfl) fun _ =>
    .bind (.get_bind (fun _ _ => rfl) fun _ => .orCrash _) fun _ => .pure _

theorem func_careless : Careless (Lower.func f) := .get_bind (fun _ _ => rfl) fun _ => .orCrash _

theorem terminate_careless {e : Terminator} : Careless (Lower.terminate e) :=
  .get_bind (fun _ _ => rfl) fun _ => .modify fun _ _ => rfl

theorem verifyFunc_careless {e : Emission} : Careless (Lower.verifyFunc e f) := by
  refine .get_bind (fun _ _ => rfl) fun s => ?_
  dsimp only
  split
  · exact .pure _
  · refine .bind func_careless fun fn => ?_
    split
    · exact .bind (.orCrash _) fun _ => .bind (.modify fun _ _ => rfl) fun _ => .throw _
    · exact .throw _

theorem statements_then_cut (hem : EmitterSpares emitFunction) {ss : List Stmt} {x : Lower Unit}
    (hne : f ≠ Lower.entryFunc)
    (hk : k ≠ Environment.global) (hx : Careless x) : Agrees (Working m f) s (do
      Lower.statements p emitFunction k ss
      if ! (← Lower.isTerminated) then x) (do
      Lower.statements p emitFunction k (reached ss)
      if ! (← Lower.isTerminated) then x) := by
  intro hs
  refine Agrees.bind_careless (statements_reached hem hne ss hk)
    (fun _ => .bind isTerminated_careless fun ended => ?_) hs.toInside
  split
  · exact hx
  · exact .pure _

theorem emitBody_cut (hem : EmitterSpares emitFunction) {e : Emission} {body : Program.Block}
    (hne : f ≠ Lower.entryFunc) (hk : k ≠ Environment.global) :
    Agrees (Declared m f) s (Lower.emitBody p emitFunction e f body k)
    (Lower.emitBody p emitFunction e f body.cut k) := by
  have returnThis : Careless (do Lower.terminate (.ret (← get).frame.this?)) :=
    .get_bind (fun _ _ => rfl) fun _ => terminate_careless
  have fallOff : Careless
      (do if (← Lower.func f).returns.isMatch (← get).module.records .void then
            Lower.terminate (.ret none)
          else Lower.terminate .unreachable) := by
    refine .bind func_careless fun _ => .get_bind (fun _ _ => rfl) fun _ => ?_
    split <;> exact terminate_careless
  obtain ⟨i, ss⟩ := body
  refine .bind_same func_leads fun fn _ _ => .bind_same bindParams_leads fun _ t _ ht => ?_
  obtain ⟨u, hu, hrun⟩ := run_newBlock_then ht
  rw [hrun, hrun]
  refine (?_ : Agrees (Working m f) u _ _) hu
  rw [Program.Block.cut]
  by_cases hshape : e.function.shape = .constructor
  · simp only [if_pos hshape]
    exact .bind_same (constructObject_leads hem) fun _ _ _ =>
      statements_then_cut hem hne hk returnThis
  simp only [if_neg hshape]
  by_cases hreceiver : e.function.shape.takesReceiver = true
  · simp only [if_pos hreceiver]
    exact .bind_same func_leads fun _ _ _ => .bind_same .orCrash fun _ _ _ =>
      .bind_same receive_leads fun _ _ _ =>
      statements_then_cut hem hne hk fallOff
  · simp only [if_neg hreceiver]
    exact statements_then_cut hem hne hk fallOff

theorem defineFunc_cut (hem : EmitterSpares emitFunction) {e : Emission} {returns : Ty}
    {params : List Ty}
    (hs : s.IsOrderly) : AgreeButLog ((Lower.defineFunc p emitFunction e returns params).run s)
      ((Lower.defineFunc p emitFunction e.cut returns params).run s) := by
  have hf : s.module.funcs.length ≠ Lower.entryFunc := Nat.ne_of_gt hs.entry
  have hdeclared : Declared s.module s.module.funcs.length (e.declare returns params s) :=
    ⟨hs.hides, .declared _, e.func returns params, List.getElem?_concat_length, rfl⟩
  have hrun (e : Emission) : (Lower.defineFunc p emitFunction e returns params).run s =
      (emitDeclared p emitFunction e s.module.funcs.length).run (e.declare returns params s) := rfl
  rw [hrun, hrun e.cut]
  refine Agrees.bind_same (I := Declared s.module s.module.funcs.length) debug_leads
    (fun _ t _ => ?_) hdeclared
  dsimp only [Emission.cut]
  cases e.function.body? with
  | none => exact .refl
  | some body =>
    refine .bind_careless
      (.withInner fun _ => .insideNamespaces fun _ => .withScope (fun _ ht => ht.hides)
        fun k _ hk =>
      emitBody_cut hem hf hk) fun _ => .bind verifyFunc_careless fun _ => .pure _

end

/-! ## Sessions -/

structure State.IsAtWork (s : State) : Prop where
  cursor : s.cursor = ⟨s.frame.func, 0⟩
  isOpen : s.module.IsOpen s.frame.func
  hides : s.env.HidesGlobal

section
variable {p : Program} {s t : State}

theorem State.IsAtWork.working (h : s.IsAtWork) : Working s.module s.frame.func s := by
  obtain ⟨fn, b, hf, hb, hopen⟩ := h.isOpen
  exact ⟨⟨h.cursor, rfl, h.hides, .refl _ _, fn, b, hf, hb, fun _ => hopen⟩, fn, b, hf, hb, hopen⟩

theorem Working.isAtWork {m : Module} {f : FuncId} (h : Working m f t) : t.IsAtWork := by
  refine ⟨?_, ?_, h.hides⟩
  · rw [h.cursor, h.frame]
  · rw [h.frame]
    exact h.isOpen

theorem freezes_afterDemands (o : Options) (before after : List Demand) :
    (afterDemands p (State.initial o) before).module.Freezes
      (afterDemands p (afterDemands p (State.initial o) before) after).module := by
  have hidle : (afterDemands p (State.initial o) before).IsIdle :=
    (idleAgain_afterDemands before ⟨initial_idle o, .refl _⟩).1
  exact (idleAgain_afterDemands after ⟨hidle, .refl _⟩).2

theorem lvalue_freezes (h : s.IsAtWork) (depth : Nat) (e : Expr) :
    let t := ((Lower.lvalue p (Lower.emitTo p depth) e).run s).2
    t.IsAtWork ∧ s.module.Freezes t.module := by
  have ht : Working s.module s.frame.func ((Lower.lvalue p (Lower.emitTo p depth) e).run s).2 :=
    lvalue_leads (emitTo_spares depth).working e h.working
  exact ⟨ht.isAtWork, ht.spares.freezes h.isOpen⟩

theorem rvalue_freezes (h : s.IsAtWork) (depth : Nat) (e : Expr) :
    let t := ((Lower.rvalue p (Lower.emitTo p depth) e).run s).2
    t.IsAtWork ∧ s.module.Freezes t.module := by
  have ht : Working s.module s.frame.func ((Lower.rvalue p (Lower.emitTo p depth) e).run s).2 :=
    rvalue_leads (emitTo_spares depth).working e h.working
  exact ⟨ht.isAtWork, ht.spares.freezes h.isOpen⟩

theorem statement_freezes (h : s.IsAtWork) (depth : Nat) {k : ScopeId} (hk : k ≠ Environment.global)
    (st : Stmt) :
    s.module.Freezes ((Lower.statement p (Lower.emitTo p depth) k st).run s).2.module := by
  have ht : Inside s.module s.frame.func
      ((Lower.statement p (Lower.emitTo p depth) k st).run s).2 :=
    statement_leads isBodyOf_working (emitTo_spares depth).working st (fun he => absurd he hk)
      h.working
  exact ht.spares.freezes h.isOpen

theorem emitTo_freezes (h : s.IsOrderly) (depth : Nat) (d : Place) (owner? : Option TypeId)
    (args : List (Option TypeId)) :
    s.module.Freezes ((Lower.emitTo p depth d owner? args).run s).2.module := by
  have ht : Outside s.module ((Lower.emitTo p depth d owner? args).run s).2 :=
    emitTo_spares depth s.module d owner? args s h.entry ⟨h.hides, .refl _ _⟩
  exact ht.spares.freezes_of_fresh (Nat.le_refl _)

end

/-- **A block that has ended is frozen.** After any demands, met or not, every block that has a
terminator keeps it, and its instructions, whatever is demanded next. Inside a demand no expression,
no statement of a body and no emission changes a block that had ended before it. So what follows a
return in the body of a function, at any depth of blocks, contributes nothing: without it the same
function is defined, with the same answer and in the same state, apart from the log. -/
theorem ended_frozen (p : Program) (o : Options) :
    (∀ before after : List Demand,
      let s := afterDemands p (State.initial o) before
      s.module.Freezes (afterDemands p s after).module) ∧
    (∀ (s : State) (depth : Nat),
      (s.IsAtWork → ∀ e : Expr,
        (let t := ((Lower.lvalue p (Lower.emitTo p depth) e).run s).2; t.IsAtWork ∧
          s.module.Freezes t.module) ∧
        (let t := ((Lower.rvalue p (Lower.emitTo p depth) e).run s).2; t.IsAtWork ∧
          s.module.Freezes t.module)) ∧
      (s.IsAtWork → ∀ (k : ScopeId) (st : Stmt), k ≠ Environment.global →
        s.module.Freezes ((Lower.statement p (Lower.emitTo p depth) k st).run s).2.module) ∧
      (s.IsOrderly → ∀ d owner? args,
        s.module.Freezes ((Lower.emitTo p depth d owner? args).run s).2.module)) ∧
    ∀ (s : State) (depth : Nat) (e : Emission) (returns : Ty) (params : List Ty), s.IsOrderly →
      AgreeButLog ((Lower.defineFunc p (Lower.emitTo p depth) e returns params).run s)
        ((Lower.defineFunc p (Lower.emitTo p depth) e.cut returns params).run s) := by
  refine ⟨freezes_afterDemands o,
    fun s depth => ⟨fun h e => ⟨lvalue_freezes h depth e, rvalue_freezes h depth e⟩,
    fun h k st hk => statement_freezes h depth hk st, fun h => emitTo_freezes h depth⟩,
      fun s depth e returns params h => ?_⟩
  exact defineFunc_cut (emitTo_spares depth) h

/-- The statement `x;` cannot be lowered, but after a return it is not an error. -/
theorem ended_frozen_unknown_name :
    let s := State.initial defaultOptions
    let x : Stmt := .expression .blank (.ident .blank "x")
    let p := bodyProgram x
    let body : Program.Block := .mk .blank [.block (.mk .blank [.ret .blank none, x]), x]
    let e : Emission :=
      ⟨⟨.stmt (.function .blank "f" [] (some body)), []⟩, ⟨.free, [], some body⟩, none,
        "f", none, []⟩
    let refused := (Lower.statement p (Lower.emitFunction p) 1 x).run s
    let define (e : Emission) := (Lower.defineFunc p (Lower.emitFunction p) e .void []).run s
    s.IsAtWork ∧ refused.1.isOk = false ∧ s.module.Freezes refused.2.module ∧
      s.IsOrderly ∧ e.cut.function.body?.map (·.statements.length) = some 1 ∧
      (define e).1.isOk = true ∧
      AgreeButLog (define e) (define e.cut) := by
  intro s x p body e refused define
  have hides : s.env.HidesGlobal := (initial_idle defaultOptions).hides
  have hs : s.IsOrderly := ⟨by decide, hides⟩
  have hwork : s.IsAtWork := ⟨rfl, ⟨_, _, rfl, rfl, rfl⟩, hides⟩
  obtain ⟨-, hinside, hcut⟩ := ended_frozen p defaultOptions
  have hfreezes := (hinside s (Lower.emissionBound p)).2.1 hwork 1 x (by decide)
  exact ⟨hwork, by decide +kernel, hfreezes, hs, by decide +kernel, by decide +kernel,
    hcut s (Lower.emissionBound p) e .void [] hs⟩

end Lowering

end CheckedIR

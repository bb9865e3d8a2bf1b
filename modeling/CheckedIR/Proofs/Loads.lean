import CheckedIR.Proofs.Lowering.LevelsEmission

/-!
# Loads

Wherever a session lowers an expression, at most one load leads from what it lowers to, to its
value. The value is no address of anything that is passed as it is, so it is never loaded again.
-/

namespace CheckedIR.Lowering

open CheckedIR.Ir CheckedIR.Program CheckedIR.Scope CheckedIR.Scope.Action

/-! ## Where expressions are lowered -/

inductive Task
  | expression (e : Expr)
  | arguments (es : List Expr)
  | statement (k : ScopeId) (st : Stmt)
  | statements (k : ScopeId) (ss : List Stmt)
  | variables (isConst : Bool) (k : ScopeId) (ds : List Variable)
  | initializers (owner : TypeId) (r : RecordId) (this : Value) (ms : List Member)
  | emission (decl : Place) (owner? : Option TypeId) (args : List (Option TypeId))

def toTop (k : ScopeId) : Lower Unit :=
  if k = Environment.global then Lower.moveToEntry else pure ()

def constructorFunc (p : Program) (emitFunction : Emitter) (i : NodeInfo) (callee : Expr)
    (args : List Expr) : Lower FuncId := do
  let d ← Lower.constructorOf p i.span callee
  Lower.keepingCursor
    (emitFunction d (some (Expr.construct i callee args).type) (args.map (some ·.type)))

def calleeFunc (p : Program) (emitFunction : Emitter) (i : NodeInfo) (callee : Expr)
    (args : List Expr) : Lower FuncId := do
  let d ← Lower.calledFunction p i.span callee
  Lower.keepingCursor
    (emitFunction d ((Lower.receiver? p callee).map Expr.type) (args.map (some ·.type)))

/-- When a declaration is emitted in state `s`, its body is lowered into scope `k` of function `f`
from `t`. Which scopes are active there is left open. -/
inductive OpensBody (p : Program) (decl : Place) (owner? : Option TypeId)
    (args : List (Option TypeId)) (s : State) :
    Emission → FuncId → Program.Block → ScopeId → State → Prop
  | intro {function : FunctionLike} {name : String} {parent : ScopeId} {e : Emission} {returns : Ty}
      {params : List Ty}
      {body : Program.Block} {u v : State} (lines : List LogLine) (inner : List ScopeId)
      (hfunction : decl.node.functionLike? = some function)
      (hname : p.mangledFunction decl owner? = .ok name)
      (hnew : s.funcs.lookup name = none)
      (hparent : Gives (Lower.declaringScope p decl owner?) s parent u)
      (he : Gives (emissionOf p decl function owner? args name parent) u (e, returns, params) v)
      (hbody : e.function.body? = some body) :
    OpensBody p decl owner? args s e v.module.funcs.length body v.env.scopes.length
      { e.declare returns params v with
        log := lines, env := ⟨v.env.scopes ++ [.fresh e.name none], inner⟩ }

/-- On the way of a task from state `s`, where emissions nest less than `n` deep, expression `e` is
lowered from `t`, where they nest less than `m` deep. All that precedes it on the way went well;
what else could keep it from being reached is not asked. -/
inductive ComesTo (p : Program) (m : Nat) (e : Expr) (t : State) : Nat → Task → State → Prop
  | here : ComesTo p m e t m (.expression e) t
  | left {n : Nat} {s : State} {i : NodeInfo} {operator : String} {l r : Expr}
      (h : ComesTo p m e t n (.expression l) s) :
    ComesTo p m e t n (.expression (.binary i operator l r)) s
  | right {n : Nat} {s u : State} {i : NodeInfo} {operator : String} {l r : Expr} {v : Value}
      (hl : Gives (Lower.rvalue p (Lower.emitTo p n) l) s v u)
      (h : ComesTo p m e t n (.expression r) u) :
    ComesTo p m e t n (.expression (.binary i operator l r)) s
  | operand {n : Nat} {s : State} {i : NodeInfo} {operator : String} {x : Expr}
      (h : ComesTo p m e t n (.expression x) s) :
    ComesTo p m e t n (.expression (.unary i operator x)) s
  | object {n : Nat} {s u : State} {i : NodeInfo} {object : Expr} {name : String}
      {k? : Option ScopeId}
      (hscope : Gives (Lower.scopeOf? object) s k? u)
      (h : ComesTo p m e t n (.expression object) u) :
    ComesTo p m e t n (.expression (.member i object name)) s
  | constructor_ {n : Nat} {s u : State} {i : NodeInfo} {callee : Expr} {args : List Expr}
      {d : Place} (hd : Gives (Lower.constructorOf p i.span callee) s d u)
      (h : ComesTo p m e t n
        (.emission d (some (Expr.construct i callee args).type) (args.map (some ·.type))) u) :
    ComesTo p m e t n (.expression (.construct i callee args)) s
  | constructed {n : Nat} {s u : State} {i : NodeInfo} {callee : Expr} {args : List Expr}
      {g : FuncId} (hg : Gives (constructorFunc p (Lower.emitTo p n) i callee args) s g u)
      (h : ComesTo p m e t n (.arguments args) u) :
    ComesTo p m e t n (.expression (.construct i callee args)) s
  | callee {n : Nat} {s u : State} {i : NodeInfo} {callee : Expr} {args : List Expr} {d : Place}
      (hd : Gives (Lower.calledFunction p i.span callee) s d u)
      (h : ComesTo p m e t n
        (.emission d ((Lower.receiver? p callee).map Expr.type) (args.map (some ·.type))) u) :
    ComesTo p m e t n (.expression (.call i callee args)) s
  | receiver {n : Nat} {s u : State} {i : NodeInfo} {callee object : Expr} {args : List Expr}
      {g : FuncId} (hg : Gives (calleeFunc p (Lower.emitTo p n) i callee args) s g u)
      (hobject : Lower.receiver? p callee = some object)
      (h : ComesTo p m e t n (.expression object) u) :
      ComesTo p m e t n (.expression (.call i callee args)) s
  | received {n : Nat} {s u v : State} {i : NodeInfo} {callee object : Expr} {args : List Expr}
      {g : FuncId} {w : Value}
      (hg : Gives (calleeFunc p (Lower.emitTo p n) i callee args) s g u)
      (hobject : Lower.receiver? p callee = some object)
      (hw : Gives (Lower.rvalue p (Lower.emitTo p n) object) u w v)
      (h : ComesTo p m e t n (.arguments args) v) :
    ComesTo p m e t n (.expression (.call i callee args)) s
  | called {n : Nat} {s u : State} {i : NodeInfo} {callee : Expr} {args : List Expr} {g : FuncId}
      (hg : Gives (calleeFunc p (Lower.emitTo p n) i callee args) s g u)
      (hobject : Lower.receiver? p callee = none)
      (h : ComesTo p m e t n (.arguments args) u) :
      ComesTo p m e t n (.expression (.call i callee args)) s
  | firstArgument {n : Nat} {s : State} {x : Expr} {es : List Expr}
      (h : ComesTo p m e t n (.expression x) s) :
    ComesTo p m e t n (.arguments (x :: es)) s
  | furtherArguments {n : Nat} {s u : State} {x : Expr} {es : List Expr} {v : Value}
      (hx : Gives (Lower.rvalue p (Lower.emitTo p n) x) s v u)
      (h : ComesTo p m e t n (.arguments es) u) :
    ComesTo p m e t n (.arguments (x :: es)) s
  | evaluated {n : Nat} {s u : State} {k : ScopeId} {i : NodeInfo} {x : Expr}
      (htop : Gives (toTop k) s () u)
      (h : ComesTo p m e t n (.expression x) u) :
      ComesTo p m e t n (.statement k (.expression i x)) s
  | returned {n : Nat} {s u : State} {k : ScopeId} {i : NodeInfo} {x : Expr}
      (htop : Gives (toTop k) s () u)
      (h : ComesTo p m e t n (.expression x) u) :
      ComesTo p m e t n (.statement k (.ret i (some x))) s
  | declared {n : Nat} {s u : State} {k : ScopeId} {i : NodeInfo} {isConst : Bool}
      {ds : List Variable}
      (htop : Gives (toTop k) s () u) (h : ComesTo p m e t n (.variables isConst k ds) u) :
    ComesTo p m e t n (.statement k (.variableDecl i isConst ds)) s
  | block {n : Nat} {s u v : State} {k inside : ScopeId} {i : NodeInfo} {ss : List Stmt}
      (htop : Gives (toTop k) s () u) (hinside : Gives (Action.createScope "" none) u inside v)
      (h : ComesTo p m e t n (.statements inside ss)
        { v with env := { v.env with inner := inside :: v.env.inner } }) :
    ComesTo p m e t n (.statement k (.block (.mk i ss))) s
  | «namespace» {n : Nat} {s u : State} {k inside : ScopeId} {i : NodeInfo} {name : String}
      {isAmbient : Bool} {ss : List Stmt}
      (hinside : Gives (Lower.namespaceOf (.stmt (.namespaceDecl i name isAmbient ss)) name k)
        s inside u)
      (h : ComesTo p m e t n (.statements inside ss)
        { u with env := { u.env with inner := inside :: u.env.inner } }) :
    ComesTo p m e t n (.statement k (.namespaceDecl i name isAmbient ss)) s
  | firstStatement {n : Nat} {s : State} {k : ScopeId} {st : Stmt} {ss : List Stmt}
      (h : ComesTo p m e t n (.statement k st) s) :
    ComesTo p m e t n (.statements k (st :: ss)) s
  | furtherStatements {n : Nat} {s u : State} {k : ScopeId} {st : Stmt} {ss : List Stmt}
      (hst : Gives (Lower.statements p (Lower.emitTo p n) k [st]) s () u)
      (h : ComesTo p m e t n (.statements k ss) u) :
    ComesTo p m e t n (.statements k (st :: ss)) s
  | firstVariable {n : Nat} {s : State} {isConst : Bool} {k : ScopeId} {d : Variable}
      {ds : List Variable} {x : Expr}
      (hx : d.initializer? = some x) (h : ComesTo p m e t n (.expression x) s) :
    ComesTo p m e t n (.variables isConst k (d :: ds)) s
  | furtherVariables {n : Nat} {s u : State} {isConst : Bool} {k : ScopeId} {d : Variable}
      {ds : List Variable}
      (hd : Gives (Lower.declareVariable p (Lower.emitTo p n) isConst k d) s () u)
      (h : ComesTo p m e t n (.variables isConst k ds) u) :
      ComesTo p m e t n (.variables isConst k (d :: ds)) s
  | firstInitializer {n : Nat} {s : State} {owner : TypeId} {r : RecordId} {this : Value}
      {i : NodeInfo} {name : String}
      {isReadonly : Bool} {x : Expr} {ms : List Member} (h : ComesTo p m e t n (.expression x) s) :
    ComesTo p m e t n (.initializers owner r this (.property i name isReadonly (some x) :: ms)) s
  | furtherInitializers {n : Nat} {s u : State} {owner : TypeId} {r : RecordId} {this : Value}
      {x : Member} {ms : List Member}
      (hx : Gives (Lower.storeInitializers p (Lower.emitTo p n) owner r this [x]) s () u)
      (h : ComesTo p m e t n (.initializers owner r this ms) u) :
      ComesTo p m e t n (.initializers owner r this (x :: ms)) s
  | initialized {n : Nat} {s u v w : State} {decl : Place} {owner? : Option TypeId}
      {args : List (Option TypeId)} {x : Emission}
      {f : FuncId} {body : Program.Block} {k : ScopeId} {owner : TypeId} {r : RecordId}
      {this : Value} {i : NodeInfo}
      {name : String} {params : List String} {isAmbient : Bool} {members : List Member}
      (hbody : OpensBody p decl owner? args s x f body k u) (hopen : Gives (openBody x f k) u () v)
      (hobject : Gives (beginObject p x f k) v (owner, r, this) w)
      (hclass : x.decl.parent? = some (.stmt (.classDecl i name params isAmbient members)))
      (h : ComesTo p m e t n (.initializers owner r this members) w) :
    ComesTo p m e t (n + 1) (.emission decl owner? args) s
  | body {n : Nat} {s u v : State} {decl : Place} {owner? : Option TypeId}
      {args : List (Option TypeId)} {x : Emission}
      {f : FuncId} {body : Program.Block} {k : ScopeId}
      (hbody : OpensBody p decl owner? args s x f body k u)
      (hbegin : Gives (beginBody p (Lower.emitTo p n) x f k) u () v)
      (h : ComesTo p m e t n (.statements k body.statements) v) :
    ComesTo p m e t (n + 1) (.emission decl owner? args) s

def LoweredIn (p : Program) (o : Options) (m : Nat) (e : Expr) (t : State) : Prop :=
  ∃ (before : List Demand) (file : SourceFile) (lines : List LogLine),
    ComesTo p m e t (Lower.emissionBound p) (.statements Environment.global file.statements)
      { afterDemands p (State.initial o) before with log := lines }

section
variable {p : Program} {emitFunction : Emitter} {o : Options} {m n : Nat} {e : Expr} {s t u : State}
  {task : Task}

theorem toTop_level {k : ScopeId} : StaysLevel s (toTop k) fun _ _ => True := by
  unfold toTop
  split
  · exact moveToEntry_level
  · exact .pure fun _ => trivial

theorem constructorFunc_level (hem : EmitterStaysLevel emitFunction) {i : NodeInfo} {callee : Expr}
    {args : List Expr} :
    StaysLevel s (constructorFunc p emitFunction i callee args) fun _ _ => True :=
  .bind constructorOf_level fun _ _ _ _ => .keepingCursor (hem _ _ _ _)

theorem calleeFunc_level (hem : EmitterStaysLevel emitFunction) {i : NodeInfo} {callee : Expr}
    {args : List Expr} : StaysLevel s (calleeFunc p emitFunction i callee args) fun _ _ => True :=
  .bind calledFunction_level fun _ _ _ _ => .keepingCursor (hem _ _ _ _)

theorem State.KeepsLevel.elsewhere (h : s.KeepsLevel t) (lines : List LogLine)
    (inner : List ScopeId) : s.KeepsLevel { t with log := lines, env := { t.env with inner } } :=
  ⟨⟨h.level.tables, h.level.fields, h.level.names, h.level.scopes⟩, h.tables⟩

theorem State.KeepsLevel.createScope {k : ScopeId} {name : String} (h : s.KeepsLevel t)
    (hk : Gives (Action.createScope name none) t k u) : s.KeepsLevel u :=
  have hcreate : StaysLevel t (Action.createScope name none) fun _ _ => True :=
    createScope_level fun _ _ => nofun
  h.trans (hcreate.gives h.level hk).1

theorem OpensBody.keepsLevel {decl : Place} {owner? : Option TypeId} {args : List (Option TypeId)}
    {x : Emission} {f : FuncId}
    {body : Program.Block} {k : ScopeId} (h : OpensBody p decl owner? args s x f body k t)
    (hs : s.IsLevel) : s.KeepsLevel t ∧ t.tables.HasReceiver x.receiver? := by
  cases h with
  | intro lines inner _ _ _ hparent he _ =>
    obtain ⟨hu, -⟩ := declaringScope_level.gives hs hparent
    obtain ⟨hv, hreceiver, hreturns, hparams⟩ := emissionOf_level.gives hu.level he
    have hdeclared := keepsLevel_declare (e := x) hv.level hreturns hparams
    have hscope :=
      hdeclared.createScope (show Gives (Action.createScope x.name none) _ _ _ from rfl)
    exact ⟨(hu.trans hv).trans (hscope.elsewhere lines inner), hreceiver.mono hscope.tables⟩

theorem StaysLevel.onwards {α : Type} {x : Lower α} {a : α} {Q : α → State → Prop}
    (h : StaysLevel s x Q) (hx : Gives x s a u)
    (hu : u.IsLevel → u.KeepsLevel t) (hs : s.IsLevel) : s.KeepsLevel t :=
  have hsu := (h.gives hs hx).1
  hsu.trans (hu hsu.level)

theorem ComesTo.keepsLevel (h : ComesTo p m e t n task s) : s.IsLevel → s.KeepsLevel t := by
  induction h with
  | here => exact .refl
  | left _ ih | operand _ ih | firstArgument _ ih | firstStatement _ ih | firstVariable _ _ ih
  | firstInitializer _ ih => exact ih
  | right hl _ ih => exact (rvalue_level (emitTo_level _) _).onwards hl ih
  | object hscope _ ih => exact (scopeOf?_level _).onwards hscope ih
  | constructor_ hd _ ih => exact constructorOf_level.onwards hd ih
  | constructed hg _ ih => exact (constructorFunc_level (emitTo_level _)).onwards hg ih
  | callee hd _ ih => exact calledFunction_level.onwards hd ih
  | receiver hg _ _ ih | called hg _ _ ih => exact (calleeFunc_level (emitTo_level _)).onwards hg ih
  | received hg _ hw _ ih =>
    exact (calleeFunc_level (emitTo_level _)).onwards hg
      ((rvalue_level (emitTo_level _) _).onwards hw ih)
  | furtherArguments hx _ ih => exact (rvalue_level (emitTo_level _) _).onwards hx ih
  | evaluated htop _ ih | returned htop _ ih
  | declared htop _ ih => exact toTop_level.onwards htop ih
  | block htop hinside _ ih =>
    refine toTop_level.onwards htop fun hu => ?_
    have hv := (State.KeepsLevel.refl hu).createScope hinside
    exact (hv.elsewhere _ _).trans (ih (hv.elsewhere _ _).level)
  | «namespace» hinside _ ih =>
    refine namespaceOf_level.onwards hinside fun hu => ?_
    have hv := (State.KeepsLevel.refl hu).elsewhere
    exact (hv _ _).trans (ih (hv _ _).level)
  | furtherStatements hst _ ih => exact (statements_level (emitTo_level _) _).onwards hst ih
  | furtherVariables hd _ ih => exact (declareVariable_level (emitTo_level _)).onwards hd ih
  | furtherInitializers hx _ ih => exact (storeInitializers_level (emitTo_level _)).onwards hx ih
  | initialized hbody hopen hobject _ _ ih =>
    intro hs
    obtain ⟨hu, hreceiver⟩ := hbody.keepsLevel hs
    obtain ⟨hv, -⟩ := openBody_level.gives hu.level hopen
    exact (hu.trans hv).trans
      ((beginObject_level (hreceiver.mono hv.tables)).onwards hobject ih hv.level)
  | body hbody hbegin _ ih =>
    intro hs
    obtain ⟨hu, hreceiver⟩ := hbody.keepsLevel hs
    exact hu.trans ((beginBody_level (emitTo_level _) hreceiver).onwards hbegin ih hu.level)

theorem LoweredIn.isLevel (h : LoweredIn p o m e t) : t.IsLevel := by
  obtain ⟨before, file, lines, h⟩ := h
  have hs : (afterDemands p (State.initial o) before).IsLevel :=
    isLevel_afterDemands before (initial_isLevel o)
  exact (h.keepsLevel ((State.KeepsLevel.refl hs).elsewhere lines _).level).level

end

/-! ## Loads -/

section
variable {s t : State} {v : Value}

/-- The type is no address of what is passed as it is: a Boolean, a number, an address or a string.
-/
structure State.IsAtValue (s : State) (ty : Ty) : Prop where
  boolean : ty ≠ .pointer .i1
  number : ty ≠ .pointer .double
  address : ∀ elem, ty ≠ .pointer (.pointer elem)
  string : ∀ r, s.stringRecord? = some r → ty ≠ .pointer (.record r)

theorem Tables.IsLoaded.isAtValue {ty : Ty} (hs : s.IsLevel) (h : s.tables.IsLoaded ty) :
    s.IsAtValue ty where
  boolean := by
    rintro rfl
    exact h rfl
  number := by
    rintro rfl
    exact h rfl
  address := by
    rintro elem rfl
    exact h
  string := by
    rintro r hr rfl
    exact (hs.tables.strings r hr).2 h

theorem run_loaded (hs : s.IsLevel) (hv : s.tables.IsLoaded v.type) :
    (Lower.loaded v).run s = (.ok v, s) := by
  unfold Lower.loaded
  split
  · rename_i elem helem
    rw [helem] at hv
    rw [run_bind, run_isValueType, hv.passes hs.tables]
    rfl
  · rfl

def State.loading (s : State) (i : InstId) (ty : Ty) (v : Value) : State :=
  { s with module := s.module.modifyFunc s.cursor.func fun g =>
    { g with blocks := g.blocks.modify s.cursor.block fun b =>
    { b with insts := b.insts ++ [⟨i, "", 0, .load ty v⟩] } } }

theorem loaded_adds (s : State) (v : Value) : ((Lower.loaded v).run s).2 = s ∨
    ∃ elem i, v.type = .pointer elem ∧ ((Lower.loaded v).run s).2 = s.loading i elem v := by
  unfold Lower.loaded
  split
  · rename_i elem helem
    rw [run_bind, run_isValueType]
    dsimp only
    split
    · cases hf : s.module.func? s.cursor.func with
      | none =>
        rw [Lower.emit, run_get_bind, run_bind, Lower.func, run_get_bind, hf]
        exact .inl rfl
      | some fn =>
        rw [run_emit_func hf]
        exact .inr ⟨elem, fn.insts.length, helem, rfl⟩
    · exact .inl rfl
  · exact .inl rfl

theorem rvalue_adds {p : Program} {emitFunction : Emitter} {e : Expr} :
    let l := (Lower.lvalue p emitFunction e).run s
    let r := (Lower.rvalue p emitFunction e).run s
    r.2 = l.2 ∨ ∃ v elem i, l.1 = .ok v ∧ v.type = .pointer elem ∧ r.2 = l.2.loading i elem v := by
  dsimp only
  rw [Lower.rvalue, run_bind]
  rcases (Lower.lvalue p emitFunction e).run s with ⟨f | v, u⟩
  · exact .inl rfl
  · exact (loaded_adds u v).imp id fun ⟨elem, i, helem, hload⟩ => ⟨v, elem, i, rfl, helem, hload⟩

end

/-- **One load at most.** Wherever an expression is lowered in a session, its value is what it
lowers to, or what one load more gives. The value is no address of what is passed as it is. To load
it again, there and in whatever state lowering gets to afterwards, gives the value itself and adds
nothing. -/
theorem rvalue_loads {p : Program} {o : Options} {m : Nat} {e : Expr} {t : State}
    (h : LoweredIn p o m e t) : let l := (Lower.lvalue p (Lower.emitTo p m) e).run t
    let r := (Lower.rvalue p (Lower.emitTo p m) e).run t
    (r.2 = l.2 ∨ ∃ v elem i, l.1 = .ok v ∧ v.type = .pointer elem ∧ r.2 = l.2.loading i elem v) ∧
    ∀ v, r.1 = .ok v → r.2.IsAtValue v.type ∧ (Lower.loaded v).run r.2 = (.ok v, r.2) ∧
      ∀ u, r.2.KeepsLevel u → (Lower.loaded v).run u = (.ok v, u) := by
  refine ⟨rvalue_adds, fun v hv => ?_⟩
  obtain ⟨hkeeps, hloaded⟩ := (rvalue_level (emitTo_level m) e).gives h.isLevel (Prod.ext hv rfl)
  exact ⟨hloaded.isAtValue hkeeps.level, run_loaded hkeeps.level hloaded,
    fun u hu => run_loaded hu.level (hloaded.mono hu.tables)⟩

/-- In `let x = true; x;` the last expression is the address of `x`, and its value is loaded from
there. -/
theorem rvalue_loads_slot :
    let x : Expr := .ident .blank "x"
    let declaration :
        Stmt := .variableDecl .blank false [⟨.blank, "x", some (.boolean .blank true)⟩]
    let file : SourceFile := ⟨.blank, "sample", [declaration, .expression .blank x]⟩
    let p : Program := ⟨[file], intrinsics, []⟩
    ∃ t, LoweredIn p defaultOptions (Lower.emissionBound p) x t ∧
      let l := (Lower.lvalue p (Lower.emitTo p (Lower.emissionBound p)) x).run t
      let r := (Lower.rvalue p (Lower.emitTo p (Lower.emissionBound p)) x).run t
      (∃ v elem i, l.1 = .ok v ∧ v.type = .pointer elem ∧ r.2 = l.2.loading i elem v) ∧
      ∃ w, r.1 = .ok w ∧ (Lower.loaded w).run r.2 = (.ok w, r.2) := by
  intro x declaration file p
  let emitFunction := Lower.emitTo p (Lower.emissionBound p)
  let s := State.initial defaultOptions
  let t₁ := ((Lower.statements p emitFunction Environment.global [declaration]).run s).2
  let t₂ := ((toTop Environment.global).run t₁).2
  obtain ⟨_, hdeclared⟩ : ∃ a,
    Gives (Lower.statements p emitFunction Environment.global [declaration]) s a t₁ :=
    exists_gives (by decide +kernel)
  obtain ⟨_, htop⟩ : ∃ a, Gives (toTop Environment.global) t₁ a t₂ :=
    exists_gives (by decide +kernel)
  obtain ⟨w, hw⟩ : ∃ w, ((Lower.rvalue p emitFunction x).run t₂).1 = .ok w :=
    exists_of_isOk (by decide +kernel)
  have hgrown : ((Lower.rvalue p emitFunction x).run t₂).2.module.funcs.map (·.insts.length) ≠
    ((Lower.lvalue p emitFunction x).run t₂).2.module.funcs.map (·.insts.length) := by
      decide +kernel
  have hx : LoweredIn p defaultOptions (Lower.emissionBound p) x t₂ :=
    ⟨[], file, s.log, .furtherStatements hdeclared (.firstStatement (.evaluated htop .here))⟩
  obtain ⟨hload, hvalue⟩ := rvalue_loads hx
  refine ⟨t₂, hx, hload.resolve_left fun hsame => hgrown ?_, w, hw, (hvalue w hw).2.1⟩
  rw [hsame]

end CheckedIR.Lowering

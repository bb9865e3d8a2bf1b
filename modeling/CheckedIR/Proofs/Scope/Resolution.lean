import CheckedIR.Proofs.Scope.Growth
import CheckedIR.Proofs.Sessions

/-!
# Names are resolved lexically

Functions are emitted while others are being lowered, from inside blocks, namespaces and bodies, and
what runs may fail anywhere. All the same a name is only looked for in the scopes around the place
where it is written: at the top level or in a body, inside blocks and namespaces.
-/

namespace CheckedIR.Lowering

open CheckedIR.Ir CheckedIR.Program CheckedIR.Scope CheckedIR.Scope.Action

structure Position where
  /-- The function-like declaration whose body it is in, with the scope of this emission. -/
  body? : Option (Place × ScopeId)
  /-- The blocks and namespaces around it, up to the body or the file, with their scopes; the
  innermost first. -/
  around : List (Stmt × ScopeId)

namespace Position

def top : Position := ⟨none, []⟩

def ofBody (decl : Place) (k : ScopeId) : Position := ⟨some (decl, k), []⟩

def inside (pos : Position) (st : Stmt) (k : ScopeId) : Position :=
  { pos with around := (st, k) :: pos.around }

/-- The scopes above the global one that are around the position, the innermost first: those of the
blocks and namespaces around it, that of the emission, and those of the namespaces that the
declaration is in. -/
def scopes? (pos : Position) (e : Env) : Option (List ScopeId) :=
  match pos.body? with
  | none => some (pos.around.map Prod.snd)
  | some (decl, k) => (e.namespacesIn Environment.global decl.namespacePath).map fun namespaces =>
      pos.around.map Prod.snd ++ k :: namespaces.reverse

def IsActive (pos : Position) (e : Env) : Prop := pos.scopes? e = some e.inner

end Position

abbrev Resolver := Position → Env → String → Except Cause (Binding Value)

abbrev Resolver.view (look : Resolver) (pos : Position) : Viewpoint :=
  ⟨Position, pos, Position.ofBody, Position.inside, look⟩

/-- The resolver finds what the environment finds while exactly the scopes around the position are
active. What it answers otherwise is open. -/
def Resolver.IsLexical (look : Resolver) : Prop :=
  ∀ pos e name, pos.IsActive e → look pos e name = e.get name

section
variable {look : Resolver} {pos : Position} {e : Env} {name : String}

theorem Resolver.IsLexical.view_get (hlook : look.IsLexical) (h : pos.IsActive e) :
    (look.view pos).get e name = e.get name := hlook pos e name h

theorem Resolver.IsLexical.view_getValue (hlook : look.IsLexical) (h : pos.IsActive e) :
    (look.view pos).getValue e name = e.getValue name := by
  rw [Viewpoint.getValue, hlook.view_get h, Environment.getValue]

end

namespace Position

variable {p : Program} {pos : Position} {e e' : Env} {s : State}

theorem IsActive.mono (h : pos.IsActive e) (he : e.Extends e') : pos.IsActive e' := by
  unfold IsActive scopes? at *
  rw [he.inner]
  cases hbody : pos.body? with
  | none => rwa [hbody] at h
  | some body =>
    rw [hbody] at h
    obtain ⟨js, hjs, hinner⟩ := Option.map_eq_some_iff.1 h
    dsimp only
    rw [Environment.namespacesIn_mono he.bound hjs, Option.map_some, hinner]

theorem IsActive.inside (h : pos.IsActive e) (st : Stmt) (k : ScopeId) :
    (pos.inside st k).IsActive { e with inner := k :: e.inner } := by
  unfold IsActive scopes? at *
  cases hbody : pos.body? with
  | none =>
    rw [hbody] at h
    simpa [Position.inside, hbody] using h
  | some body =>
    rw [hbody] at h
    obtain ⟨js, hjs, hinner⟩ := Option.map_eq_some_iff.1 h
    simp [Position.inside, hbody, Environment.namespacesIn_inner, hjs, ← hinner]

theorem isActive_ofBody {decl : Place} {js : List ScopeId} {k : ScopeId}
    (h : e.namespacesIn Environment.global decl.namespacePath = some js)
    (hinner : e.inner = js.reverse) :
    (ofBody decl k).IsActive { e with inner := k :: e.inner } := by
  simp [IsActive, scopes?, ofBody, Environment.namespacesIn_inner, h, hinner]

def condition (p : Program) (pos : Position) : Condition p :=
  ⟨fun s => pos.IsActive s.env, fun _ _ h hs => hs.mono h.env⟩

def betweenBodies (p : Program) (path : List String) : Condition p where
  holds s := ∃ js, s.env.namespacesIn Environment.global path = some js ∧ s.env.inner = js.reverse
  keeps _ _ h := fun ⟨js, hjs, hinner⟩ =>
    ⟨js, Environment.namespacesIn_mono h.env.bound hjs, h.env.inner.trans hinner⟩

end Position

section
variable {p : Program} {look : Resolver} {em em' : Emitter}

/-! ## Expressions -/

theorem lookupValue_resolved (hlook : look.IsLexical) {pos : Position} {s : State} {name : String}
    {span : Span} :
    Alike (pos.condition p) s (Lower.lookupValue name span) (Lower.lookupValue (v := look.view pos)
      name span) := by
  refine .orAt (.get_bind fun hs => ?_)
  rw [Viewpoint.active_getValue, hlook.view_getValue hs]

theorem scopeOf?_resolved (hlook : look.IsLexical) {pos : Position} (e : Expr) : ∀ {s : State},
    Alike (pos.condition p) s (Lower.scopeOf? e) (Lower.scopeOf? (v := look.view pos) e) := by
  induction e using Lower.scopeOf?.induct with
  | case1 i name =>
    intro s
    refine .get_bind fun hs => ?_
    rw [Viewpoint.active_get, hlook.view_get hs]
  | case2 i object name ih =>
    intro s
    simp only [Lower.scopeOf?]
    exact .bind ih (scopeOf?_steady object) fun _ _ => .refl
  | case3 e hident hmember =>
    cases e with
    | ident => exact (hident _ _ rfl).elim
    | member => exact (hmember _ _ _ rfl).elim
    | _ => exact .refl

mutual

theorem lvalue_resolved (hlook : look.IsLexical) (hem : EmitterSteady p .never em)
    (h : EmitterAlike p .always em em') : (e : Expr) → ∀ {pos : Position} {s : State},
      Alike (pos.condition p) s (Lower.lvalue p em e) (Lower.lvalue (v := look.view pos) p em' e)
  | .missing, pos, s => .refl
  | .numeric .., pos, s => .refl
  | .boolean .., pos, s => .refl
  | .text .., pos, s => .refl
  | .ident i name, pos, s => lookupValue_resolved hlook
  | .this i, pos, s => lookupValue_resolved hlook
  | .binary i operator l r, pos, s => by
    simp only [Lower.lvalue]
    have rest {t : State} : Alike (pos.condition p) t (do
        let l ← Lower.loaded (← Lower.lvalue p em l)
        let r ← Lower.loaded (← Lower.lvalue p em r)
        Lower.binary operator i.span l r) (do
        let l ← Lower.loaded (← Lower.lvalue (v := look.view pos) p em' l)
        let r ← Lower.loaded (← Lower.lvalue (v := look.view pos) p em' r)
        Lower.binary operator i.span l r) :=
      .bind (lvalue_resolved hlook hem h l) (lvalue_steady hem l) fun _ _ =>
        .bind_same loaded_steady fun _ _ =>
        .bind (lvalue_resolved hlook hem h r) (lvalue_steady hem r) fun _ _ => .refl
    split
    · exact .bind_same .refuseAt fun _ _ => rest
    · exact rest
  | .unary i operator x, pos, s => by
    simp only [Lower.lvalue]
    have rest {t : State} : Alike (pos.condition p) t (do Lower.loaded (← Lower.lvalue p em x))
        (do Lower.loaded (← Lower.lvalue (v := look.view pos) p em' x)) :=
      .bind (lvalue_resolved hlook hem h x) (lvalue_steady hem x) fun _ _ => .refl
    split
    · exact .bind_same .refuseAt fun _ _ => rest
    · exact rest
  | .member i object name, pos, s => by
    have rest {t : State} : Alike (pos.condition p) t
        (do
          Lower.valueMember p i.span object.type
            (← Lower.loaded (← Lower.lvalue p em object)) name)
        (do
          Lower.valueMember p i.span object.type
            (← Lower.loaded (← Lower.lvalue (v := look.view pos) p em' object)) name) :=
      .bind (lvalue_resolved hlook hem h object) (lvalue_steady hem object) fun _ _ => .refl
    simp only [Lower.lvalue]
    refine .bind (scopeOf?_resolved hlook object) (scopeOf?_steady object) fun k? _ => ?_
    split
    · exact .refl
    · split
      · exact .bind_same .orCrash fun _ _ => .bind_same .refuseAt fun _ _ => rest
      · exact rest
  | .construct i callee args, pos, s => by
    simp only [Lower.lvalue]
    refine .bind_of .refl constructorOf_steady fun d t hd => ?_
    have hrequest : Requested p ⟨d, some (Expr.construct i callee args).type⟩ :=
      ⟨_, (hd.of_reads (constructorOf_reads i callee args)).2⟩
    exact .bind (.keepingCursor (.of_always (h _ _ _ _ hrequest)))
      (.keepingCursor (hem _ _ _ _ hrequest)) fun _ _ =>
      .bind (rvalues_resolved hlook hem h args) (rvalues_steady hem args) fun _ _ => .refl
  | .call i callee args, pos, s => by
    simp only [Lower.lvalue]
    refine .bind_of .refl calledFunction_steady fun d t hd => ?_
    have hrequest : Requested p ⟨d, (Lower.receiver? p callee).map Expr.type⟩ :=
      ⟨_, (hd.of_reads (calledFunction_reads i callee args)).2⟩
    refine .bind (.keepingCursor (.of_always (h _ _ _ _ hrequest)))
      (.keepingCursor (hem _ _ _ _ hrequest)) fun _ _ => ?_
    cases hreceiver : Lower.receiver? p callee with
    | none =>
      exact .bind (rvalues_resolved hlook hem h args) (rvalues_steady hem args) fun _ _ => .refl
    | some object =>
      cases callee with
      | member j object name =>
        exact .bind (lvalue_resolved hlook hem h object) (lvalue_steady hem object) fun _ _ =>
          .bind_same loaded_steady fun _ _ =>
            .bind (rvalues_resolved hlook hem h args) (rvalues_steady hem args) fun _ _ => .refl
      | _ => cases hreceiver
  | .unknown .., pos, s => .refl

theorem rvalues_resolved (hlook : look.IsLexical) (hem : EmitterSteady p .never em)
    (h : EmitterAlike p .always em em') : (es : List Expr) → ∀ {pos : Position} {s : State},
      Alike (pos.condition p) s (Lower.rvalues p em es)
      (Lower.rvalues (v := look.view pos) p em' es)
  | [], pos, s => .refl
  | e :: es, pos, s => by
    simp only [Lower.rvalues]
    exact .bind (lvalue_resolved hlook hem h e) (lvalue_steady hem e) fun _ _ =>
      .bind_same loaded_steady fun _ _ =>
      .bind (rvalues_resolved hlook hem h es) (rvalues_steady hem es) fun _ _ => .refl

end

section
variable (hlook : look.IsLexical) (hem : EmitterSteady p .never em)
  (h : EmitterAlike p .always em em') {pos : Position} {s : State}
include hlook hem h

theorem rvalue_resolved (e : Expr) :
    Alike (pos.condition p) s (Lower.rvalue p em e) (Lower.rvalue (v := look.view pos) p em' e) :=
  .bind (lvalue_resolved hlook hem h e) (lvalue_steady hem e) fun _ _ => .refl

/-! ## Statements -/

theorem declareVariable_resolved {isConst : Bool} {k : ScopeId} {d : Variable} :
    Alike (pos.condition p) s (Lower.declareVariable p em isConst k d) (Lower.declareVariable
      (v := look.view pos) p em' isConst k d) := by
  unfold Lower.declareVariable
  cases d.initializer? with
  | none => exact .refl
  | some e => exact .bind (rvalue_resolved hlook hem h e) (rvalue_steady hem e) fun _ _ => .refl

theorem returnFrom_resolved {i : NodeInfo} {e? : Option Expr} :
    Alike (pos.condition p) s (Lower.returnFrom p em i e?) (Lower.returnFrom (v := look.view pos) p
      em' i e?) := by
  refine .get_bind ?_
  cases e? with
  | none => exact .refl
  | some e =>
    have rest {t : State} :
        Alike (pos.condition p) t (do Lower.terminate (.ret (some (← Lower.rvalue p em e))))
        (do Lower.terminate (.ret (some (← Lower.rvalue (v := look.view pos) p em' e)))) :=
      .bind (rvalue_resolved hlook hem h e) (rvalue_steady hem e) fun _ _ => .refl
    dsimp only
    split
    · exact .bind_same .orCrash fun _ _ => .bind_same .refuseAt fun _ _ => rest
    · exact rest

end

mutual

theorem statement_resolved (hlook : look.IsLexical) (hem : EmitterSteady p .never em)
    (h : EmitterAlike p .always em em') :
    (st : Stmt) → ∀ {pos : Position} {s : State} {k : ScopeId},
      Alike (pos.condition p) s (Lower.statement p em k st) (Lower.statement (v := look.view pos)
        p em' k st)
  | .endOfFile _, pos, s, k => .refl
  | .function .., pos, s, k => .refl
  | .classDecl .., pos, s, k => .refl
  | .interfaceDecl .., pos, s, k => .refl
  | .namespaceDecl i name isAmbient body, pos, s, k => by
    simp only [Lower.statement]
    exact .bind_same namespaceOf_steady fun ns _ => .bind
      (.enter (fun hs => hs.inside _ ns) fun _ => statements_resolved hlook hem h body)
      (.enter fun _ => statements_steady hem body) fun _ _ => .refl
  | .variableDecl i isConst ds, pos, s, k => by
    simp only [Lower.statement]
    exact .atTop fun _ => .bind
      (.forM (fun _ _ _ => declareVariable_steady hem) fun _ _ _ => declareVariable_resolved
        hlook hem h)
      (.forM fun _ _ _ => declareVariable_steady hem) fun _ _ => .refl
  | .expression i e, pos, s, k => by
    simp only [Lower.statement]
    exact .atTop fun _ =>
      .bind (.discard (lvalue_resolved hlook hem h e)) (.discard (lvalue_steady hem e)) fun _ _ =>
        .refl
  | .block (.mk i ss), pos, s, k => by
    simp only [Lower.statement]
    exact .atTop fun _ => .bind
      (.withScope (fun inner _ hs => hs.inside _ inner) fun _ _ => statements_resolved
        hlook hem h ss)
      (withScope_steady fun _ _ => statements_steady hem ss) fun _ _ => .refl
  | .ret i e, pos, s, k => by
    simp only [Lower.statement]
    exact .atTop fun _ => .bind (returnFrom_resolved hlook hem h) (returnFrom_steady hem) fun _ _ =>
      .refl
  | .ifElse .., pos, s, k => .refl
  | .whileLoop .., pos, s, k => .refl
  | .unknown .., pos, s, k => .refl

theorem statements_resolved (hlook : look.IsLexical) (hem : EmitterSteady p .never em)
    (h : EmitterAlike p .always em em') :
    (ss : List Stmt) → ∀ {pos : Position} {s : State} {k : ScopeId},
      Alike (pos.condition p) s (Lower.statements p em k ss) (Lower.statements (v := look.view pos)
        p em' k ss)
  | [], pos, s, k => .refl
  | st :: ss, pos, s, k => by
    simp only [Lower.statements]
    refine .bind_same isTerminated_steady fun _ _ => .get_bind ?_
    split
    · exact .refl
    · refine .bind (statement_resolved hlook hem h st) (statement_steady hem st) fun outcome _ => ?_
      split
      · exact .bind_same .orCrash fun _ _ => .bind_same warn_steady fun _ _ =>
          statements_resolved hlook hem h ss
      · exact statements_resolved hlook hem h ss

end

/-! ## Functions -/

section
variable (hlook : look.IsLexical) (hem : EmitterSteady p .never em)
  (h : EmitterAlike p .always em em') {s : State}
include hlook hem h

theorem storeInitializers_resolved {pos : Position} {owner : TypeId} {r : RecordId} {this : Value}
    {ms : List Member} :
    ∀ {s : State}, Alike (pos.condition p) s (Lower.storeInitializers p em owner r this ms)
      (Lower.storeInitializers (v := look.view pos) p em' owner r this ms) := by
  induction ms with
  | nil => exact .refl
  | cons m ms ih =>
    intro s
    cases m with
    | property i name isReadonly e? =>
      cases e? with
      | none => exact ih
      | some e =>
        exact .bind (rvalue_resolved hlook hem h e) (rvalue_steady hem e) fun _ _ =>
          .bind_same storeProperty_steady fun _ _ => ih
    | _ => exact ih

theorem constructObject_resolved {e : Emission} {f : FuncId} {k : ScopeId} :
    Alike ((Position.ofBody e.decl k).condition p) s (Lower.constructObject p em e f k)
      (Lower.constructObject (v := look.view (.ofBody e.decl k)) p em' e f k) := by
  refine .bind_same .orCrash fun ty _ => .bind_same .orCrash fun owner _ =>
    .bind_same allocate_steady fun this _ =>
    .bind_same (.aside rfl rfl) fun _ _ => .bind_same bindName_steady fun _ _ => ?_
  cases ty with
  | record r =>
    refine .bind_same storeParams_steady fun _ _ => ?_
    cases e.decl.parent? with
    | none => exact .refl
    | some parent =>
      cases parent with
      | stmt st =>
        cases st with
        | classDecl => exact storeInitializers_resolved hlook hem h
        | _ => exact .refl
      | _ => exact .refl
  | _ => exact .refl

theorem emitBody_resolved {e : Emission} {f : FuncId} {body : Program.Block} {k : ScopeId} :
    Alike ((Position.ofBody e.decl k).condition p) s (Lower.emitBody p em e f body k)
      (Lower.emitBody (v := look.view (.ofBody e.decl k)) p em' e f body k) := by
  have rest {last : Lower Unit} {t : State} : Alike ((Position.ofBody e.decl k).condition p) t (do
      Lower.statements p em k body.statements
      if ! (← Lower.isTerminated) then last) (do
      Lower.statements (v := look.view (.ofBody e.decl k)) p em' k body.statements
      if ! (← Lower.isTerminated) then last) :=
    .bind (statements_resolved hlook hem h _) (statements_steady hem _) fun _ _ => .refl
  refine .bind_same func_steady fun fn _ => .bind_same bindParams_steady fun _ _ =>
    .bind_same newBlock_steady fun block _ =>
    .bind_same (.aside rfl rfl) fun _ _ => ?_
  dsimp only
  split
  · exact .bind (constructObject_resolved hlook hem h) (constructObject_steady hem) fun _ _ => rest
  · split
    · exact .bind_same func_steady fun _ _ => .bind_same .orCrash fun _ _ =>
        .bind_same (.aside rfl rfl) fun _ _ => rest
    · exact rest

/-- Whatever is active where a function is asked for, its body starts in the scopes that are around
it. -/
theorem emitDetached_resolved {e : Emission} {f : FuncId} {body : Program.Block} :
    Alike (p := p) .always s
      (Action.detached <| Lower.insideNamespaces e.decl.namespacePath <|
        Action.withScope e.name (Lower.emitBody p em e f body))
      (Action.detached <| Lower.insideNamespaces e.decl.namespacePath <|
        Action.withScope e.name fun k =>
          Lower.emitBody (v := look.view (.ofBody e.decl k)) p em' e f body k) := by
  have emitted (t : State) : Alike (Position.betweenBodies p e.decl.namespacePath) t
      (Action.withScope e.name (Lower.emitBody p em e f body))
      (Action.withScope e.name fun k =>
        Lower.emitBody (v := look.view (.ofBody e.decl k)) p em' e f body k) :=
    .withScope (fun _ _ ⟨_, hjs, hinner⟩ => Position.isActive_ofBody hjs hinner) fun _ _ =>
      emitBody_resolved hlook hem h
  refine .detachedNamespaces ?_ emitted
  exact fun js hjs _ => ⟨js, (Environment.namespacesIn_inner _ _ _).trans hjs, rfl⟩

theorem emitDeclared_resolved {e : Emission} {f : FuncId} :
    Alike (p := p) .always s (emitDeclared p em e f) (emitDeclared (v := look.view .top) p
      em' e f) := by
  refine .bind_same debug_steady fun _ _ => ?_
  cases e.function.body? with
  | none => exact .refl
  | some body =>
    exact .bind (emitDetached_resolved hlook hem h)
      (.detached fun _ => insideNamespaces_steady fun _ => withScope_steady fun _ _ =>
        emitBody_steady hem) fun _ _ => .refl

theorem defineFunc_resolved {e : Emission} {returns : Ty} {params : List Ty} :
    Alike (p := p) .always s (Lower.defineFunc p em e returns params)
    (Lower.defineFunc (v := look.view .top) p em' e returns params) := by
  have hrun : (Lower.defineFunc p em e returns params).run s =
      (emitDeclared p em e s.module.funcs.length).run (e.declare returns params s) := rfl
  have hrun' : (Lower.defineFunc (v := look.view .top) p em' e returns params).run s =
      (emitDeclared (v := look.view .top) p em' e s.module.funcs.length).run
      (e.declare returns params s) := rfl
  intro hs
  rw [hrun, hrun']
  exact emitDeclared_resolved hlook hem h hs

end

theorem emitTo_resolved (hlook : look.IsLexical) (depth : Nat) :
    EmitterAlike p .always (Lower.emitTo p depth) (Lower.emitTo (v := look.view .top) p depth) := by
  induction depth with
  | zero => exact fun d owner? args s _ => .refl
  | succ depth ih =>
    intro d owner? args s hrequest
    have hsteady := (emitTo_steady (p := p) depth).never
    unfold Lower.emitTo
    cases d.node.functionLike? with
    | none => exact .refl
    | some function =>
      refine .bind_of .refl (.ofExcept fun h => h.mangledFunction_ne_exhausted d owner?)
        fun name t hname => .get_bind ?_
      obtain ⟨hmangled, rfl⟩ := hname.ofExcept
      cases hnew : s.funcs.lookup name with
      | some f => exact .refl
      | none =>
        refine .bind_of .refl declaringScope_steady fun parent t hparent => ?_
        have hfree := hparent.free_declaringScope hnew
        dsimp only
        split
        · exact .refl
        · refine .bind ?_ (emitNew_steady hsteady hfree ⟨hrequest, hmangled⟩ fun _ _ _ _ _ => id)
            fun _ _ => .refl
          rw [emitNew_eq, emitNew_eq (v := look.view .top)]
          exact .bind .refl emissionOf_steady fun e _ => defineFunc_resolved hlook hsteady ih

theorem generate_resolved (hlook : look.IsLexical) {s : State} {file : SourceFile} :
    Alike (Position.top.condition p) s (Lower.generate p file) (Lower.generate (v := look.view .top)
      p file) := by
  have rest {t : State} : Alike (Position.top.condition p) t
      (do
          Lower.debug ("generating " ++ file.name ++ " (" ++
            toString file.statements.length ++ " statements)")
          Lower.statements p (Lower.emitTo p (Lower.emissionBound p)) Environment.global
            file.statements)
      (do
          Lower.debug ("generating " ++ file.name ++ " (" ++
            toString file.statements.length ++ " statements)")
          Lower.statements (v := look.view .top) p
            (Lower.emitTo (v := look.view .top) p (Lower.emissionBound p)) Environment.global
            file.statements) :=
    .bind_same debug_steady fun _ _ =>
      statements_resolved hlook (emitTo_steady _).never (emitTo_resolved hlook _) _
  refine .bind_same checkConfig_steady fun _ _ => .get_bind ?_
  dsimp only
  split
  · exact .bind_same .refuse fun _ _ => rest
  · exact rest

end

/-- Looks a name up in the scopes around the position, whatever scopes are active. -/
def Resolver.ofPosition : Resolver := fun pos e name =>
  match pos.scopes? e with
  | some inner => ({ e with inner } : Env).get name
  | none => .ok .empty

theorem Resolver.isLexical_ofPosition : Resolver.ofPosition.IsLexical := by
  intro pos e name h
  unfold ofPosition
  rw [h]

/-- **Names are resolved lexically.** Take any resolver that finds what the environment finds
whenever exactly these scopes are active: the global one; inside a body, those of the namespaces
around its declaration, as they are found from the global scope, and then the one of its emission;
and on top those of the blocks and namespaces around the name in the body or file. Whatever the
resolver answers when any other scopes are active, and whatever was demanded before and failed,
lowering a file with it comes to the same. So no name is ever looked for in other scopes. -/
theorem names_lexical {p : Program} {look : Resolver} (hlook : look.IsLexical) (o : Options)
    (ds : List Demand) (file : SourceFile) :
    let s := afterDemands p (State.initial o) ds
    (Lower.generate (v := look.view .top) p file).run s = (Lower.generate p file).run s := by
  intro s
  -- However a demand ends, it puts back the scopes that were active, so a file starts at the top.
  have hinner : s.env.inner = [] := (grows_afterDemands ds).env.inner
  exact (generate_resolved hlook (congrArg some hinner.symm)).symm

def namesakeProgram : Program :=
  let g : SymbolId := ⟨"g"⟩
  let f : SymbolId := ⟨"f"⟩
  let const (e : Expr) : Stmt := .variableDecl .blank true [⟨.blank, "x", some e⟩]
  let call (name : String) (s : SymbolId) : Stmt :=
    .expression .blank (.call .blank (.ident { NodeInfo.blank with symbol? := some s } name) [])
  let inner : Stmt :=
    .function { NodeInfo.blank with declares? := some g, returns? := some numberType } "g" []
      (some (.mk .blank [.block (.mk .blank [.ret .blank (some (.ident .blank "x"))])]))
  let outer : Stmt := .function { NodeInfo.blank with declares? := some f } "f" []
    (some (.mk .blank [const (.boolean .blank true), .block (.mk .blank [call "g" g])]))
  ⟨[⟨.blank, "sample",
    [.namespaceDecl .blank "Inner" false [const (.numeric .blank ⟨0x3FF0000000000000⟩), inner],
      .namespaceDecl .blank "Outer" false [outer], call "f" f]⟩],
    intrinsics, [(g, ⟨"g", [.func]⟩), (f, ⟨"f", [.func]⟩)]⟩

/-- The inner function is emitted in the middle of the outer one, and yet returns the constant
around it. -/
theorem names_lexical_namesake : Resolver.ofPosition.IsLexical ∧ ∀ file ∈ namesakeProgram.files,
    let r := (Lower.generate (v := Resolver.ofPosition.view .top) namesakeProgram file).run
      (State.initial defaultOptions)
    r = (Lower.generate namesakeProgram file).run (State.initial defaultOptions) ∧ r.1.isOk ∧
      (r.2.module.funcs.flatMap fun f => f.blocks.map fun b => (f.name, b.term?)) =
        [("main", none), ("Outer__f", some (.ret none)),
          ("Inner__g", some (.ret (some (.const (.double ⟨0x3FF0000000000000⟩)))))] := by
  refine ⟨Resolver.isLexical_ofPosition, fun file hfile => ?_⟩
  have hsame := names_lexical Resolver.isLexical_ofPosition defaultOptions [] file
    (p := namesakeProgram)
  obtain rfl := List.mem_singleton.1 hfile
  exact ⟨hsame, by decide +kernel, by decide +kernel⟩

end CheckedIR.Lowering

import CheckedIR.Proofs.Lowering.Alike

/-!
# The bound on nested emissions

As long as there is room, two ways to emit functions that agree make no difference to whatever uses
them. So any two bounds that leave enough room give the same lowering.
-/

namespace CheckedIR.Lowering

open CheckedIR.Ir CheckedIR.Program CheckedIR.Scope CheckedIR.Scope.Action

section
variable {p : Program} {R R' : Room p} {em em' : Emitter} {s : State} {α β : Type} {x y : Lower α}

/-! ## Expressions and statements -/

mutual

theorem lvalue_alike (hem : EmitterSteady p .never em) (h : EmitterAlike p R.condition em em') :
    (e : Expr) → ∀ {s : State},
    Alike R.condition s (Lower.lvalue p em e) (Lower.lvalue p em' e)
  | .missing, s => .refl
  | .numeric .., s => .refl
  | .boolean .., s => .refl
  | .text .., s => .refl
  | .ident .., s => .refl
  | .this _, s => .refl
  | .binary i operator l r, s => by
    rw [Lower.lvalue, Lower.lvalue]
    have rest {t : State} : Alike R.condition t (do
        let l ← Lower.loaded (← Lower.lvalue p em l)
        let r ← Lower.loaded (← Lower.lvalue p em r)
        Lower.binary operator i.span l r) (do
        let l ← Lower.loaded (← Lower.lvalue p em' l)
        let r ← Lower.loaded (← Lower.lvalue p em' r)
        Lower.binary operator i.span l r) :=
      .bind (lvalue_alike hem h l) (lvalue_steady hem l) fun _ _ =>
        .bind_same loaded_steady fun _ _ =>
        .bind (lvalue_alike hem h r) (lvalue_steady hem r) fun _ _ => .refl
    split
    · exact .bind_same .refuseAt fun _ _ => rest
    · exact rest
  | .unary i operator x, s => by
    rw [Lower.lvalue, Lower.lvalue]
    split
    · exact .bind_same .refuseAt fun _ _ =>
        .bind (lvalue_alike hem h x) (lvalue_steady hem x) fun _ _ => .refl
    · exact .bind (lvalue_alike hem h x) (lvalue_steady hem x) fun _ _ => .refl
  | .member i object name, s => by
    have rest {t : State} : Alike R.condition t
        (do
          Lower.valueMember p i.span object.type
            (← Lower.loaded (← Lower.lvalue p em object)) name)
        (do
          Lower.valueMember p i.span object.type
            (← Lower.loaded (← Lower.lvalue p em' object)) name) :=
      .bind (lvalue_alike hem h object) (lvalue_steady hem object) fun _ _ => .refl
    rw [Lower.lvalue, Lower.lvalue]
    refine .bind_same (scopeOf?_steady object) fun k? _ => ?_
    split
    · exact .refl
    · split
      · exact .bind_same .orCrash fun _ _ => .bind_same .refuseAt fun _ _ => rest
      · exact rest
  | .construct i callee args, s => by
    rw [Lower.lvalue, Lower.lvalue]
    refine .bind_of .refl constructorOf_steady fun d t hd => ?_
    have hrequest : Requested p ⟨d, some (Expr.construct i callee args).type⟩ :=
      ⟨_, (hd.of_reads (constructorOf_reads i callee args)).2⟩
    exact .bind (.keepingCursor (h _ _ _ _ hrequest)) (.keepingCursor (hem _ _ _ _ hrequest))
      fun _ _ =>
      .bind (rvalues_alike hem h args) (rvalues_steady hem args) fun _ _ => .refl
  | .call i callee args, s => by
    rw [Lower.lvalue, Lower.lvalue]
    refine .bind_of .refl calledFunction_steady fun d t hd => ?_
    have hrequest : Requested p ⟨d, (Lower.receiver? p callee).map Expr.type⟩ :=
      ⟨_, (hd.of_reads (calledFunction_reads i callee args)).2⟩
    refine .bind (.keepingCursor (h _ _ _ _ hrequest)) (.keepingCursor (hem _ _ _ _ hrequest))
      fun _ _ => ?_
    split
    · rename_i j object name _
      exact .bind (lvalue_alike hem h object) (lvalue_steady hem object) fun _ _ =>
        .bind_same loaded_steady fun _ _ =>
        .bind (rvalues_alike hem h args) (rvalues_steady hem args) fun _ _ => .refl
    · exact .bind (rvalues_alike hem h args) (rvalues_steady hem args) fun _ _ => .refl
  | .unknown .., s => .refl

theorem rvalues_alike (hem : EmitterSteady p .never em) (h : EmitterAlike p R.condition em em') :
    (es : List Expr) → ∀ {s : State},
    Alike R.condition s (Lower.rvalues p em es) (Lower.rvalues p em' es)
  | [], s => .refl
  | e :: es, s => by
    rw [Lower.rvalues, Lower.rvalues]
    exact .bind (lvalue_alike hem h e) (lvalue_steady hem e) fun _ _ =>
      .bind_same loaded_steady fun _ _ =>
      .bind (rvalues_alike hem h es) (rvalues_steady hem es) fun _ _ => .refl

end

section
variable (hem : EmitterSteady p .never em) (h : EmitterAlike p R.condition em em')
include hem h

theorem rvalue_alike (e : Expr) :
    Alike R.condition s (Lower.rvalue p em e) (Lower.rvalue p em' e) :=
  .bind (lvalue_alike hem h e) (lvalue_steady hem e) fun _ _ => .refl

theorem declareVariable_alike {isConst : Bool} {k : ScopeId} {d : Variable} :
    Alike R.condition s (Lower.declareVariable p em isConst k d) (Lower.declareVariable p em'
      isConst k d) := by
  unfold Lower.declareVariable
  split
  · exact .refl
  · exact .bind (rvalue_alike hem h _) (rvalue_steady hem _) fun _ _ => .refl

theorem returnFrom_alike {i : NodeInfo} {e? : Option Expr} :
    Alike R.condition s (Lower.returnFrom p em i e?) (Lower.returnFrom p em' i e?) := by
  refine .get_bind ?_
  cases e? with
  | none => exact .refl
  | some e =>
    have rest {t : State} :
        Alike R.condition t (do Lower.terminate (.ret (some (← Lower.rvalue p em e))))
        (do Lower.terminate (.ret (some (← Lower.rvalue p em' e)))) :=
      .bind (rvalue_alike hem h e) (rvalue_steady hem e) fun _ _ => .refl
    dsimp only
    split
    · exact .bind_same .orCrash fun _ _ => .bind_same .refuseAt fun _ _ => rest
    · exact rest

end

mutual

theorem statement_alike (hem : EmitterSteady p .never em) (h : EmitterAlike p R.condition em em') :
    (st : Stmt) →
    ∀ {s : State} {k : ScopeId},
      Alike R.condition s (Lower.statement p em k st) (Lower.statement p em' k st)
  | .endOfFile _, s, k => .refl
  | .function .., s, k => .refl
  | .classDecl .., s, k => .refl
  | .interfaceDecl .., s, k => .refl
  | .namespaceDecl i name isAmbient body, s, k => by
    rw [Lower.statement, Lower.statement]
    exact .bind_same namespaceOf_steady fun _ _ =>
      .bind (.enter id fun _ => statements_alike hem h body)
      (.enter fun _ => statements_steady hem body) fun _ _ => .refl
  | .variableDecl i isConst ds, s, k => by
    rw [Lower.statement, Lower.statement]
    exact Alike.atTop fun _ => .bind
      (.forM (fun _ _ _ => declareVariable_steady hem) fun _ _ _ => declareVariable_alike hem h)
      (.forM fun _ _ _ => declareVariable_steady hem) fun _ _ => .refl
  | .expression i e, s, k => by
    rw [Lower.statement, Lower.statement]
    exact Alike.atTop fun _ =>
      .bind (.discard (lvalue_alike hem h e)) (.discard (lvalue_steady hem e)) fun _ _ => .refl
  | .block (.mk i ss), s, k => by
    rw [Lower.statement, Lower.statement]
    exact Alike.atTop fun _ =>
      .bind (.withScope (fun _ _ => id) fun _ _ => statements_alike hem h ss)
      (withScope_steady fun _ _ => statements_steady hem ss) fun _ _ => .refl
  | .ret i e, s, k => by
    rw [Lower.statement, Lower.statement]
    exact Alike.atTop fun _ => .bind (returnFrom_alike hem h) (returnFrom_steady hem) fun _ _ =>
      .refl
  | .ifElse .., s, k => .refl
  | .whileLoop .., s, k => .refl
  | .unknown .., s, k => .refl

theorem statements_alike (hem : EmitterSteady p .never em) (h : EmitterAlike p R.condition em em') :
    (ss : List Stmt) →
    ∀ {s : State} {k : ScopeId},
      Alike R.condition s (Lower.statements p em k ss) (Lower.statements p em' k ss)
  | [], s, k => .refl
  | st :: ss, s, k => by
    rw [Lower.statements, Lower.statements]
    refine .bind_same isTerminated_steady fun _ _ => .get_bind ?_
    split
    · exact .refl
    · refine .bind (statement_alike hem h st) (statement_steady hem st) fun outcome _ => ?_
      split
      · exact .bind_same .orCrash fun _ _ => .bind_same warn_steady fun _ _ =>
          statements_alike hem h ss
      · exact statements_alike hem h ss

end

/-! ## Functions -/

section
variable (hem : EmitterSteady p .never em) (h : EmitterAlike p R.condition em em')
include hem h

theorem storeInitializers_alike {owner : TypeId} {r : RecordId} {this : Value} {ms : List Member} :
    ∀ {s : State},
    Alike R.condition s (Lower.storeInitializers p em owner r this ms) (Lower.storeInitializers p
      em' owner r this ms) := by
  induction ms with
  | nil => exact .refl
  | cons m ms ih =>
    intro s
    unfold Lower.storeInitializers
    split
    · exact .refl
    · rename_i heq
      obtain ⟨-, rfl⟩ := List.cons_eq_cons.1 heq
      exact .bind (rvalue_alike hem h _) (rvalue_steady hem _) fun _ _ =>
        .bind_same storeProperty_steady fun _ _ => ih
    · rename_i heq
      obtain ⟨-, rfl⟩ := List.cons_eq_cons.1 heq
      exact ih

theorem constructObject_alike {e : Emission} {f : FuncId} {k : ScopeId} :
    Alike R.condition s (Lower.constructObject p em e f k) (Lower.constructObject p em' e f k) := by
  refine .bind_same .orCrash fun ty _ => .bind_same .orCrash fun owner _ =>
    .bind_same allocate_steady fun this _ =>
    .bind_same (.aside rfl rfl) fun _ _ => .bind_same bindName_steady fun _ _ => ?_
  split
  · refine .bind_same storeParams_steady fun _ _ => ?_
    split
    · exact storeInitializers_alike hem h
    · exact .refl
  · exact .refl

theorem emitBody_alike {e : Emission} {f : FuncId} {body : Program.Block} {k : ScopeId} :
    Alike R.condition s (Lower.emitBody p em e f body k) (Lower.emitBody p em' e f body k) := by
  have rest {last : Lower Unit} {t : State} : Alike R.condition t (do
      Lower.statements p em k body.statements
      if ! (← Lower.isTerminated) then last) (do
      Lower.statements p em' k body.statements
      if ! (← Lower.isTerminated) then last) :=
    .bind (statements_alike hem h _) (statements_steady hem _) fun _ _ => .refl
  refine .bind_same func_steady fun fn _ => .bind_same bindParams_steady fun _ _ =>
    .bind_same newBlock_steady fun block _ =>
    .bind_same (.aside rfl rfl) fun _ _ => ?_
  dsimp only
  split
  · exact .bind (constructObject_alike hem h) (constructObject_steady hem) fun _ _ => rest
  · split
    · exact .bind_same func_steady fun _ _ => .bind_same .orCrash fun _ _ =>
        .bind_same (.aside rfl rfl) fun _ _ => rest
    · exact rest

end

theorem emitDeclared_alike (hem : EmitterSteady p .never em) (h : EmitterAlike p R.condition em em')
    {e : Emission} {f : FuncId} :
    Alike R.condition s (emitDeclared p em e f) (emitDeclared p em' e f) := by
  have emitted (body : Program.Block) (t : State) : Alike R.condition t
      (Action.withScope e.name (Lower.emitBody p em e f body))
      (Action.withScope e.name (Lower.emitBody p em' e f body)) :=
    .withScope (fun _ _ => id) fun _ _ => emitBody_alike hem h
  refine .bind_same debug_steady fun _ _ => ?_
  split
  · exact .refl
  · exact .bind (.detachedNamespaces (fun _ _ => id) (emitted _))
      (.detached fun _ => insideNamespaces_steady fun _ => withScope_steady fun _ _ =>
        emitBody_steady hem) fun _ _ => .refl

theorem defineFunc_alike (hem : EmitterSteady p .never em) (h : EmitterAlike p R'.condition em em')
    {e : Emission} {returns : Ty} {params : List Ty} (hnew : s.funcs.lookup e.name = none)
    (hname : NamedRequest p e.name ⟨e.decl, e.owner?⟩)
    (hroom : ∀ T U, T.Grows p true U → T.funcs.lookup e.name = none →
      (U.funcs.lookup e.name).isSome → R.holds T → R'.holds U) :
    Alike R.condition s (Lower.defineFunc p em e returns params) (Lower.defineFunc p em' e returns
      params) := by
  intro hR
  have hrun (em : Emitter) : (Lower.defineFunc p em e returns params).run s =
      (emitDeclared p em e s.module.funcs.length).run (e.declare returns params s) := rfl
  rw [hrun, hrun]
  exact emitDeclared_alike hem h (hroom _ _ (.single (e.registers_declare _ _ hnew hname)) hnew
    e.isSome_lookup_declare hR)

/-- A greater bound makes no difference where there is room. -/
theorem emitTo_alike (depth more : Nat) :
    EmitterAlike p (Room.emissions p depth).condition (Lower.emitTo p depth)
    (Lower.emitTo p (depth + more)) := by
  induction depth with
  | zero => exact fun d owner? args s _ h => absurd h.2 (Nat.not_lt_zero _)
  | succ depth ih =>
    intro d owner? args s hrequest
    rw [Nat.add_right_comm]
    unfold Lower.emitTo
    split
    · exact .refl
    rename_i function hfunction
    refine .bind_of .refl (.ofExcept fun h => h.mangledFunction_ne_exhausted d owner?)
      fun name t hname => .get_bind ?_
    obtain ⟨hmangled, rfl⟩ := hname.ofExcept
    split
    · exact .refl
    rename_i hnew
    refine .bind_of .refl declaringScope_steady fun parent t hparent => ?_
    have hfree := hparent.free_declaringScope hnew
    dsimp only
    split
    · exact .refl
    · have hroom := Room.emissions_succ depth (mem_emissionNames hrequest.mem_places hmangled)
      refine .bind ?_
        ((emitNew_steady (emitTo_steady depth) hfree ⟨hrequest, hmangled⟩ hroom).weaken False.elim)
        fun _ _ => .refl
      rw [emitNew_eq, emitNew_eq]
      refine .bind_of .refl emissionOf_steady fun e u he => ?_
      obtain ⟨hfree', hmangled'⟩ := he.free_emissionOf hfree ⟨hrequest, hmangled⟩
      exact defineFunc_alike (emitTo_steady depth).never ih hfree' hmangled'
        (he.emission.2.2 ▸ hroom)

/-! ## Files -/

def generateTo (p : Program) (bound : Nat) (file : SourceFile) : Lower Unit := do
  Lower.checkConfig
  let s ← get
  if s.isFinished then
    Lower.refuse (.internal ("module " ++ s.module.sourceFile ++ " is already finished"))
  Lower.debug ("generating " ++ file.name ++ " (" ++ toString file.statements.length ++
    " statements)")
  Lower.statements p (Lower.emitTo p bound) Environment.global file.statements

theorem generate_eq (p : Program) : Lower.generate p = generateTo p (Lower.emissionBound p) := rfl

theorem generateTo_alike {file : SourceFile} (more : Nat) :
    Alike (Room.emissions p (Lower.emissionBound p)).condition s (Lower.generate p file)
      (generateTo p (Lower.emissionBound p + more) file) := by
  have rest {t : State} : Alike (Room.emissions p (Lower.emissionBound p)).condition t
      (do
          Lower.debug ("generating " ++ file.name ++ " (" ++
            toString file.statements.length ++ " statements)")
          Lower.statements p (Lower.emitTo p (Lower.emissionBound p)) Environment.global
            file.statements)
      (do
          Lower.debug ("generating " ++ file.name ++ " (" ++
            toString file.statements.length ++ " statements)")
          Lower.statements p (Lower.emitTo p (Lower.emissionBound p + more)) Environment.global
            file.statements) :=
    .bind_same debug_steady fun _ _ =>
      statements_alike (emitTo_steady _).never (emitTo_alike _ more) _
  rw [generate_eq]
  refine .bind_same checkConfig_steady fun _ _ => .get_bind ?_
  dsimp only
  split
  · exact .bind_same .refuse fun _ _ => rest
  · exact rest

theorem run_generateTo (h : p.IsAcyclic) {bound : Nat} (hbound : Lower.emissionBound p ≤ bound)
    (files : List SourceFile) :
    (files.forM (Lower.generate p)).run s = (files.forM (generateTo p bound)).run s := by
  obtain ⟨more, rfl⟩ := Nat.exists_eq_add_of_le hbound
  exact Alike.forM (fun _ _ _ => generate_steady) (fun _ _ _ => generateTo_alike more)
    (Room.emissions_holds h s.tables)

end

end CheckedIR.Lowering

import CheckedIR.Proofs.Lowering.Steady

/-!
# Emissions are steady

A function that is asked for is entered into the table before its body is lowered, so each emission
inside another leaves one name less to be emitted. Lowering therefore ends, whatever cycles the
calls of a program form.
-/

namespace CheckedIR.Lowering

open CheckedIR.Ir CheckedIR.Program CheckedIR.Scope CheckedIR.Scope.Action

def EmitterSteady (p : Program) (R : Room p) (emitFunction : Emitter) : Prop :=
  ∀ d owner? args s, Requested p ⟨d, owner?⟩ → Steady p true R s (emitFunction d owner? args)

theorem EmitterSteady.never {p : Program} {R : Room p} {emitFunction : Emitter}
    (h : EmitterSteady p R emitFunction) : EmitterSteady p .never emitFunction :=
  fun d owner? args s hrequest => (h d owner? args s hrequest).weaken False.elim

section
variable {p : Program} {declares : Bool} {R R' : Room p} {emitFunction : Emitter} {s t : State}

/-! ## Expressions -/

theorem plus_steady {span : Span} {l r : Value} : Steady p true R s (Lower.plus span l r) := by
  unfold Lower.plus
  split
  · exact emit_steady
  · refine .bind isString_steady fun _ _ => .bind isString_steady fun _ _ => ?_
    split
    · exact .bind builtin_steady fun _ _ => call_steady
    · exact .bind typeText_steady fun _ _ => .bind typeText_steady fun _ _ => .refuseAt

theorem binary_steady {operator : String} {span : Span} {l r : Value} :
    Steady p true R s (Lower.binary operator span l r) := by
  have checked {op : Op} {ty : Ty} : Steady p true R s (do
      if l.type.isDouble && r.type.isDouble then Lower.emit op ty
      else
        Lower.refuseAt
          (.invalidOperands operator (← Lower.typeText l.type) (← Lower.typeText r.type))
          span) := by
    split
    · exact emit_steady
    · exact .bind typeText_steady fun _ _ => .bind typeText_steady fun _ _ => .refuseAt
  unfold Lower.binary
  split
  · exact plus_steady
  dsimp only
  split
  · exact checked
  · exact checked
  · exact .refuseAt

theorem scopeMember_steady {span : Span} {k : ScopeId} {name : String} {source : Option String} :
    Steady p declares R s (Lower.scopeMember span k name source) := by
  refine .orAt (.get_bind (.bind .ofCause fun b _ => ?_))
  split
  · exact .bind .orCrash fun _ _ => .refuse
  · exact .bind .orCrash fun _ _ => localValue_steady
  · exact .crash

theorem valueMember_steady {span : Span} {owner : TypeId} {v : Value} {name : String} :
    Steady p declares R s (Lower.valueMember p span owner v name) := by
  have unknown {t : State} : Steady p declares R t
      (do
        Lower.refuseAt (.unknownMember name (← Lower.answered (p.typeText owner))) span :
          Lower Value) :=
    .bind (.answered fun h => h.isSome_typeText owner) fun _ _ => .refuseAt
  refine .bind isString_steady fun _ _ => ?_
  split
  · exact .bind emit_steady fun _ _ => emit_steady
  · dsimp only
    split
    · refine .get_bind ?_
      split
      · exact unknown
      · split
        · exact unknown
        · exact fieldAddress_steady
    · exact unknown

theorem constructorOf_steady {span : Span} {callee : Expr} :
    Steady p declares R s (Lower.constructorOf p span callee) := by
  have notClass : Steady p declares R s
      (do
        Lower.refuseAt (.notClass (← Lower.answered (p.typeText callee.type))) span :
          Lower Place) :=
    .bind (.answered fun h => h.isSome_typeText _) fun _ _ => .refuseAt
  unfold Lower.constructorOf
  dsimp only
  split
  · exact notClass
  · split
    · split
      · exact .pure
      · exact .refuseAt
    · exact notClass

theorem calledFunction_steady {span : Span} {callee : Expr} :
    Steady p declares R s (Lower.calledFunction p span callee) := by
  unfold Lower.calledFunction
  split
  · split
    · exact .pure
    · exact .bind .orCrash fun _ _ => .refuseAt
  · exact .bind .orCrash fun _ _ => .refuseAt

mutual

theorem lvalue_steady (hem : EmitterSteady p R emitFunction) : (e : Expr) → ∀ {s : State},
    Steady p true R s (Lower.lvalue p emitFunction e)
  | .missing, s => .crash
  | .numeric _ x, s => .pure
  | .boolean _ b, s => .pure
  | .text _ text, s => .bind stringConstant_steady fun _ _ => .pure
  | .ident i name, s => lookupValue_steady
  | .this i, s => lookupValue_steady
  | .binary i operator l r, s => by
    have rest {t : State} : Steady p true R t (do
        let l ← Lower.loaded (← Lower.lvalue p emitFunction l)
        let r ← Lower.loaded (← Lower.lvalue p emitFunction r)
        Lower.binary operator i.span l r) :=
      .bind (lvalue_steady hem l) fun _ _ => .bind loaded_steady fun _ _ =>
        .bind (lvalue_steady hem r) fun _ _ => .bind loaded_steady fun _ _ => binary_steady
    rw [Lower.lvalue]
    split
    · exact .bind .refuseAt fun _ _ => rest
    · exact rest
  | .unary i operator x, s => by
    have rest {t : State} : Steady p true R t (do Lower.loaded (← Lower.lvalue p emitFunction x)) :=
      .bind (lvalue_steady hem x) fun _ _ => loaded_steady
    rw [Lower.lvalue]
    split
    · exact .bind .refuseAt fun _ _ => rest
    · exact rest
  | .member i object name, s => by
    have rest {t : State} : Steady p true R t (do
        Lower.valueMember p i.span object.type
          (← Lower.loaded (← Lower.lvalue p emitFunction object)) name) :=
      .bind (lvalue_steady hem object) fun _ _ => .bind loaded_steady fun _ _ => valueMember_steady
    rw [Lower.lvalue]
    refine .bind (scopeOf?_steady object) fun k? _ => ?_
    split
    · exact scopeMember_steady
    · split
      · exact .bind .orCrash fun _ _ => .bind .refuseAt fun _ _ => rest
      · exact rest
  | .construct i callee args, s => by
    rw [Lower.lvalue]
    refine .bind_of constructorOf_steady fun d t hd _ => ?_
    have hrequest : Requested p ⟨d, some (Expr.construct i callee args).type⟩ :=
      ⟨_, (hd.of_reads (constructorOf_reads i callee args)).2⟩
    exact .bind (.keepingCursor (hem _ _ _ _ hrequest)) fun _ _ =>
      .bind (rvalues_steady hem args) fun _ _ =>
      .bind call_steady fun _ _ => noteCall_steady
  | .call i callee args, s => by
    rw [Lower.lvalue]
    refine .bind_of calledFunction_steady fun d t hd _ => ?_
    have hrequest : Requested p ⟨d, (Lower.receiver? p callee).map Expr.type⟩ :=
      ⟨_, (hd.of_reads (calledFunction_reads i callee args)).2⟩
    refine .bind (.keepingCursor (hem _ _ _ _ hrequest)) fun _ _ => ?_
    split
    · rename_i j object name _
      exact .bind (lvalue_steady hem object) fun _ _ => .bind loaded_steady fun _ _ =>
        .bind (rvalues_steady hem args) fun _ _ => .bind call_steady fun _ _ => noteCall_steady
    · exact .bind (rvalues_steady hem args) fun _ _ => .bind call_steady fun _ _ => noteCall_steady
  | .unknown i name, s => .bind .orCrash fun _ _ => .refuseAt

theorem rvalues_steady (hem : EmitterSteady p R emitFunction) : (es : List Expr) → ∀ {s : State},
    Steady p true R s (Lower.rvalues p emitFunction es)
  | [], s => .pure
  | e :: es, s => by
    rw [Lower.rvalues]
    exact .bind (lvalue_steady hem e) fun _ _ => .bind loaded_steady fun _ _ =>
      .bind (rvalues_steady hem es) fun _ _ => .pure

end

theorem rvalue_steady (hem : EmitterSteady p R emitFunction) (e : Expr) :
    Steady p true R s (Lower.rvalue p emitFunction e) :=
  .bind (lvalue_steady hem e) fun _ _ => loaded_steady

/-! ## Statements -/

theorem declareVariable_steady (hem : EmitterSteady p R emitFunction) {isConst : Bool} {k : ScopeId}
    {d : Variable} : Steady p true R s (Lower.declareVariable p emitFunction isConst k d) := by
  unfold Lower.declareVariable
  split
  · exact .bind .orCrash fun _ _ => .refuseAt
  · refine .bind (rvalue_steady hem _) fun v _ => ?_
    split
    · exact .bind nameResult_steady fun _ _ => .bind (.orAt bindName_steady) fun _ _ =>
        noteVariable_steady
    · exact .bind newSlot_steady fun _ _ => .bind store_steady fun _ _ =>
        .bind (.orAt bindName_steady) fun _ _ => noteVariable_steady

theorem returnFrom_steady (hem : EmitterSteady p R emitFunction) {i : NodeInfo} {e? : Option Expr} :
    Steady p true R s (Lower.returnFrom p emitFunction i e?) := by
  refine .get_bind ?_
  cases e? with
  | none =>
    dsimp only
    split
    · exact .bind .orCrash fun _ _ => .bind .refuseAt fun _ _ => terminate_steady
    · exact terminate_steady
  | some e =>
    dsimp only
    split
    · exact .bind .orCrash fun _ _ => .bind .refuseAt fun _ _ =>
        .bind (rvalue_steady hem e) fun _ _ => terminate_steady
    · exact .bind (rvalue_steady hem e) fun _ _ => terminate_steady

theorem namespaceOf_steady {decl : Node} {name : String} {container : ScopeId} :
    Steady p declares R s (Lower.namespaceOf decl name container) := by
  refine .bind lookupIn_steady fun b? _ => ?_
  split
  · exact .pure
  · exact bindNewScope_steady

theorem atTop_steady {α : Type} {k : ScopeId} {x : Lower α} (h : ∀ t, Steady p declares R t x) :
    Steady p declares R s (do
      if k = Environment.global then Lower.moveToEntry
      x) := by
  dsimp only
  split
  · exact .bind moveToEntry_steady fun _ => h
  · exact h s

mutual

theorem statement_steady (hem : EmitterSteady p R emitFunction) :
    (st : Stmt) → ∀ {s : State} {k : ScopeId},
    Steady p true R s (Lower.statement p emitFunction k st)
  | .endOfFile _, s, k => .pure
  | .function .., s, k => .pure
  | .classDecl i name params isAmbient members, s, k => by
    rw [Lower.statement]
    split
    · exact .bind debug_steady fun _ _ => .pure
    · exact classScope_steady
  | .interfaceDecl i name params members, s, k => .bind interfaceScope_steady fun _ _ => .pure
  | .namespaceDecl i name isAmbient body, s, k => by
    rw [Lower.statement]
    exact .bind namespaceOf_steady fun _ _ =>
      .bind (.enter fun _ => statements_steady hem body) fun _ _ => .pure
  | .variableDecl i isConst ds, s, k => by
    rw [Lower.statement]
    exact atTop_steady fun _ => .bind (.forM fun d _ _ => declareVariable_steady hem) fun _ _ =>
      .pure
  | .expression i e, s, k => by
    rw [Lower.statement]
    exact atTop_steady fun _ => .bind (.discard (lvalue_steady hem e)) fun _ _ => .pure
  | .block (.mk i ss), s, k => by
    rw [Lower.statement]
    exact atTop_steady fun _ =>
      .bind (withScope_steady fun _ _ => statements_steady hem ss) fun _ _ => .pure
  | .ret i e, s, k => by
    rw [Lower.statement]
    exact atTop_steady fun _ => .bind (returnFrom_steady hem) fun _ _ => .pure
  | .ifElse .., s, k => by
    rw [Lower.statement]
    exact atTop_steady fun _ => .pure
  | .whileLoop .., s, k => by
    rw [Lower.statement]
    exact atTop_steady fun _ => .pure
  | .unknown .., s, k => .pure

theorem statements_steady (hem : EmitterSteady p R emitFunction) :
    (ss : List Stmt) → ∀ {s : State} {k : ScopeId},
    Steady p true R s (Lower.statements p emitFunction k ss)
  | [], s, k => .pure
  | st :: ss, s, k => by
    rw [Lower.statements]
    refine .bind isTerminated_steady fun _ _ => .get_bind ?_
    split
    · exact .bind debug_steady fun _ _ => .pure
    · refine .bind (statement_steady hem st) fun outcome _ => ?_
      split
      · exact .bind .orCrash fun _ _ => .bind warn_steady fun _ _ => statements_steady hem ss
      · exact statements_steady hem ss

end

/-! ## Functions -/

theorem returnType_steady {decl : Node} {shape : FunctionShape} {signature : Signature}
    {owner? : Option TypeId} {receiver? : Option Ty} :
    Steady p declares R s (Lower.returnType p decl shape signature owner? receiver?) := by
  unfold Lower.returnType
  split
  · exact .bind .orCrash fun _ _ => .pure
  · split
    · exact .bind type_steady fun _ _ => .pure
    · exact .bind .orCrash fun owner _ =>
        .bind (.answered fun h => h.isSome_typeText owner) fun _ _ => .refuseAt
  all_goals exact type_steady

theorem receiverParam_steady {decl : Place} {shape : FunctionShape} {receiver? : Option Ty} :
    Steady p declares R s (Lower.receiverParam decl shape receiver?) := by
  unfold Lower.receiverParam
  split
  · exact .pure
  · split
    · refine .bind (.bind isValueType_steady fun isValue _ => ?_) fun _ _ => .pure
      split <;> exact .pure
    · exact .bind .orCrash fun _ _ => .refuseAt

theorem storeProperty_steady {owner : TypeId} {r : RecordId} {this v : Value} {name : String} :
    Steady p declares R s (Lower.storeProperty p owner r this name v) := by
  unfold Lower.storeProperty
  split
  · exact .bind (.answered fun h => h.isSome_typeText owner) fun _ _ => .refuse
  · exact .bind fieldAddress_steady fun _ _ => store_steady

theorem storeParams_steady {f : FuncId} {owner : TypeId} {r : RecordId} {this : Value}
    {qs : List Program.Param} :
    ∀ {s : State} {index : Nat},
      Steady p declares R s (Lower.storeParams p f owner r this index qs) := by
  induction qs with
  | nil => exact .pure
  | cons q qs ih =>
    intro s index
    unfold Lower.storeParams
    split
    · refine .bind func_steady fun fn _ => ?_
      split
      · exact .bind storeProperty_steady fun _ _ => ih
      · exact ih
    · exact ih

theorem storeInitializers_steady (hem : EmitterSteady p R emitFunction) {owner : TypeId}
    {r : RecordId} {this : Value} {ms : List Member} :
    ∀ {s : State}, Steady p true R s (Lower.storeInitializers p emitFunction owner r this ms) := by
  induction ms with
  | nil => exact .pure
  | cons m ms ih =>
    intro s
    unfold Lower.storeInitializers
    split
    · exact .pure
    · rename_i heq
      obtain ⟨-, rfl⟩ := List.cons_eq_cons.1 heq
      exact .bind (rvalue_steady hem _) fun _ _ => .bind storeProperty_steady fun _ _ => ih
    · rename_i heq
      obtain ⟨-, rfl⟩ := List.cons_eq_cons.1 heq
      exact ih

theorem constructObject_steady (hem : EmitterSteady p R emitFunction) {e : Emission} {f : FuncId}
    {k : ScopeId} : Steady p true R s (Lower.constructObject p emitFunction e f k) := by
  refine .bind .orCrash fun ty _ => .bind .orCrash fun owner _ =>
    .bind allocate_steady fun this _ =>
    .bind (.aside rfl rfl) fun _ _ => .bind bindName_steady fun _ _ => ?_
  split
  · refine .bind storeParams_steady fun _ _ => ?_
    split
    · exact storeInitializers_steady hem
    · exact .pure
  · exact .crash

theorem bindParams_steady {f : FuncId} {k : ScopeId} {names : List String} :
    ∀ {s : State} {index : Nat} {qs : List Ir.Param},
    Steady p declares R s (Lower.bindParams f k index names qs) := by
  induction names with
  | nil =>
    intro s index qs
    unfold Lower.bindParams
    exact .pure
  | cons name names ih =>
    intro s index qs
    cases qs with
    | nil => exact .pure
    | cons q qs =>
      unfold Lower.bindParams
      split
      · exact .bind bindName_steady fun _ _ => .bind (.discard localName_steady) fun _ _ => ih
      · exact ih

theorem statements_then_steady (hem : EmitterSteady p R emitFunction) {k : ScopeId} {ss : List Stmt}
    {x : Lower Unit} (hx : ∀ t, Steady p true R t x) : Steady p true R s (do
      Lower.statements p emitFunction k ss
      if ! (← Lower.isTerminated) then x) := by
  refine .bind (statements_steady hem ss) fun _ _ => .bind isTerminated_steady fun ended t => ?_
  split
  · exact hx t
  · exact .pure

theorem emitBody_steady (hem : EmitterSteady p R emitFunction) {e : Emission} {f : FuncId}
    {body : Program.Block}
    {k : ScopeId} : Steady p true R s (Lower.emitBody p emitFunction e f body k) := by
  have returnThis (t : State) : Steady p true R t (do Lower.terminate (.ret (← get).frame.this?)) :=
    .get_bind terminate_steady
  have fallOff (t : State) : Steady p true R t
      (do if (← Lower.func f).returns.isMatch (← get).module.records .void then
            Lower.terminate (.ret none)
          else Lower.terminate .unreachable) := by
    refine .bind func_steady fun _ _ => .get_bind ?_
    split <;> exact terminate_steady
  refine .bind func_steady fun fn _ => .bind bindParams_steady fun _ _ =>
    .bind newBlock_steady fun block _ =>
    .bind (.aside rfl rfl) fun _ _ => ?_
  dsimp only
  split
  · exact .bind (constructObject_steady hem) fun _ _ => statements_then_steady hem returnThis
  · split
    · exact .bind func_steady fun _ _ => .bind .orCrash fun _ _ => .bind (.aside rfl rfl) fun _ _ =>
        statements_then_steady hem fallOff
    · exact statements_then_steady hem fallOff

theorem tables_eqUpToNumbers {m : Module} (h : s.module.EqUpToNumbers m) :
    { s with module := m }.tables = s.tables := by
  have hheaders := congrArg (List.map fun v => (v.1.1, v.1.2.1)) h.funcs
  rw [List.map_map, List.map_map] at hheaders
  unfold State.tables
  dsimp only
  rw [h.records, h.typeDefs, h.globals]
  exact congrArg (fun headers => Tables.mk _ _ headers _ _ _ _ _ _ _ _) hheaders

theorem verifyFunc_steady {e : Emission} {f : FuncId} :
    Steady p declares R s (Lower.verifyFunc e f) := by
  refine .get_bind ?_
  dsimp only
  split
  · exact .pure
  · refine .bind_of func_steady fun fn t ht _ => ?_
    obtain ⟨-, rfl⟩ := ht.func
    split
    · refine .bind_of .orCrash fun shown u hu _ => ?_
      obtain ⟨hshown, rfl⟩ := hu.orCrash
      obtain ⟨text, m⟩ := shown
      exact .bind (.aside (tables_eqUpToNumbers (Module.eqUpToNumbers_printFunc hshown)) rfl)
        fun _ _ => .throw fun _ => nofun
    · exact .throw fun _ => nofun

/-! ## Emission -/

theorem Emission.registers_declare (e : Emission) (returns : Ty) (params : List Ty)
    (hnew : s.funcs.lookup e.name = none) (hname : NamedRequest p e.name ⟨e.decl, e.owner?⟩) :
    Registers p true s.tables (e.declare returns params s).tables :=
  registers_func (e.func returns params) (some ⟨e.decl, e.owner?⟩) hnew
    (fun r hr => Option.some.inj hr ▸ hname) fun h => by cases h

theorem Emission.isSome_lookup_declare (e : Emission) {returns : Ty} {params : List Ty} :
    ((e.declare returns params s).tables.funcs.lookup e.name).isSome := by
  simp [Emission.declare, State.tables, List.lookup_append]

/-- The function is entered before its body is lowered, with as much room as is left then. -/
theorem defineFunc_steady (hem : EmitterSteady p R' emitFunction) {e : Emission} {returns : Ty}
    {params : List Ty}
    (hnew : s.funcs.lookup e.name = none) (hname : NamedRequest p e.name ⟨e.decl, e.owner?⟩)
    (hroom : ∀ T U, T.Grows p true U → T.funcs.lookup e.name = none →
      (U.funcs.lookup e.name).isSome → R.holds T → R'.holds U) :
    Steady p true R s (Lower.defineFunc p emitFunction e returns params) := by
  have hstep := e.registers_declare returns params hnew hname
  refine .step_room (y := emitDeclared p emitFunction e s.module.funcs.length) hstep rfl (by rfl)
    (hroom _ _ (.single hstep) hnew e.isSome_lookup_declare) (.bind debug_steady fun _ _ => ?_)
  split
  · exact .pure
  · exact .bind (.detached fun _ => insideNamespaces_steady fun _ => withScope_steady fun _ _ =>
      emitBody_steady hem) fun _ _ => .bind verifyFunc_steady fun _ _ => .pure

def emissionOf (p : Program) (decl : Place) (function : FunctionLike) (owner? : Option TypeId)
    (args : List (Option TypeId)) (name : String) (parent : ScopeId) :
    Lower (Emission × Ty × List Ty) := do
  let receiver? ← owner?.mapM (Lower.receiverRecord p parent)
  let signature := p.signature decl.node function
  let returns ← Lower.returnType p decl.node function.shape signature owner? receiver?
  let receiver ← Lower.receiverParam decl function.shape receiver?
  let params := receiver ++ (← args.mapM (Lower.type p))
  let names :=
    (if function.shape.takesReceiver then ["this"] else []) ++ signature.params.map SymbolInfo.name
  return (⟨decl, function, owner?, name, receiver?, names⟩, returns, params)

section
variable {decl : Place} {function : FunctionLike} {owner? : Option TypeId}
  {args : List (Option TypeId)} {name : String} {parent : ScopeId}

theorem emitNew_eq [v : Viewpoint] :
    Lower.emitNew p emitFunction decl function owner? args name parent =
    emissionOf p decl function owner? args name parent >>= fun e =>
      Lower.defineFunc p emitFunction e.1 e.2.1 e.2.2 := by
  simp only [Lower.emitNew, emissionOf, bind_assoc, pure_bind]

theorem emissionOf_steady :
    Steady p declares R s (emissionOf p decl function owner? args name parent) := by
  refine .bind ?_ fun receiver? _ => .bind returnType_steady fun returns _ =>
    .bind receiverParam_steady fun own _ =>
    .bind (.mapM fun _ _ _ => type_steady) fun types _ => .pure
  cases owner? with
  | none => exact .pure
  | some owner => exact .map receiverRecord_steady

theorem Gives.emission {e : Emission × Ty × List Ty}
    (h : Gives (emissionOf p decl function owner? args name parent) s e t) :
    e.1.decl = decl ∧ e.1.owner? = owner? ∧ e.1.name = name := by
  obtain ⟨receiver?, s1, -, h⟩ := h.bind
  obtain ⟨returns, s2, -, h⟩ := h.bind
  obtain ⟨own, s3, -, h⟩ := h.bind
  obtain ⟨types, s4, -, h⟩ := h.bind
  obtain ⟨rfl, -⟩ := h.pure
  exact ⟨rfl, rfl, rfl⟩

theorem Gives.free_emissionOf {e : Emission × Ty × List Ty}
    (h : Gives (emissionOf p decl function owner? args name parent) s e t)
    (hnew : s.funcs.lookup name = none) (hname : NamedRequest p name ⟨decl, owner?⟩) :
    t.funcs.lookup e.1.name = none ∧ NamedRequest p e.1.name ⟨e.1.decl, e.1.owner?⟩ := by
  obtain ⟨hdecl, howner, hn⟩ := h.emission
  have hgrows :
      s.tables.Grows p false t.tables := ((emissionOf_steady (R := Room.never)).gives h).tables
  refine ⟨?_, by rwa [hdecl, howner, hn]⟩
  change t.tables.funcs.lookup e.1.name = none
  rw [hgrows.funcs_eq, hn]
  exact hnew

theorem emitNew_steady (hem : EmitterSteady p R' emitFunction) (hnew : s.funcs.lookup name = none)
    (hname : NamedRequest p name ⟨decl, owner?⟩)
    (hroom : ∀ T U, T.Grows p true U → T.funcs.lookup name = none → (U.funcs.lookup name).isSome →
      R.holds T → R'.holds U) :
    Steady p true R s (Lower.emitNew p emitFunction decl function owner? args name parent) := by
  rw [emitNew_eq]
  refine .bind_of emissionOf_steady fun e t he _ => ?_
  obtain ⟨hfree, hmangled⟩ := he.free_emissionOf hnew hname
  exact defineFunc_steady hem hfree hmangled (he.emission.2.2 ▸ hroom)

end

theorem Gives.free_declaringScope {decl : Place} {owner? : Option TypeId} {parent : ScopeId}
    {name : String} (h : Gives (Lower.declaringScope p decl owner?) s parent t)
    (hnew : s.funcs.lookup name = none) : t.funcs.lookup name = none := by
  have hgrows :
      s.tables.Grows p false t.tables := ((declaringScope_steady (R := Room.never)).gives h).tables
  change t.tables.funcs.lookup name = none
  rw [hgrows.funcs_eq]
  exact hnew

/-- Each emission inside another leaves one less. -/
theorem emitTo_steady (depth : Nat) :
    EmitterSteady p (.emissions p depth) (Lower.emitTo p depth) := by
  induction depth with
  | zero => exact fun d owner? args s _ => .throw fun h => absurd h.2 (Nat.not_lt_zero _)
  | succ depth ih =>
    intro d owner? args s hrequest
    unfold Lower.emitTo
    split
    · exact .refuseAt
    rename_i function hfunction
    refine .bind_of (.ofExcept fun h => h.mangledFunction_ne_exhausted d owner?)
      fun name t hname _ => .get_bind ?_
    obtain ⟨hmangled, rfl⟩ := hname.ofExcept
    split
    · exact .pure
    rename_i hnew
    refine .bind_of declaringScope_steady fun parent t hparent _ => ?_
    have hfree := hparent.free_declaringScope hnew
    have bound {g : FuncId} {t : State} : Steady p true (.emissions p (depth + 1)) t
        (do let base ← Lower.orCrash d.node.baseName
            Action.bindName parent base (.value (← Lower.funcValue g))
            return g) :=
      .bind .orCrash fun _ _ => .bind funcValue_steady fun _ _ =>
        .bind bindName_steady fun _ _ => .pure
    have hroom := Room.emissions_succ depth (mem_emissionNames hrequest.mem_places hmangled)
    dsimp only
    split
    · exact .bind builtin_steady fun _ _ => bound
    · exact .bind (emitNew_steady ih hfree ⟨hrequest, hmangled⟩ hroom) fun _ _ => bound

theorem emitFunction_steady :
    EmitterSteady p R (Lower.emitFunction p) := fun d owner? args s hrequest =>
  (emitTo_steady _ d owner? args s hrequest).weaken fun h => Room.emissions_holds (R.acyclic _ h) _

/-! ## Whole programs -/

theorem checkConfig_steady : Steady p declares R s Lower.checkConfig := by
  refine .get_bind ?_
  split
  · exact .refuse
  · exact .pure

theorem generate_steady {file : SourceFile} : Steady p true R s (Lower.generate p file) := by
  have rest {t : State} : Steady p true R t (do
      Lower.debug ("generating " ++ file.name ++ " (" ++ toString file.statements.length ++
        " statements)")
      Lower.statements p (Lower.emitFunction p) Environment.global file.statements) :=
    .bind debug_steady fun _ _ => statements_steady emitFunction_steady file.statements
  refine .bind checkConfig_steady fun _ _ => .get_bind ?_
  dsimp only
  split
  · exact .bind .refuse fun _ _ => rest
  · exact rest

theorem verify_eqUpToNumbers (m : Module) : m.EqUpToNumbers m.verify.2 := by
  unfold Module.verify
  split
  · exact .refl m
  · dsimp only
    split
    · split
      · exact Module.eqUpToNumbers_print (by assumption)
      · exact .refl m
    · exact .refl m

theorem verify_ne_exhausted (m : Module) : m.verify.1 ≠ .error .exhausted := by
  unfold Module.verify
  split
  · nofun
  · dsimp only
    split
    · split <;> nofun
    · nofun

theorem verifyModule_steady : Steady p declares R s Lower.verifyModule :=
  .get_bind (.bind (.aside (tables_eqUpToNumbers (verify_eqUpToNumbers s.module)) rfl) fun _ _ =>
    .ofExcept fun _ => verify_ne_exhausted s.module)

theorem finish_steady : Steady p declares R s Lower.finish := by
  refine .bind checkConfig_steady fun _ _ => .get_bind ?_
  dsimp only
  split
  · exact .bind func_steady fun _ _ => .bind modifyBlock_steady fun _ _ =>
      .bind (.aside rfl rfl) fun _ _ => verifyModule_steady
  · exact verifyModule_steady

end

end CheckedIR.Lowering

import CheckedIR.Proofs.Lowering.Levels
import CheckedIR.Proofs.Sessions

/-!
# Expressions are one load away

An expression lowers to something that is near, whether it is looked up, called or addressed, and a
load makes it a loaded value. What is bound afterwards is near again, so a lowering is level in all
its sessions.
-/

namespace CheckedIR.Lowering

open CheckedIR.Ir CheckedIR.Program CheckedIR.Scope CheckedIR.Scope.Action

def EmitterStaysLevel (emitFunction : Emitter) : Prop :=
  ∀ d owner? args s, StaysLevel s (emitFunction d owner? args) fun _ _ => True

section
variable {p : Program} {emitFunction : Emitter} {s t : State}

/-! ## Operators and members -/

theorem plus_level {span : Span} {l r : Value} :
    StaysLevel s (Lower.plus span l r) fun v t => t.tables.IsNear v.type := by
  unfold Lower.plus
  split
  · exact emit_near (.inl trivial)
  · refine .bind isString_level fun _ _ _ _ => .bind isString_level fun _ _ _ _ => ?_
    split
    · exact .bind builtin_level fun _ _ _ _ => call_level
    · exact .bind typeText_level fun _ _ _ _ => .bind typeText_level fun _ _ _ _ => .refuseAt

theorem binary_level {operator : String} {span : Span} {l r : Value} :
    StaysLevel s (Lower.binary operator span l r) fun v t => t.tables.IsNear v.type := by
  have checked {op : Op} {ty : Ty} (hty : s.tables.IsLoaded ty) : StaysLevel s (do
      if l.type.isDouble && r.type.isDouble then Lower.emit op ty
      else
        Lower.refuseAt
          (.invalidOperands operator (← Lower.typeText l.type) (← Lower.typeText r.type)) span)
      fun v t => t.tables.IsNear v.type := by
    split
    · exact emit_near hty.near
    · exact .bind typeText_level fun _ _ _ _ => .bind typeText_level fun _ _ _ _ => .refuseAt
  unfold Lower.binary
  split
  · exact plus_level
  dsimp only
  split
  · exact checked (show s.tables.IsLoaded .i1 from trivial)
  · exact checked (show s.tables.IsLoaded .double from trivial)
  · exact .refuseAt

theorem scopeMember_level {span : Span} {k : ScopeId} {name : String} {source : Option String} :
    StaysLevel s (Lower.scopeMember span k name source) fun v t => t.tables.IsNear v.type := by
  refine .orAt
    (.get_bind (.bind (Q := fun b t => ∀ v, b = .value v →
      t.tables.IsNear v.type) (.ofCause fun hs b hb v hv => ?_)
    fun b _ _ hb => ?_))
  · obtain ⟨k', n, hk⟩ := exists_lookupIn_of_resolveIn hb
    exact hs.names k' n v (hv ▸ hk)
  split
  · exact .orCrash_bind fun _ => .refuse
  · exact .orCrash_bind fun _ => localValue_level (hb _ rfl)
  · exact .crash

theorem valueMember_level {span : Span} {owner : TypeId} {v : Value} {name : String} :
    StaysLevel s (Lower.valueMember p span owner v name) fun v t => t.tables.IsNear v.type := by
  have unknown {t : State} : StaysLevel t
      (do Lower.refuseAt (.unknownMember name (← Lower.answered (p.typeText owner))) span)
      fun (v : Value) t => t.tables.IsNear v.type :=
    .bind .answered fun _ _ _ _ => .refuseAt
  refine .bind isString_level fun isString t _ _ => ?_
  split
  · exact .bind emit_level fun _ _ _ _ => emit_near (.inl trivial)
  · dsimp only
    split
    · refine .get_bind ?_
      split
      · exact unknown
      · split
        · exact unknown
        · exact fieldAddress_level
    · exact unknown

/-! ## Callees -/

theorem constructorOf_level {span : Span} {callee : Expr} :
    StaysLevel s (Lower.constructorOf p span callee) fun _ _ => True := by
  have notClass :
      StaysLevel s
      (do Lower.refuseAt (.notClass (← Lower.answered (p.typeText callee.type))) span : Lower Place)
      fun _ _ => True := .bind .answered fun _ _ _ _ => .refuseAt
  unfold Lower.constructorOf
  dsimp only
  split
  · exact notClass
  · split
    · split
      · exact .pure fun _ => trivial
      · exact .refuseAt
    · exact notClass

theorem calledFunction_level {span : Span} {callee : Expr} :
    StaysLevel s (Lower.calledFunction p span callee) fun _ _ => True := by
  have invalid :
      StaysLevel s
      (do Lower.refuseAt (.invalidCallTarget (← Lower.orCrash callee.source)) span : Lower Place)
      fun _ _ => True := .orCrash_bind fun _ => .refuseAt
  unfold Lower.calledFunction
  split
  · split
    · exact .pure fun _ => trivial
    · exact invalid
  · exact invalid

/-! ## Expressions -/

theorem notedCall_level {e : Expr} {g : FuncId} {args : List Value} :
    StaysLevel s (do Lower.noteCall e (← Lower.call g args)) fun v t => t.tables.IsNear v.type :=
  .bind call_level fun _ _ _ hv => noteCall_level hv

mutual

theorem lvalue_level (hem : EmitterStaysLevel emitFunction) : (e : Expr) → ∀ {s : State},
    StaysLevel s (Lower.lvalue p emitFunction e) fun v t => t.tables.IsNear v.type
  | .missing, s => .crash
  | .numeric _ x, s => .pure fun _ => .inl trivial
  | .boolean _ b, s => .pure fun _ => .inl trivial
  | .text _ text, s => .bind stringConstant_level fun _ _ _ hc => .pure fun _ => hc.near
  | .ident i name, s => lookupValue_level
  | .this i, s => lookupValue_level
  | .binary i operator l r, s => by
    rw [Lower.lvalue]
    split
    · exact .refuseAt_bind
    · exact .bind (lvalue_level hem l) fun _ _ _ hl => .bind (loaded_level hl) fun _ _ _ _ =>
        .bind (lvalue_level hem r) fun _ _ _ hr => .bind (loaded_level hr) fun _ _ _ _ =>
          binary_level
  | .unary i operator x, s => by
    rw [Lower.lvalue]
    split
    · exact .refuseAt_bind
    · exact .bind (lvalue_level hem x) fun _ _ _ hx => (loaded_level hx).mono fun _ _ _ hv =>
        hv.near
  | .member i object name, s => by
    rw [Lower.lvalue]
    refine .bind (scopeOf?_level object) fun k? _ _ _ => ?_
    split
    · exact scopeMember_level
    · split
      · exact .orCrash_bind fun _ => .refuseAt_bind
      · exact .bind (lvalue_level hem object) fun _ _ _ hv => .bind (loaded_level hv) fun _ _ _ _ =>
          valueMember_level
  | .construct i callee args, s => by
    rw [Lower.lvalue]
    exact .bind constructorOf_level fun d _ _ _ =>
      .bind (.keepingCursor (hem d _ _ _)) fun g _ _ _ =>
      .bind (rvalues_level hem args) fun vs _ _ _ => notedCall_level
  | .call i callee args, s => by
    rw [Lower.lvalue]
    refine .bind calledFunction_level fun d _ _ _ =>
      .bind (.keepingCursor (hem d _ _ _)) fun g _ _ _ => ?_
    split
    · rename_i j object name _
      exact .bind (lvalue_level hem object) fun _ _ _ hv => .bind (loaded_level hv) fun _ _ _ _ =>
        .bind (rvalues_level hem args) fun vs _ _ _ => notedCall_level
    · exact .bind (rvalues_level hem args) fun vs _ _ _ => notedCall_level
  | .unknown i name, s => .orCrash_bind fun _ => .refuseAt

theorem rvalues_level (hem : EmitterStaysLevel emitFunction) : (es : List Expr) → ∀ {s : State},
    StaysLevel s (Lower.rvalues p emitFunction es) fun _ _ => True
  | [], s => .pure fun _ => trivial
  | e :: es, s => by
    rw [Lower.rvalues]
    exact .bind (lvalue_level hem e) fun _ _ _ hv => .bind (loaded_level hv) fun _ _ _ _ =>
      .bind (rvalues_level hem es) fun _ _ _ _ => .pure fun _ => trivial

end

theorem rvalue_level (hem : EmitterStaysLevel emitFunction) (e : Expr) :
    StaysLevel s (Lower.rvalue p emitFunction e) fun v t => t.tables.IsLoaded v.type :=
  .bind (lvalue_level hem e) fun _ _ _ hv => loaded_level hv

/-! ## Statements -/

theorem declareVariable_level (hem : EmitterStaysLevel emitFunction) {isConst : Bool} {k : ScopeId}
    {d : Variable} :
    StaysLevel s (Lower.declareVariable p emitFunction isConst k d) fun _ _ => True := by
  have bound {v : Value} {t : State} (hv : t.tables.IsNear v.type) : StaysLevel t (do
      Lower.orAt d.info.span (Action.bindName k d.name (.value v))
      Lower.noteVariable d.name v) fun _ _ => True :=
    .bind (.orAt (bindValue_level hv)) fun _ _ _ _ => noteVariable_level
  unfold Lower.declareVariable
  split
  · exact .orCrash_bind fun _ => .refuseAt
  · refine .bind (rvalue_level hem _) fun v t _ hv => ?_
    split
    · exact .bind nameResult_level fun _ _ h _ => bound (hv.mono h).near
    · refine .bind newSlot_level fun slot u h hslot => .bind store_level fun _ _ h' _ => bound ?_
      rw [hslot]
      exact ((hv.mono h).mono h').pointer

theorem returnFrom_level (hem : EmitterStaysLevel emitFunction) {i : NodeInfo} {e? : Option Expr} :
    StaysLevel s (Lower.returnFrom p emitFunction i e?) fun _ _ => True := by
  refine .get_bind ?_
  cases e? with
  | none =>
    dsimp only
    split
    · exact .orCrash_bind fun _ => .refuseAt_bind
    · exact terminate_level
  | some e =>
    dsimp only
    split
    · exact .orCrash_bind fun _ => .refuseAt_bind
    · exact .bind (rvalue_level hem e) fun _ _ _ _ => terminate_level

theorem atTop_level {α : Type} {k : ScopeId} {x : Lower α} {Q : α → State → Prop}
    (h : ∀ t, StaysLevel t x Q) : StaysLevel s (do
      if k = Environment.global then Lower.moveToEntry
      x) Q := by
  dsimp only
  split
  · exact .bind moveToEntry_level fun _ t _ _ => h t
  · exact h s

mutual

theorem statement_level (hem : EmitterStaysLevel emitFunction) :
    (st : Stmt) → ∀ {s : State} {k : ScopeId},
    StaysLevel s (Lower.statement p emitFunction k st) fun _ _ => True
  | .endOfFile _, s, k => .pure fun _ => trivial
  | .function .., s, k => .pure fun _ => trivial
  | .classDecl i name params isAmbient members, s, k => by
    rw [Lower.statement]
    split
    · exact .bind debug_level fun _ _ _ _ => .pure fun _ => trivial
    · exact classScope_level
  | .interfaceDecl i name params members, s, k =>
    .bind interfaceScope_level fun _ _ _ _ => .pure fun _ => trivial
  | .namespaceDecl i name isAmbient body, s, k => by
    rw [Lower.statement]
    exact .bind namespaceOf_level fun _ _ _ _ =>
      .bind (.enter fun _ _ => statements_level hem body) fun _ _ _ _ =>
      .pure fun _ => trivial
  | .variableDecl i isConst ds, s, k => by
    rw [Lower.statement]
    exact atTop_level fun _ => .bind (.forM fun d _ _ => declareVariable_level hem) fun _ _ _ _ =>
      .pure fun _ => trivial
  | .expression i e, s, k => by
    rw [Lower.statement]
    exact atTop_level fun _ => .bind (.discard (lvalue_level hem e)) fun _ _ _ _ =>
      .pure fun _ => trivial
  | .block (.mk i ss), s, k => by
    rw [Lower.statement]
    exact atTop_level fun _ =>
      .bind (withScope_level fun _ _ _ => statements_level hem ss) fun _ _ _ _ =>
        .pure fun _ => trivial
  | .ret i e, s, k => by
    rw [Lower.statement]
    exact atTop_level fun _ => .bind (returnFrom_level hem) fun _ _ _ _ => .pure fun _ => trivial
  | .ifElse .., s, k => by
    rw [Lower.statement]
    exact atTop_level fun _ => .pure fun _ => trivial
  | .whileLoop .., s, k => by
    rw [Lower.statement]
    exact atTop_level fun _ => .pure fun _ => trivial
  | .unknown .., s, k => .pure fun _ => trivial

theorem statements_level (hem : EmitterStaysLevel emitFunction) :
    (ss : List Stmt) → ∀ {s : State} {k : ScopeId},
    StaysLevel s (Lower.statements p emitFunction k ss) fun _ _ => True
  | [], s, k => .pure fun _ => trivial
  | st :: ss, s, k => by
    rw [Lower.statements]
    refine .bind isTerminated_level fun _ _ _ _ => .get_bind ?_
    split
    · exact .bind debug_level fun _ _ _ _ => .pure fun _ => trivial
    · refine .bind (statement_level hem st) fun outcome _ _ _ => ?_
      split
      · exact .orCrash_bind fun _ => .bind warn_level fun _ _ _ _ =>
          statements_level hem ss
      · exact statements_level hem ss

end

/-! ## Functions -/

def Tables.HasReceiver (T : Tables) (receiver? : Option Ty) : Prop :=
  ∀ ty, receiver? = some ty → ∃ r, ty = .record r ∧ T.Has r

theorem Tables.HasReceiver.mono {T U : Tables} {receiver? : Option Ty} (hTU : T.Extends U)
    (h : T.HasReceiver receiver?) : U.HasReceiver receiver? := by
  intro ty hty
  obtain ⟨r, hr, hhas⟩ := h ty hty
  exact ⟨r, hr, hhas.mono hTU⟩

theorem Tables.HasReceiver.pointer {T : Tables} {receiver? : Option Ty} {ty : Ty}
    (h : T.HasReceiver receiver?) (hty : receiver? = some ty) : T.IsNear (.pointer ty) := by
  obtain ⟨r, rfl, hhas⟩ := h ty hty
  exact hhas.near

theorem returnType_level {decl : Node} {shape : FunctionShape} {signature : Signature}
    {owner? : Option TypeId} {receiver? : Option Ty} (hreceiver : s.tables.HasReceiver receiver?) :
    StaysLevel s (Lower.returnType p decl shape signature owner? receiver?) fun ty t =>
      t.tables.IsNear ty := by
  unfold Lower.returnType
  split
  · exact .bind (Q := fun ty t => t.tables.IsNear (.pointer ty))
      (.orCrash fun _ _ => hreceiver.pointer) fun _ _ _ hty =>
      .pure fun _ => hty
  · split
    · exact .bind type_level fun _ _ _ hty => .pure fun _ => hty.pointer
    · exact .orCrash_bind fun _ => .bind .answered fun _ _ _ _ => .refuseAt
  all_goals exact type_level.mono fun _ _ _ hty => hty.near

theorem receiverParam_level {decl : Place} {shape : FunctionShape} {receiver? : Option Ty}
    (hreceiver : s.tables.HasReceiver receiver?) :
    StaysLevel s (Lower.receiverParam decl shape receiver?) fun ts t => ∀ ty ∈ ts,
      t.tables.IsNear ty := by
  unfold Lower.receiverParam
  split
  · exact .pure fun _ => nofun
  · split
    · rename_i ty
      obtain ⟨r, rfl, hhas⟩ := hreceiver ty rfl
      refine .bind (Q := fun ty t => t.tables.IsNear ty)
        (.bind isValueType_level fun isValue t h hvalue => .pure fun _ => ?_)
        fun _ _ _ hty => .pure fun _ => List.forall_mem_singleton.2 hty
      split
      · rename_i hpasses
        exact .inl (Tables.passes_record.1 (hvalue ▸ hpasses))
      · exact (hhas.mono h).near
    · exact .orCrash_bind fun _ => .refuseAt

theorem emissionOf_level {decl : Place} {function : FunctionLike} {owner? : Option TypeId}
    {args : List (Option TypeId)} {name : String} {parent : ScopeId} :
    StaysLevel s (emissionOf p decl function owner? args name parent) fun e t =>
      t.tables.HasReceiver e.1.receiver? ∧ t.tables.IsNear e.2.1 ∧
      ∀ ty ∈ e.2.2, t.tables.IsNear ty := by
  have receiver : StaysLevel s (owner?.mapM (Lower.receiverRecord p parent)) fun receiver? t =>
      t.tables.HasReceiver receiver? := by
    cases owner? with
    | none => exact .pure fun _ => nofun
    | some owner =>
      exact .map (receiverRecord_level.mono fun _ _ _ h _ hty => Option.some.inj hty ▸ h)
  refine .bind receiver fun receiver? _ _ hreceiver =>
    .bind (returnType_level hreceiver) fun returns _ h₁ hreturns =>
    .bind (receiverParam_level (hreceiver.mono h₁)) fun own _ h₂ hown =>
      .bind (.mapM (P := fun ty t => t.tables.IsLoaded ty)
      (fun ty t u h (hty : t.tables.IsLoaded ty) => hty.mono h) fun _ _ _ => type_level)
        fun types _ h₃ htypes =>
    .pure fun _ =>
      ⟨((hreceiver.mono h₁).mono h₂).mono h₃, (hreturns.mono h₂).mono h₃, fun ty hty => ?_⟩
  exact (List.mem_append.1 hty).elim (fun hty => (hown ty hty).mono h₃) fun hty =>
    (htypes ty hty).near

theorem storeProperty_level {owner : TypeId} {r : RecordId} {this v : Value} {name : String} :
    StaysLevel s (Lower.storeProperty p owner r this name v) fun _ _ => True := by
  unfold Lower.storeProperty
  split
  · exact .bind .answered fun _ _ _ _ => .refuse
  · exact .bind fieldAddress_level fun _ _ _ _ => store_level

theorem storeParams_level {f : FuncId} {owner : TypeId} {r : RecordId} {this : Value}
    {qs : List Program.Param} :
    ∀ {s : State} {index : Nat},
      StaysLevel s (Lower.storeParams p f owner r this index qs) fun _ _ => True := by
  induction qs with
  | nil => exact .pure fun _ => trivial
  | cons q qs ih =>
    intro s index
    unfold Lower.storeParams
    split
    · refine .bind func_level fun fn _ _ _ => ?_
      split
      · exact .bind storeProperty_level fun _ _ _ _ => ih
      · exact ih
    · exact ih

theorem storeInitializers_level (hem : EmitterStaysLevel emitFunction) {owner : TypeId}
    {r : RecordId} {this : Value} {ms : List Member} :
    ∀ {s : State}, StaysLevel s (Lower.storeInitializers p emitFunction owner r this ms) fun _ _ =>
      True := by
  induction ms with
  | nil => exact .pure fun _ => trivial
  | cons m ms ih =>
    intro s
    unfold Lower.storeInitializers
    split
    · exact .pure fun _ => trivial
    · rename_i heq
      obtain ⟨-, rfl⟩ := List.cons_eq_cons.1 heq
      exact .bind (rvalue_level hem _) fun _ _ _ _ => .bind storeProperty_level fun _ _ _ _ => ih
    · rename_i heq
      obtain ⟨-, rfl⟩ := List.cons_eq_cons.1 heq
      exact ih

def beginObject (p : Program) (e : Emission) (f : FuncId) (k : ScopeId) :
    Lower (TypeId × RecordId × Value) := do
  let t ← Lower.orCrash e.receiver?
  let owner ← Lower.orCrash e.owner?
  let this ← Lower.allocate t
  modify fun s => { s with frame := { s.frame with this? := some this } }
  Action.bindName k "this" (.value this)
  match t with
  | .record r =>
    Lower.storeParams p f owner r this 0 e.function.params
    return (owner, r, this)
  | _ => Lower.crash

theorem constructObject_eq {e : Emission} {f : FuncId} {k : ScopeId} :
    Lower.constructObject p emitFunction e f k =
    beginObject p e f k >>= fun o =>
      match e.decl.parent? with
      | some (.stmt (.classDecl _ _ _ _ members)) =>
        Lower.storeInitializers p emitFunction o.1 o.2.1 o.2.2 members
      | _ => pure () := by
  unfold Lower.constructObject beginObject
  simp only [bind_assoc]
  refine bind_congr fun t => bind_congr fun owner => bind_congr fun this => bind_congr fun _ =>
    bind_congr fun _ => ?_
  cases t with
  | record r =>
    refine Eq.trans (bind_congr fun _ => ?_) (bind_assoc _ _ _).symm
    exact (pure_bind _ _).symm
  | _ => rfl

theorem beginObject_level {e : Emission} {f : FuncId} {k : ScopeId}
    (hreceiver : s.tables.HasReceiver e.receiver?) :
    StaysLevel s (beginObject p e f k) fun _ _ => True := by
  refine .bind (Q := fun ty t => t.tables.IsNear (.pointer ty))
    (.orCrash fun _ _ => hreceiver.pointer) fun ty _ _ hty =>
    .orCrash_bind fun owner => .bind allocate_level fun this _ h₁ hthis =>
      .bind (.aside rfl rfl rfl) fun _ _ h₂ _ =>
    .bind (bindValue_level ?_) fun _ _ _ _ => ?_
  · rw [hthis]
    exact (hty.mono h₁).mono h₂
  · split
    · exact .bind storeParams_level fun _ _ _ _ => .pure fun _ => trivial
    · exact .crash

theorem constructObject_level (hem : EmitterStaysLevel emitFunction) {e : Emission} {f : FuncId}
    {k : ScopeId} (hreceiver : s.tables.HasReceiver e.receiver?) :
    StaysLevel s (Lower.constructObject p emitFunction e f k) fun _ _ => True := by
  rw [constructObject_eq]
  refine .bind (beginObject_level hreceiver) fun _ _ _ _ => ?_
  split
  · exact storeInitializers_level hem
  · exact .pure fun _ => trivial

theorem bindParams_level {f : FuncId} {k : ScopeId} {names : List String} :
    ∀ {s : State} {index : Nat} {qs : List Ir.Param},
    (∀ q ∈ qs, s.tables.IsNear q.type) →
    StaysLevel s (Lower.bindParams f k index names qs) fun _ _ => True := by
  induction names with
  | nil =>
    intro s index qs hqs
    unfold Lower.bindParams
    exact .pure fun _ => trivial
  | cons name names ih =>
    intro s index qs hqs
    cases qs with
    | nil => exact .pure fun _ => trivial
    | cons q qs =>
      obtain ⟨hq, hqs⟩ := List.forall_mem_cons.1 hqs
      unfold Lower.bindParams
      split
      · exact .bind (bindValue_level hq) fun _ _ h _ =>
          .bind (.discard localName_level) fun _ _ h' _ =>
          ih fun q hq => ((hqs q hq).mono h).mono h'
      · exact ih hqs

def openBody (e : Emission) (f : FuncId) (k : ScopeId) : Lower Unit := do
  Lower.bindParams f k 0 e.names (← Lower.func f).params
  let block ← Lower.newBlock f "entry"
  modify fun s =>
    { s with cursor := ⟨f, block⟩, frame := ⟨f, none, e.function.shape = .constructor⟩ }

def beginBody (p : Program) (emitFunction : Emitter) (e : Emission) (f : FuncId) (k : ScopeId) :
    Lower Unit := do
  openBody e f k
  if e.function.shape = .constructor then Lower.constructObject p emitFunction e f k
  else if e.function.shape.takesReceiver then
    let param ← Lower.orCrash (← Lower.func f).params[0]?
    modify fun s => { s with frame := { s.frame with this? := some (.param f 0 param.type) } }

theorem emitBody_eq {e : Emission} {f : FuncId} {body : Program.Block} {k : ScopeId} :
    Lower.emitBody p emitFunction e f body k = (do
      beginBody p emitFunction e f k
      Lower.statements p emitFunction k body.statements
      if ! (← Lower.isTerminated) then
        if e.function.shape = .constructor then Lower.terminate (.ret (← get).frame.this?)
        else if (← Lower.func f).returns.isMatch (← get).module.records .void then
          Lower.terminate (.ret none)
        else Lower.terminate .unreachable) := by
  unfold Lower.emitBody beginBody openBody
  simp only [bind_assoc]
  refine bind_congr fun fn => bind_congr fun _ => bind_congr fun block => bind_congr fun _ => ?_
  by_cases hshape : e.function.shape = .constructor
  · simp only [hshape, if_true]
  · by_cases hreceiver : e.function.shape.takesReceiver = true
    · simp only [hshape, hreceiver, if_true, if_false, bind_assoc]
    · simp only [hshape, hreceiver, Bool.false_eq_true, if_false, pure_bind]

theorem openBody_level {e : Emission} {f : FuncId} {k : ScopeId} :
    StaysLevel s (openBody e f k) fun _ _ => True :=
  .bind func_level fun _ _ _ hfn => .bind (bindParams_level hfn.func.2) fun _ _ _ _ =>
    .bind newBlock_level fun _ _ _ _ => .aside rfl rfl rfl

theorem beginBody_level (hem : EmitterStaysLevel emitFunction) {e : Emission} {f : FuncId}
    {k : ScopeId} (hreceiver : s.tables.HasReceiver e.receiver?) :
    StaysLevel s (beginBody p emitFunction e f k) fun _ _ => True := by
  refine .bind openBody_level fun _ _ h _ => ?_
  split
  · exact constructObject_level hem (hreceiver.mono h)
  · split
    · exact .bind func_level fun _ _ _ _ => .orCrash_bind fun _ =>
        .aside rfl rfl rfl
    · exact .pure fun _ => trivial

theorem emitBody_level (hem : EmitterStaysLevel emitFunction) {e : Emission} {f : FuncId}
    {body : Program.Block} {k : ScopeId} (hreceiver : s.tables.HasReceiver e.receiver?) :
    StaysLevel s (Lower.emitBody p emitFunction e f body k) fun _ _ => True := by
  rw [emitBody_eq]
  refine .bind (beginBody_level hem hreceiver) fun _ _ _ _ =>
    .bind (statements_level hem body.statements) fun _ _ _ _ =>
    .bind isTerminated_level fun ended _ _ _ => ?_
  split
  · split
    · exact .get_bind terminate_level
    · refine .bind func_level fun _ _ _ _ => .get_bind ?_
      split <;> exact terminate_level
  · exact .pure fun _ => trivial

theorem setModule_level {m : Module} (hm : s.module.EqUpToNumbers m) :
    StaysLevel s (modify fun s => { s with module := m }) fun _ _ => True :=
  .aside (tables_eqUpToNumbers hm) hm.records rfl

theorem verifyFunc_level {e : Emission} {f : FuncId} :
    StaysLevel s (Lower.verifyFunc e f) fun _ _ => True := by
  refine .get_bind ?_
  dsimp only
  split
  · exact .pure fun _ => trivial
  · refine .bind_gives func_level fun fn t ht _ _ => ?_
    obtain ⟨-, rfl⟩ := ht.func
    split
    · refine .bind_gives (Q := fun _ _ => True) (.orCrash fun _ _ _ => trivial)
        fun shown u hu _ _ => ?_
      obtain ⟨hshown, rfl⟩ := hu.orCrash
      obtain ⟨text, m⟩ := shown
      exact .bind (setModule_level (Module.eqUpToNumbers_printFunc hshown)) fun _ _ _ _ => .throw
    · exact .throw

/-! ## Emission -/

theorem emitDeclared_level (hem : EmitterStaysLevel emitFunction) {e : Emission} {f : FuncId}
    (hreceiver : s.tables.HasReceiver e.receiver?) :
    StaysLevel s (emitDeclared p emitFunction e f) fun _ _ => True := by
  refine .bind debug_level fun _ _ h₁ _ => ?_
  split
  · exact .pure fun _ => trivial
  · exact .bind (.detached fun _ h₂ => insideNamespaces_level fun _ h₃ => withScope_level
      fun _ _ h₄ => emitBody_level hem
      ((((hreceiver.mono h₁).mono h₂).mono h₃).mono h₄)) fun _ _ _ _ => .bind verifyFunc_level
        fun _ _ _ _ =>
      .pure fun _ => trivial

theorem keepsLevel_declare {e : Emission} {returns : Ty} {params : List Ty} (hs : s.IsLevel)
    (hreturns : s.tables.IsNear returns)
    (hparams : ∀ ty ∈ params, s.tables.IsNear ty) : s.KeepsLevel (e.declare returns params s) := by
  let names := e.names.take params.length ++ List.replicate (params.length - e.names.length) ""
  have hdeclare : StaysLevel s (do
      let f ← Lower.newFunc e.name returns (names.zip params)
      modify fun s => { s with
        funcs := s.funcs ++ [(e.name, f)], origins := s.origins ++ [(f, ⟨e.decl, e.owner?⟩)] })
          fun _ _ => True := by
    refine .bind (newFunc_level hreturns fun q hq => hparams q.2 (List.of_mem_zip hq).2)
      fun f t _ _ => ?_
    have same := Tables.Extends.refl t.tables
    have hextends : t.tables.Extends { t.tables with
        funcs := t.tables.funcs ++ [(e.name, f)], origins :=
          t.tables.origins ++ [(f, ⟨e.decl, e.owner?⟩)] } :=
      { same with funcs := List.prefix_append _ _, origins := List.prefix_append _ _ }
    exact .keep hextends (fun ht => ht.of_extends (ht.tables.grow hextends rfl rfl fun _ _ => .inl)
      hextends rfl rfl) trivial
  exact hdeclare.keeps hs

theorem defineFunc_level (hem : EmitterStaysLevel emitFunction) {e : Emission} {returns : Ty}
    {params : List Ty}
    (hreceiver : s.tables.HasReceiver e.receiver?) (hreturns : s.tables.IsNear returns)
    (hparams : ∀ ty ∈ params, s.tables.IsNear ty) :
    StaysLevel s (Lower.defineFunc p emitFunction e returns params) fun _ _ => True := by
  intro hs
  have ht : s.KeepsLevel (e.declare returns params s) := keepsLevel_declare hs hreturns hparams
  have hrun : (Lower.defineFunc p emitFunction e returns params).run s =
      (emitDeclared p emitFunction e s.module.funcs.length).run (e.declare returns params s) := rfl
  unfold Ends
  rw [hrun]
  exact Ends.mono (emitDeclared_level hem (hreceiver.mono ht.tables) ht.level)
    (fun _ _ hu => ⟨ht.trans hu.1, trivial⟩) fun _ _ => ht.trans

theorem emitTo_level (depth : Nat) : EmitterStaysLevel (Lower.emitTo p depth) := by
  induction depth with
  | zero => exact fun d owner? args s => .throw
  | succ depth ih =>
    intro d owner? args s
    unfold Lower.emitTo
    split
    · exact .refuseAt
    refine .bind .ofExcept fun name _ _ _ => .get_bind ?_
    split
    · exact .pure fun _ => trivial
    refine .bind declaringScope_level fun parent _ _ _ => ?_
    -- whether the runtime has the function or it is emitted, its name is bound afterwards
    have bound {g : FuncId} {t : State} : StaysLevel t
        (do let base ← Lower.orCrash d.node.baseName
            Action.bindName parent base (.value (← Lower.funcValue g))
            return g) fun _ _ => True :=
      .orCrash_bind fun _ => .bind funcValue_level fun _ _ _ hv =>
        .bind (bindValue_level hv) fun _ _ _ _ => .pure fun _ => trivial
    dsimp only
    split
    · exact .bind builtin_level fun _ _ _ _ => bound
    · rw [emitNew_eq]
      exact .bind (.bind emissionOf_level fun e _ _ he => defineFunc_level ih he.1 he.2.1 he.2.2)
        fun _ _ _ _ => bound

/-! ## Sessions -/

theorem checkConfig_level : StaysLevel s Lower.checkConfig fun _ _ => True := by
  refine .get_bind ?_
  split
  · exact .refuse
  · exact .pure fun _ => trivial

theorem generate_level {file : SourceFile} :
    StaysLevel s (Lower.generate p file) fun _ _ => True := by
  refine .bind checkConfig_level fun _ _ _ _ => .get_bind ?_
  dsimp only
  split
  · exact .refuse_bind
  · exact .bind debug_level fun _ _ _ _ => statements_level (emitTo_level _) file.statements

theorem verifyModule_level : StaysLevel s Lower.verifyModule fun _ _ => True :=
  .get_bind (.bind (setModule_level (verify_eqUpToNumbers s.module)) fun _ _ _ _ => .ofExcept)

theorem finish_level : StaysLevel s Lower.finish fun _ _ => True := by
  refine .bind checkConfig_level fun _ _ _ _ => .get_bind ?_
  dsimp only
  split
  · exact .bind func_level fun _ _ _ _ => .bind modifyBlock_level fun _ _ _ _ =>
      .bind (.aside rfl rfl rfl) fun _ _ _ _ =>
      verifyModule_level
  · exact verifyModule_level

theorem initial_isLevel (o : Options) : (State.initial o).IsLevel where
  tables.objects := nofun
  tables.strings := nofun
  tables.headers name t ht := by
    obtain ⟨-, rfl⟩ := Prod.mk.inj (List.mem_singleton.1 ht)
    exact ⟨.inl trivial, nofun⟩
  fields := nofun
  names k name v hv := by
    cases k <;> cases hv
  scopes k o t ho := by
    cases k <;> cases ho

/-- Whatever was demanded of it and however that ended, a lowering is level. -/
theorem isLevel_afterDemands (ds : List Demand) (hs : s.IsLevel) :
    (afterDemands p s ds).IsLevel := by
  induction ds generalizing s with
  | nil => exact hs
  | cons d ds ih =>
    have hstep : StaysLevel s (d.action p) fun _ _ => True := by
      cases d with
      | generate file => exact generate_level
      | finish => exact finish_level
    exact ih (hstep.keeps hs).level

end

end CheckedIR.Lowering

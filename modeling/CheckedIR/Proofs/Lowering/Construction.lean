import CheckedIR.Proofs.Lowering.Code

/-!
# How objects are constructed

A constructor allocates its object, stores the parameters that declare properties and then the
initializers of the class, and only then are its statements lowered.
-/

namespace CheckedIR.Lowering

open CheckedIR.Ir CheckedIR.Program CheckedIR.Scope CheckedIR.Scope.Action
open CheckedIR.Meaning (codeOf codeOf_congr)

section
variable {p : Program} {s t : State} {f : FuncId}

/-! ## Objects -/

def IsAllocation (s : State) (f : FuncId) (r : RecordId) (this : Value) (c : Meaning.Code) : Prop :=
  ∃ alloc type size result j k, s.funcs.lookup Builtin.gcAllocate.name = some alloc ∧
    this = .inst f k (.pointer (.record r)) ∧
    c = [(j, .call (.func alloc type) [.const (.int 32 size)]),
      (k, .bitcast (.inst f j result) (.pointer (.record r)))]

theorem IsAllocation.mono {r : RecordId} {this : Value} {c : Meaning.Code} (hc : Changes p s t)
    (h : IsAllocation s f r this c) : IsAllocation t f r this c := by
  obtain ⟨alloc, type, size, result, j, k, halloc, hthis, hcode⟩ := h
  exact ⟨alloc, type, size, result, j, k, lookup_grown hc.remembers.funcs halloc, hthis, hcode⟩

theorem allocate_appends {r : RecordId} (hr : Ready f s) (hlt : r < s.module.records.length) :
    Works p (.within f) s (Lower.allocate (.record r)) fun v u =>
      ∃ c, IsAllocation u f r v c ∧ codeOf u.module f = codeOf s.module f ++ c := by
  have hheld : (Ty.record r).IsHeld s.module.records := hlt
  refine .relying fun hs hadmits => .read_bind (isString_reads (t := .record r)) fun b hb => ?_
  split
  · exact .read_bind typeText_reads fun _ _ => .bind (.refuse rfl) fun _ _ _ _ h => False.elim h
  have hfilled : Filled p s r := hadmits.filled r hlt List.not_mem_nil
  refine .bind_le (byteSize_works (M := .asIs) hlt hfilled) (.asIs rfl) fun size t1 _ h1 _ => ?_
  refine .bind_le (builtin_works (M := .quiet) rfl rfl rfl) (.quiet rfl rfl rfl)
    fun g t2 hs2 h2 hg => ?_
  have hr1 := h1.ready rfl rfl hr
  have hr2 := h2.ready rfl rfl hr1
  have hcode2 : codeOf t2.module f = codeOf s.module f :=
    (codeOf_congr (h2.others f hr1.owns nofun)).trans (h1.code_still rfl f)
  obtain ⟨alloc, halloc⟩ := hs2.table_func hg
  have hargs : ∀ v ∈ [Value.const (.int 32 size.toInt)], Usable f t2 v := fun v hv => by
    rw [List.mem_singleton.1 hv]
    exact usable_const trivial
  refine .bind ((runtimeCall_works hr2 hg rfl hargs).and fun _ _ => call_appends hs2 hr2 halloc)
    fun raw t3 hs3 h3 ⟨hraw, j, result, hj, hcode3⟩ => ?_
  have hr3 := h3.ready rfl rfl hr2
  have htyped : (Op.bitcast raw (.pointer (.record r))).IsTyped t3.module := trivial
  have hc3 : Changes p s t3 := (h1.changes.trans h2.changes).trans h3.changes
  have hplain : (Ty.pointer (.record r)).IsPlain t3.module.records :=
    hc3.grows.records.held hheld
  refine ((emit_unary_works hr3 hraw rfl rfl htyped rfl hplain).and fun _ _ => emit_appends
    hs3 hr3).mono fun v u _ h4 ⟨_, k, hk, hcode4⟩ => ⟨_,
      ⟨g, .pointer alloc.signature, size.toInt, result, j, k, ?_, hk, rfl⟩, ?_⟩
  · exact lookup_grown h4.changes.remembers.funcs (lookup_grown h3.changes.remembers.funcs hg)
  · rw [hcode4, hcode3, hcode2, hj]
    simp

/-! ## Fields -/

def IsFieldStore (p : Program) (f : FuncId) (owner : TypeId) (r : RecordId) (this : Value)
    (x : String × Value) (c : Meaning.Code) : Prop :=
  ∃ i j k ty, p.fieldIndex? owner x.1 = some i ∧
    c = [(j, .field (.record r) this i), (k, .store x.2 (.inst f j (.pointer ty)))]

/-- The parameters that declare properties, as far as there are parameters of these types. -/
def parameterFields (f : FuncId) (types : List Ty) (ps : List (Program.Param × Nat)) :
    List (String × Value) :=
  ps.filterMap fun (q, i) => if q.isProperty then types[i]?.map fun ty => (q.name, .param f i ty)
    else none

def initializers (members : List Member) : List (String × Expr) :=
  members.filterMap fun
    | .property _ name _ (some e) => some (name, e)
    | _ => none

def HasComputed (p : Program) (f : FuncId) (u : State) (e : Expr) (v : Value) : Prop :=
  ∃ depth s t, Ready f s ∧ (Lower.rvalue p (Lower.emitTo p depth) e).run s = (.ok v, t) ∧
    Changes p t u

variable {depth : Nat} {owner : TypeId} {r : RecordId} {this : Value}

theorem storeProperty_appends {name : String} {v : Value} (hr : Ready f s) (hthis : Usable f s this)
    (hv : Usable f s v) :
    Works p (.within f) s (Lower.storeProperty p owner r this name v) fun _ u =>
      ∃ c, IsFieldStore p f owner r this (name, v) c ∧
        codeOf u.module f = codeOf s.module f ++ c := by
  refine .sound fun hs => ?_
  unfold Lower.storeProperty
  split
  · exact .read_bind (.answered fun _ _ => trivial) fun _ _ => .refuse rfl
  · rename_i i hi
    refine .bind ((fieldAddress_works hr hthis).and fun _ _ => fieldAddress_appends hs hr)
      fun a t hs1 h ⟨⟨ha, ty, hty, hfield⟩, j, ty', hj, hcode⟩ => ?_
    have hr1 := h.ready rfl rfl hr
    refine ((store_works hr1 (hv.mono h.changes) ha ?_).and fun _ _ => store_appends hs1 hr1).mono
      fun _ u _ h' ⟨_, k, hcode'⟩ => ⟨_, ⟨i, j, k, ty', hi, rfl⟩, ?_⟩
    · intro elem helem
      rw [hty] at helem
      obtain rfl := Ty.pointer.inj helem
      exact .inl hfield
    · rw [hcode', hcode, hj]
      simp

def HasStored (p : Program) (f : FuncId) (owner : TypeId) (r : RecordId) (this : Value)
    (fields : List (String × Value)) (s t : State) : Prop :=
  ∃ stores, List.Forall₂ (IsFieldStore p f owner r this) fields stores ∧
    ∀ c, c.Sublist (codeOf s.module f) → (c ++ stores.flatten).Sublist (codeOf t.module f)

theorem HasStored.nil (h : Changes p s t) : HasStored p f owner r this [] s t :=
  ⟨[], .nil, fun c hc => by simpa using hc.trans (h.embeds f).sublist⟩

theorem HasStored.append {u : State} {xs ys : List (String × Value)}
    (h : HasStored p f owner r this xs s t)
    (h' : HasStored p f owner r this ys t u) : HasStored p f owner r this (xs ++ ys) s u := by
  obtain ⟨cs, hcs, hc⟩ := h
  obtain ⟨cs', hcs', hc'⟩ := h'
  refine ⟨cs ++ cs', List.rel_append hcs hcs', fun c h => ?_⟩
  rw [List.flatten_append, ← List.append_assoc]
  exact hc' _ (hc c h)

theorem HasStored.single {x : String × Value} {c : Meaning.Code}
    (hx : IsFieldStore p f owner r this x c)
    (hcode : codeOf t.module f = codeOf s.module f ++ c) : HasStored p f owner r this [x] s t := by
  refine ⟨[c], .cons hx .nil, fun d hd => ?_⟩
  rw [hcode]
  simpa using hd

def HasParameters (s : State) (f : FuncId) (types : List Ty) : Prop :=
  ∃ fn, s.module.func? f = some fn ∧ fn.paramTypes = types

theorem HasParameters.mono {types : List Ty} (hc : Changes p s t) (h : HasParameters s f types) :
    HasParameters t f types := by
  obtain ⟨fn, hf, rfl⟩ := h
  obtain ⟨fn', hf', hgrown⟩ := hc.grows.funcs f fn hf
  exact ⟨fn', hf', hgrown.paramTypes⟩

theorem storeParams_stores {types : List Ty} {index : Nat} {ps : List Program.Param}
    (hr : Ready f s) (hthis : Usable f s this) (htypes : HasParameters s f types) :
    Works p (.within f) s (Lower.storeParams p f owner r this index ps) fun _ u =>
      HasStored p f owner r this (parameterFields f types (ps.zipIdx index)) s u := by
  induction ps generalizing s index with
  | nil => exact .pure (.nil .refl)
  | cons q ps ih =>
    rw [Lower.storeParams, List.zipIdx_cons]
    dsimp only
    split
    · rename_i hproperty
      refine .sound fun hs => .read_bind func_reads fun fn hf => ?_
      obtain ⟨fn', hf', rfl⟩ := id htypes
      obtain rfl := Option.some.inj (hf.symm.trans hf')
      split
      · rename_i param hparam
        refine .bind (storeProperty_appends hr hthis (usable_param hs hf hparam)) ?_
        rintro _ t - h ⟨c, hc, hcode⟩
        refine (ih (h.ready rfl rfl hr) (hthis.mono h.changes) (htypes.mono h.changes)).mono
          fun _ u _ _ hrest => ?_
        have hfields : parameterFields f fn.paramTypes ((q, index) :: ps.zipIdx (index + 1)) =
            (q.name, .param f index param.type) :: parameterFields f fn.paramTypes
            (ps.zipIdx (index + 1)) := by
          simp [parameterFields, hproperty, Func.paramTypes, hparam]
        rw [hfields]
        exact (HasStored.single hc hcode).append hrest
      · rename_i hnone
        have hfields : parameterFields f fn.paramTypes ((q, index) :: ps.zipIdx (index + 1)) =
            parameterFields f fn.paramTypes (ps.zipIdx (index + 1)) := by
          simp [parameterFields, Func.paramTypes, hnone]
        rw [hfields]
        exact ih hr hthis htypes
    · rename_i hno
      have hfields : parameterFields f types ((q, index) :: ps.zipIdx (index + 1)) =
          parameterFields f types (ps.zipIdx (index + 1)) := by
        simp [parameterFields, hno]
      rw [hfields]
      exact ih hr hthis htypes

def initializedFields (members : List Member) (values : List Value) : List (String × Value) :=
  ((initializers members).map Prod.fst).zip values

theorem storeInitializers_stores (hem : EmitterWorks p (Lower.emitTo p depth)) {ms : List Member}
    (hr : Ready f s) (hthis : Usable f s this) :
    Works p (.within f) s (Lower.storeInitializers p (Lower.emitTo p depth) owner r this ms)
    fun _ u =>
      ∃ values, List.Forall₂ (fun x => HasComputed p f u x.2) (initializers ms) values ∧
        HasStored p f owner r this (initializedFields ms values) s u := by
  induction ms generalizing s with
  | nil => exact .pure ⟨[], .nil, .nil .refl⟩
  | cons m ms ih =>
    unfold Lower.storeInitializers
    split
    · rename_i heq
      cases heq
    · rename_i i name isReadonly e ms' heq
      obtain ⟨rfl, rfl⟩ := List.cons_eq_cons.1 heq
      refine .bind ((rvalue_works hem _ hr).and fun _ _ hrun => hrun) fun v t1 _ h1 ⟨hv, hrun⟩ => ?_
      have hthis1 := hthis.mono h1.changes
      have hr1 := h1.ready rfl rfl hr
      refine .bind (storeProperty_appends hr1 hthis1 hv) fun _ t2 _ h2 ⟨c, hc, hcode⟩ => ?_
      refine (ih (h2.ready rfl rfl hr1) (hthis1.mono h2.changes)).mono
        fun _ u _ h3 ⟨values, hvalues, hrest⟩ => ?_
      refine ⟨v :: values, .cons ⟨depth, s, t1, hr, hrun, h2.changes.trans h3.changes⟩ hvalues, ?_⟩
      exact (HasStored.nil h1.changes).append ((HasStored.single hc hcode).append hrest)
    · rename_i hno heq
      obtain ⟨rfl, rfl⟩ := List.cons_eq_cons.1 heq
      have hskip : initializers (m :: ms) = initializers ms := by
        unfold initializers
        rw [List.filterMap_cons]
        split
        · rfl
        · rename_i x hx
          split at hx
          · exact (hno _ _ _ _ rfl).elim
          · cases hx
      unfold initializedFields
      rw [hskip]
      exact ih hr hthis

/-! ## Objects that are filled -/

def classMembers (d : Place) : List Member :=
  match d.parent? with
  | some (.stmt (.classDecl _ _ _ _ members)) => members
  | _ => []

def HasFilled (p : Program) (f : FuncId) (owner : TypeId) (r : RecordId) (this : Value)
    (fields : List (String × Value)) (s : State) : Prop :=
  ∃ allocation stores, IsAllocation s f r this allocation ∧
    List.Forall₂ (IsFieldStore p f owner r this) fields stores ∧
    (allocation ++ stores.flatten).Sublist (codeOf s.module f)

/-- Function `f` has made its object: the parameters and then the initializers are stored. -/
structure Made (p : Program) (f : FuncId) (decl : Place) (owner : TypeId) (ps : List Program.Param)
    (r : RecordId) (this : Value) (types : List Ty) (values : List Value) (s : State) : Prop where
  record : HasRecord p owner r s
  parameters : HasParameters s f types
  computed : List.Forall₂ (fun x => HasComputed p f s x.2) (initializers (classMembers decl)) values
  filled : HasFilled p f owner r this
    (parameterFields f types ps.zipIdx ++ initializedFields (classMembers decl) values) s

theorem constructObject_makes (hem : EmitterWorks p (Lower.emitTo p depth)) {e : Emission}
    {scope : ScopeId} (hr : Ready f s) (hfirst : s.module.firstCall? f = none) (he : e.Fits p s)
    (hc : e.function.shape = .constructor) :
    Works p (.body f) s (Lower.constructObject p (Lower.emitTo p depth) e f scope) fun _ u =>
      ∃ owner r this types values, e.owner? = some owner ∧
        u.frame = { s.frame with this? := some this } ∧
        Ready f u ∧ Made p f e.decl owner e.function.params r this types values u := by
  refine .read_bind (.orCrash fun _ => id) fun t ht =>
    .read_bind (.orCrash fun _ => id) fun owner howner => ?_
  obtain ⟨r, rfl, hlt⟩ := he.receiver t ht
  have hreceiver :
      IsReceiver p owner r s :=
      he.owner (he.requested.isMember_constructor he.function hc) owner r howner ht
  refine .bind_le ((allocate_works hr hlt hfirst).both (allocate_appends hr hlt)) .within_body
    fun this t1 _ h1 ⟨⟨hthis, _, hstring⟩, allocation, hallocation, hcode1⟩ => ?_
  have hrecord : HasRecord p owner r s := hreceiver.resolve_right hstring
  refine .bind ((setThis_works (h1.ready rfl rfl hr) hthis).and fun _ _ hrun => Gives.modify hrun)
    fun _ t2 _ h2 ⟨hr2, ht2⟩ => ?_
  have hthis2 := hthis.mono h2.changes
  refine .bind_le (bindValue_works (M := .naming) rfl hthis2.fit) (.naming rfl rfl)
    fun _ t3 _ h3 _ => ?_
  have hr3 := h3.ready rfl rfl hr2
  have hthis3 := hthis2.mono h3.changes
  have hframe3 : t3.frame = { s.frame with this? := some this } := by
    rw [(h3.place rfl).2, ht2]
    simp only [(h1.place rfl).2]
  have hcode3 : codeOf t3.module f = codeOf s.module f ++ allocation := by
    rw [h3.code_still rfl, ht2]
    exact hcode1
  obtain ⟨fn, b, hf, -⟩ := hr3.isOpen
  have htypes : HasParameters t3 f fn.paramTypes := ⟨fn, hf, rfl⟩
  have made {u : State} {values : List Value} (hc : Changes p t3 u)
      (hvalues : List.Forall₂ (fun x => HasComputed p f u x.2) (initializers (classMembers e.decl))
        values)
      (hstored : HasStored p f owner r this
        (parameterFields f fn.paramTypes e.function.params.zipIdx ++
          initializedFields (classMembers e.decl) values) t3 u) :
      Made p f e.decl owner e.function.params r this fn.paramTypes values u := by
    have hall : Changes p t1 u := (h2.changes.trans h3.changes).trans hc
    obtain ⟨stores, hstores, hsub⟩ := hstored
    refine ⟨hrecord.mono (h1.changes.trans hall), htypes.mono hc, hvalues, allocation, stores,
      hallocation.mono hall, hstores, hsub _ ?_⟩
    rw [hcode3]
    exact List.sublist_append_right _ _
  refine .bind_le (storeParams_stores hr3 hthis3 htypes) .within_body fun _ t4 _ h4 hparams => ?_
  have hr4 := h4.ready rfl rfl hr3
  have hframe4 : t4.frame = { s.frame with this? := some this } := (h4.place rfl).2.trans hframe3
  split
  · rename_i members hparent
    have hclass : classMembers e.decl = members := by
      unfold classMembers
      rw [hparent]
    refine .weaken .within_body
      ((storeInitializers_stores hem hr4 (hthis3.mono h4.changes)).mono ?_)
    rintro _ u - h5 ⟨values, hvalues, hrest⟩
    rw [← hclass] at hvalues hrest
    exact ⟨owner, r, this, _, values, howner, (h5.place rfl).2.trans hframe4, h5.ready rfl rfl hr4,
      made (h4.changes.trans h5.changes) hvalues (hparams.append hrest)⟩
  · rename_i hno
    have hclass : classMembers e.decl = [] := by
      unfold classMembers
      split
      · rename_i hparent
        exact (hno _ _ _ _ _ hparent).elim
      · rfl
    refine .pure ⟨owner, r, this, _, [], howner, hframe4, hr4, made h4.changes ?_ ?_⟩
    · rw [hclass]
      exact .nil
    · rw [hclass]
      simpa [initializedFields, initializers] using hparams

/-! ## Returns -/

mutual

def returnOf? : Stmt → Option (Option Expr)
  | .ret _ e => some e
  | .block (.mk _ ss) | .namespaceDecl _ _ _ ss => firstReturn? ss
  | .endOfFile _ | .classDecl .. | .interfaceDecl .. | .function .. | .variableDecl ..
  | .expression .. | .ifElse ..
  | .whileLoop .. | .unknown .. => none

def firstReturn? : List Stmt → Option (Option Expr)
  | [] => none
  | st :: ss =>
    match returnOf? st with
    | some e => some e
    | none => firstReturn? ss

end

/-- What has become of function `f` that constructs `this`, after statements with this first return.
-/
def ReturnsAs (f : FuncId) (this? : Option Value) (s : State) : Option (Option Expr) → Prop
  | none => s.module.IsOpen f
  | some none => ∃ c, HasBody s.module f c (.ret this?)
  | some (some _) => True

theorem ReturnsAs.reach {this? : Option Value} {e? : Option (Option Expr)}
    (h : Reach p (.within f) s t) (hs : ReturnsAs f this? s e?) : ReturnsAs f this? t e? := by
  match e?, hs with
  | none, hopen => exact h.opened rfl f hopen
  | some none, ⟨c, hbody⟩ => exact ⟨c, h.changes.hasBody hbody⟩
  | some (some _), _ => trivial

theorem returnFrom_returns (hem : EmitterWorks p (Lower.emitTo p depth)) {i : NodeInfo}
    {e : Option Expr} (hr : Ready f s)
    (hne : f ≠ Lower.entryFunc) (hframe : s.frame.isConstructor = true) :
    Works p (.along f) s (Lower.returnFrom p (Lower.emitTo p depth) i e) fun _ u =>
      ReturnsAs f s.frame.this? u (some e) := by
  refine .sound fun hs => ?_
  have hreturns (a : Unit) (u : State)
      (hrun : (Lower.returnFrom p (Lower.emitTo p depth) i e).run s = (.ok a, u)) :
      ReturnsAs f s.frame.this? u (some e) := by
    cases e with
    | some _ => trivial
    | none =>
      have hg := Gives.get_bind hrun
      have hfunc : s.frame.func ≠ Lower.entryFunc := fun he => hne (hr.here ▸ hs.frame_func ▸ he)
      dsimp only at hg
      rw [if_neg hfunc, hframe, if_pos rfl] at hg
      exact ⟨_, terminate_ends hs hr hg⟩
  exact ((returnFrom_works hem hr).and hreturns).mono fun _ _ _ _ h => h.2

mutual

theorem statement_returns (hem : EmitterWorks p (Lower.emitTo p depth))
    (hne : f ≠ Lower.entryFunc) :
    (st : Stmt) → p.Has (.stmt st) → ∀ {s : State} {scope : ScopeId}, Ready f s →
      scope ≠ Environment.global →
    s.frame.isConstructor = true →
    Works p (.along f) s (Lower.statement p (Lower.emitTo p depth) scope st)
      fun _ u => ReturnsAs f s.frame.this? u (returnOf? st)
  | .endOfFile _, _, s, scope, hr, htop, hframe => .pure hr.isOpen
  | .function .., _, s, scope, hr, htop, hframe => .pure hr.isOpen
  | .classDecl i name params isAmbient members, _, s, scope, hr, htop, hframe => by
    rw [Lower.statement]
    split
    · exact .bind_le (debug_works (M := .within f)) .within_along fun _ t _ h _ =>
        .pure (h.opened rfl f hr.isOpen)
    · exact .weaken .within_along
        ((classScope_works rfl).mono fun _ t _ h _ => h.opened rfl f hr.isOpen)
  | .interfaceDecl i name params members, _, s, scope, hr, htop, hframe =>
    .bind_le (interfaceScope_works (M := .within f) rfl) .within_along fun _ t _ h _ =>
      .pure (h.opened rfl f hr.isOpen)
  | .namespaceDecl i name isAmbient body, hst, s, scope, hr, htop, hframe => by
    rw [Lower.statement]
    refine .bind_le (namespaceOf_works (M := .within f) rfl) .within_along fun k t _ h hk => ?_
    refine .bind (Q := fun _ u => ReturnsAs f s.frame.this? u (firstReturn? body)) ?_
      fun _ _ _ _ h => .pure h
    rw [← (h.place rfl).2] at hframe ⊢
    have hr1 := h.ready rfl rfl hr
    exact enter_works rfl
      (statements_returns hem hne body (fun st h => hst.child (List.mem_map_of_mem h))
      ⟨hr1.here, hr1.isOpen⟩ (Nat.ne_of_gt hk) hframe) fun _ _ h => h
  | .variableDecl i isConst ds, hst, s, scope, hr, htop, hframe => by
    rw [Lower.statement]
    refine atTop_works (.inl htop) ?_
    exact .bind_le (.forM (I := Ready f) hr fun d hd t ht =>
      declareVariable_works hem (hst.child (List.mem_map_of_mem hd)) ht) .within_along
        fun _ t _ _ ht => .pure ht.isOpen
  | .expression i e, _, s, scope, hr, htop, hframe => by
    rw [Lower.statement]
    refine atTop_works (.inl htop) ?_
    exact .bind_le (lvalue_works hem e hr).discard .within_along fun _ t _ h _ =>
      .pure (h.opened rfl f hr.isOpen)
  | .block (.mk i ss), hst, s, scope, hr, htop, hframe => by
    rw [Lower.statement]
    refine atTop_works (.inl htop) ?_
    refine .bind (Q := fun _ u => ReturnsAs f s.frame.this? u (firstReturn? ss)) ?_ fun _ _ _ _ h =>
      .pure h
    refine .bind_le (createScope_works (M := .within f) rfl fun o h => by cases h) .within_along
      fun k t _ h hk => ?_
    rw [← (h.place rfl).2] at hframe ⊢
    have hr1 := h.ready rfl rfl hr
    exact enter_works rfl
      (statements_returns hem hne ss (fun st h => hst.child (List.mem_map_of_mem h))
      ⟨hr1.here, hr1.isOpen⟩ (Nat.ne_of_gt hk.1) hframe) fun _ _ h => h
  | .ret i e, _, s, scope, hr, htop, hframe => by
    rw [Lower.statement]
    refine atTop_works (.inl htop) ?_
    exact .bind (returnFrom_returns hem hr hne hframe) fun _ _ _ _ h => .pure h
  | .ifElse .., _, s, scope, hr, htop, hframe => by
    rw [Lower.statement]
    exact atTop_works (.inl htop) (.pure hr.isOpen)
  | .whileLoop .., _, s, scope, hr, htop, hframe => by
    rw [Lower.statement]
    exact atTop_works (.inl htop) (.pure hr.isOpen)
  | .unknown .., _, s, scope, hr, htop, hframe => .pure hr.isOpen

theorem statements_returns (hem : EmitterWorks p (Lower.emitTo p depth))
    (hne : f ≠ Lower.entryFunc) :
    (ss : List Stmt) → (∀ st ∈ ss, p.Has (.stmt st)) → ∀ {s : State} {scope : ScopeId}, Ready f s →
    scope ≠ Environment.global → s.frame.isConstructor = true →
    Works p (.along f) s (Lower.statements p (Lower.emitTo p depth) scope ss)
      fun _ u => ReturnsAs f s.frame.this? u (firstReturn? ss)
  | [], _, s, scope, hr, htop, hframe => .pure hr.isOpen
  | st :: ss, hss, s, scope, hr, htop, hframe => by
    rw [Lower.statements]
    have hrest : ∀ st' ∈ ss, p.Has (.stmt st') := fun st' h => hss st' (List.mem_cons_of_mem st h)
    -- behind a return nothing is lowered, and the function stays ended
    have next {t : State} (hcursor : t.cursor = s.cursor) (hframe' : t.frame = s.frame)
        (h : ReturnsAs f s.frame.this? t (returnOf? st)) :
        Works p (.along f) t (Lower.statements p (Lower.emitTo p depth) scope ss)
          fun _ u => ReturnsAs f s.frame.this? u (firstReturn? (st :: ss)) := by
      have hfunc : t.cursor.func = f := hcursor ▸ hr.here
      rw [firstReturn?]
      match returnOf? st, h with
      | none, hopen =>
        rw [← hframe'] at hframe ⊢
        exact statements_returns hem hne ss hrest ⟨hfunc, hopen⟩ htop hframe
      | some none, ⟨c, hbody⟩ =>
        exact (statements_works hem ss hrest hfunc (fun he => absurd he hne) (.inl htop)).mono
          fun _ _ _ h' _ =>
          ⟨c, h'.changes.hasBody hbody⟩
      | some (some _), _ =>
        exact (statements_works hem ss hrest hfunc (fun he => absurd he hne) (.inl htop)).mono
          fun _ _ _ _ _ => trivial
    refine .sound fun hs => .read_bind (isTerminated_reads hs) fun ended hended =>
      .get_bind fun _ => ?_
    split
    · rename_i hdrop
      have hended' : Ended s.module f := hr.here ▸ hended.2 (Bool.and_eq_true_iff.1 hdrop).1
      exact absurd hended' hr.not_ended
    · refine .bind (statement_returns hem hne st (hss st List.mem_cons_self) hr htop hframe)
        fun outcome t _ h hreturns => ?_
      split
      · refine .read_bind (.orCrash fun _ _ => trivial) fun _ _ => ?_
        refine .bind_le (warn_works (M := .within f)) .within_along fun _ u _ h' _ => ?_
        exact next ((h'.place rfl).1.trans (h.place rfl).1) ((h'.place rfl).2.trans (h.place rfl).2)
          (hreturns.reach h')
      · exact next (h.place rfl).1 (h.place rfl).2 hreturns

end

/-! ## Bodies -/

def HasLowered (p : Program) (f : FuncId) (body : Program.Block) (s t : State) : Prop :=
  Ready f s ∧ ∃ depth scope, (Lower.statements p (Lower.emitTo p depth) scope body.statements).run
    s = (.ok (), t)

/-- Function `f` constructs objects of an owner: before its statements are lowered it has made the
object `this`, and it returns that unless it returns the value of an expression. -/
structure Constructs (p : Program) (f : FuncId) (decl : Place) (owner : TypeId)
    (function : FunctionLike)
    (body : Program.Block) (r : RecordId) (this : Value) (types : List Ty) (values : List Value)
    (before after s : State) : Prop where
  made : Made p f decl owner function.params r this types values before
  lowered : HasLowered p f body before after
  changes : Changes p before after
  kept : Changes p after s
  ended : ∃ e, HasBody s.module f (codeOf after.module f) e ∧
    ((∀ x, firstReturn? body.statements ≠ some (some x)) → e = .ret (some this))

theorem Constructs.mono {decl : Place} {function : FunctionLike} {body : Program.Block}
    {types : List Ty} {values : List Value} {before after : State} (hc : Changes p s t)
    (h : Constructs p f decl owner function body r this types values before after s) :
    Constructs p f decl owner function body r this types values before after t := by
  obtain ⟨e, hbody, he⟩ := h.ended
  exact { h with
    kept := h.kept.trans hc
    ended := ⟨e, hc.hasBody hbody, he⟩ }

theorem statements_then_return (hem : EmitterWorks p (Lower.emitTo p depth)) {scope : ScopeId}
    {ss : List Stmt}
    (hss : ∀ st ∈ ss, p.Has (.stmt st)) (hr : Ready f s) (hne : f ≠ Lower.entryFunc)
    (hscope : 0 < scope) (hframe : s.frame.isConstructor = true) :
    Works p (.body f) s
      (do Lower.statements p (Lower.emitTo p depth) scope ss
          if ! (← Lower.isTerminated) then Lower.terminate (.ret (← get).frame.this?))
      fun _ u => ∃ t, (Lower.statements p (Lower.emitTo p depth) scope ss).run s = (.ok (), t) ∧
        Changes p s t ∧
        Changes p t u ∧ ∃ e, HasBody u.module f (codeOf t.module f) e ∧
          ((∀ x, firstReturn? ss ≠ some (some x)) → e = .ret s.frame.this?) := by
  have hscope' : scope ≠ Environment.global := Nat.ne_of_gt hscope
  refine .bind_le ((statements_returns hem hne ss hss hr hscope' hframe).and fun _ _ hrun => hrun)
    .along_body fun _ t ht h ⟨hreturns, hrun⟩ =>
      .read_bind (isTerminated_reads ht) fun ended hended => ?_
  have hcursor : t.cursor.func = f := (h.place rfl).1 ▸ hr.here
  rw [hcursor] at hended
  split
  · rename_i hgo
    have hrt : Ready f t := ⟨hcursor, hended.1 (by simpa using hgo)⟩
    refine .get_bind fun _ => ?_
    have hoperands : ∀ v ∈ (Terminator.ret t.frame.this?).operands, Usable f t v := fun v hv => by
      cases hthis : t.frame.this? with
      | none =>
        rw [hthis] at hv
        cases hv
      | some this =>
        rw [hthis] at hv
        rw [List.mem_singleton.1 hv]
        obtain ⟨hfit, huse⟩ := ht.place.this this hthis
        exact ⟨hfit, (ht.frame_func.trans hcursor) ▸ huse⟩
    refine ((terminate_works (M := .body f) hrt rfl rfl rfl rfl hne hoperands).and fun _ _ =>
      terminate_ends ht hrt).mono fun _ u _ h' ⟨_, hbody⟩ => ⟨t, hrun, h.changes, h'.changes, _,
        hbody, fun _ => ?_⟩
    rw [(h.place rfl).2]
  · rename_i hgo
    obtain ⟨e, hbody⟩ := exists_hasBody ht hcursor (hended.2 (by simpa using hgo))
    refine .pure ⟨t, hrun, h.changes, .refl, e, hbody, fun hno => ?_⟩
    cases hfirst : firstReturn? ss with
    | none =>
      rw [hfirst] at hreturns
      exact absurd (hended.2 (by simpa using hgo)) (Ready.not_ended ⟨hcursor, hreturns⟩)
    | some e? =>
      cases e? with
      | some x => exact absurd hfirst (hno x)
      | none =>
        rw [hfirst] at hreturns
        obtain ⟨c, hbody'⟩ := hreturns
        exact (hbody.unique hbody').2

theorem Emission.Begins.constructs {e : Emission} {body : Program.Block} {scope : ScopeId}
    (hem : EmitterWorks p (Lower.emitTo p depth)) (h : e.Begins p f body scope s)
    (hc : e.function.shape = .constructor) :
    Works p (.body f) s (Lower.emitBody p (Lower.emitTo p depth) e f body scope) fun _ u =>
      ∃ owner r this types values before after, e.owner? = some owner ∧
        Constructs p f e.decl owner e.function body r this types values before after u := by
  obtain ⟨fn, hf, hblocks, hnamed⟩ := h.declared
  refine .read_bind func_reads fun fn' hf' => ?_
  obtain rfl := Option.some.inj (hf.symm.trans hf')
  refine .bind_le (bindParams_works hf h.scope.2 (fun j q hj => by simp [Func.paramTypes, hj])
    h.fits.names hnamed) (.naming rfl rfl) fun _ t _ h1 hbound => ?_
  obtain ⟨hdistinct, hgiven⟩ := hbound
  have hft : t.module.func? f = some fn := by
    unfold Module.func?
    rw [(h1.still rfl).1]
    exact hf
  have hss : ∀ st ∈ body.statements, p.Has (.stmt st) := fun st hst =>
    Has.statement ⟨e.decl, h.fits.requested.mem_places, rfl⟩ h.fits.function h.body hst
  refine open_works hft hblocks hdistinct (fun n hn => (hgiven n hn).2) fun t1 hopened => ?_
  simp only [hc, if_true]
  refine .bind (constructObject_makes hem hopened.ready hopened.firstCall
    (h.fits.mono (h1.changes.trans hopened.changes)) hc) ?_
  rintro _ t2 - h2 ⟨owner, r, this, types, values, ho, hframe, hr2, hmade⟩
  have hconstructor : t2.frame.isConstructor = true := by
    rw [hframe, hopened.frame]
    simpa using hc
  have hthis : t2.frame.this? = some this := by rw [hframe]
  refine (statements_then_return hem hss hr2 h.isNew h.scope.1 hconstructor).mono ?_
  rintro _ u - - ⟨t3, hrun, h23, h3u, e', hbody, hreturns⟩
  exact ⟨owner, r, this, types, values, t2, t3, ho, hmade, ⟨hr2, depth, scope, hrun⟩, h23,
    h3u, e', hbody, fun hno => hthis ▸ hreturns hno⟩

end

end CheckedIR.Lowering

import CheckedIR.Proofs.Lowering.SteadyEmission

/-!
# Properties that last

Lowering types, looking up names and making scopes change nothing but tables, declarations and the
environment, and lowering expressions adds instructions at the cursor besides. A property of states
that outlasts these changes outlasts every action that is made of them, from any state and however
the action ends.
-/

namespace CheckedIR

namespace Scope.Environment

variable {V D : Type} {e e' : Environment V D} {k : ScopeId} {name : String} {b : Binding V}

structure HidesGlobal (e : Environment V D) : Prop where
  pos : 0 < e.scopes.length
  hidden : ∀ k name, (e.lookupIn k name).bind Binding.scope? ≠ some global

theorem HidesGlobal.create (h : e.HidesGlobal) (name : String) (data? : Option D) :
    (e.create name data?).2.HidesGlobal where
  pos := by simp [Environment.create]
  hidden k n := by
    have hlookup : (e.create name data?).2.lookupIn k n = e.lookupIn k n :=
      lookupIn_create e (.fresh name data?) rfl k n
    rw [hlookup]
    exact h.hidden k n

theorem HidesGlobal.set (h : e.HidesGlobal) (hset : e.set k name b = .ok e')
    (hb : b.scope? ≠ some global) : e'.HidesGlobal where
  pos := by
    rw [(of_set hset).2]
    simpa [modifyScope] using h.pos
  hidden j n hj := by
    obtain ⟨c, hc, hscope⟩ := Option.bind_eq_some_iff.1 hj
    rcases lookupIn_set hset hc with hold | rfl
    · exact h.hidden j n (Option.bind_eq_some_iff.2 ⟨c, hold, hscope⟩)
    · exact hb hscope

end Scope.Environment

namespace Lowering

open CheckedIR.Ir CheckedIR.Program CheckedIR.Scope CheckedIR.Scope.Action

structure State.IsBeside (s t : State) : Prop where
  funcs : t.module.funcs = s.module.funcs
  env : t.env = s.env
  cursor : t.cursor = s.cursor
  frame : t.frame = s.frame

/-- A property that outlasts what happens to tables, declarations and the environment. -/
class Stable (I : State → Prop) : Prop where
  beside : ∀ s t, s.IsBeside t → I s → I t
  named : ∀ s m, s.module.SameCode m → I s → I { s with module := m }
  declared : ∀ s fn, fn.blocks = [] → I s →
    I { s with module := { s.module with funcs := s.module.funcs ++ [fn] } }
  env : ∀ s e, (s.env.HidesGlobal → e.HidesGlobal) → I s → I { s with env := e }

def Ir.Block.KeepsEnd (k : Ir.Block → Ir.Block) : Prop := ∀ b, (k b).term? = b.term?

/-- A property that also outlasts instructions at the cursor and slots in front of the function. -/
class Lasting (I : State → Prop) : Prop extends Stable I where
  grown : ∀ s c k, c = s.cursor ∨ c = ⟨s.frame.func, 0⟩ → Ir.Block.KeepsEnd k → I s →
    I { s with module := s.module.modifyFunc c.func fun g =>
      { g with blocks := g.blocks.modify c.block k } }

/-- Run from `s`, which satisfies `I`, action `x` ends in a state that satisfies `J`, whatever it
answers. -/
def Leads {α : Type} (I J : State → Prop) (s : State) (x : Lower α) : Prop := I s → J (x.run s).2

section
variable {α β : Type} {I J K : State → Prop} {s t : State} {x : Lower α}

namespace Leads

theorem pure {a : α} : Leads I I s (pure a) := id

theorem throw {f : Fault} : Leads I I s (throw f : Lower α) := id

theorem refuse {c : Cause} : Leads I I s (Lower.refuse c : Lower α) := id

theorem refuseAt {c : Cause} {span : Span} : Leads I I s (Lower.refuseAt c span : Lower α) := id

theorem crash : Leads I I s (Lower.crash : Lower α) := id

theorem orCrash {a? : Option α} : Leads I I s (Lower.orCrash a?) := by
  cases a? <;> exact id

theorem answered {a? : Option α} : Leads I I s (Lower.answered a?) := by
  cases a? <;> exact id

theorem ofCause {r : Except Cause α} : Leads I I s (Action.ofCause r) := by
  cases r <;> exact id

theorem ofExcept {r : Except Fault α} : Leads I I s (Lower.ofExcept r) := by
  cases r <;> exact id

theorem mono {I' J' : State → Prop} (h : Leads I J s x) (hI : ∀ t, I' t → I t)
    (hJ : ∀ t, J t → J' t) : Leads I' J' s x :=
  fun hs => hJ _ (h (hI s hs))

theorem bind_gives {k : α → Lower β} (h : Leads I K s x) (hK : ∀ t, K t → J t)
    (hk : ∀ a t, Gives x s a t → Leads K J t (k a)) : Leads I J s (x >>= k) := by
  intro hs
  have ht := h hs
  rw [run_bind]
  unfold Gives at hk
  revert ht hk
  rcases x.run s with ⟨f | a, t⟩
  · exact fun _ ht => hK t ht
  · exact fun hk ht => hk a t rfl ht

theorem bind_to {k : α → Lower β} (h : Leads I K s x) (hK : ∀ t, K t → J t)
    (hk : ∀ a t, Leads K J t (k a)) : Leads I J s (x >>= k) :=
  h.bind_gives hK fun a t _ => hk a t

theorem bind {k : α → Lower β} (h : Leads I I s x) (hk : ∀ a t, Leads I I t (k a)) :
    Leads I I s (x >>= k) :=
  h.bind_to (fun _ => id) hk

theorem get_bind {k : State → Lower β} (h : Leads I J s (k s)) : Leads I J s (get >>= k) := by
  intro hs
  rw [run_get_bind]
  exact h hs

theorem map {k : α → β} (h : Leads I J s x) : Leads I J s (k <$> x) := by
  rw [map_eq_pure_bind]
  exact h.bind_to (fun _ => id) fun _ _ => .pure

theorem discard (h : Leads I J s x) : Leads I J s (discard x) := h.map

theorem orAt {span : Span} (h : Leads I J s x) : Leads I J s (Lower.orAt span x) := by
  intro hs
  have ht := h hs
  rw [Lower.orAt, run_tryCatch]
  revert ht
  rcases x.run s with ⟨f | a, t⟩ <;> exact id

theorem mapM {l : List β} {f : β → Lower α} (h : ∀ b ∈ l, ∀ t, Leads I I t (f b)) :
    Leads I I s (l.mapM f) := by
  induction l generalizing s with
  | nil => exact .pure
  | cons b l ih =>
    rw [List.mapM_cons]
    exact .bind (h b List.mem_cons_self s) fun _ _ =>
      .bind (ih fun b hb => h b (List.mem_cons_of_mem _ hb)) fun _ _ => .pure

theorem forM {l : List β} {f : β → Lower PUnit} (h : ∀ b ∈ l, ∀ t, Leads I I t (f b)) :
    Leads I I s (l.forM f) := by
  induction l generalizing s with
  | nil => exact .pure
  | cons b l ih =>
    rw [List.forM_eq_forM, List.forM_cons]
    exact .bind (h b List.mem_cons_self s) fun _ _ => ih fun b hb => h b (List.mem_cons_of_mem _ hb)

theorem withInner [Stable I] [Stable J] {inner : List ScopeId} (h : ∀ t, Leads I J t x) :
    Leads I J s (Action.withInner inner x) := by
  intro hs
  have hI : I { s with env := { s.env with inner } } :=
    Stable.env s _ (fun h => ⟨h.pos, h.hidden⟩) hs
  exact Stable.env _
    { (x.run { s with env := { s.env with inner } }).2.env with inner := s.env.inner }
    (fun h => ⟨h.pos, h.hidden⟩) (h _ hI)

theorem enter [Stable I] [Stable J] {k : ScopeId} (h : ∀ t, Leads I J t x) :
    Leads I J s (Action.enter k x) :=
  .get_bind (.withInner h)

theorem detached [Stable I] [Stable J] (h : ∀ t, Leads I J t x) : Leads I J s (Action.detached x) :=
  .withInner h

end Leads

/-! ## Questions -/

theorem typeText_leads {ty : Ty} : Leads I I s (Lower.typeText ty) := .get_bind .pure

theorem func_leads {f : FuncId} : Leads I I s (Lower.func f) := .get_bind .orCrash

theorem funcValue_leads {f : FuncId} : Leads I I s (Lower.funcValue f) :=
  .bind func_leads fun _ _ => .pure

theorem isTerminated_leads : Leads I I s Lower.isTerminated :=
  .get_bind (.bind func_leads fun _ _ => .pure)

theorem isString_leads {ty : Ty} : Leads I I s (Lower.isString ty) := by
  refine .get_bind ?_
  split <;> exact .pure

theorem isValueType_leads {ty : Ty} : Leads I I s (Lower.isValueType ty) := by
  unfold Lower.isValueType
  split
  any_goals exact .pure
  exact isString_leads

theorem localValue_leads {name : String} {v : Value} : Leads I I s (Lower.localValue name v) := by
  refine .get_bind ?_
  split
  · exact .pure
  · exact .refuse

theorem lookupValue_leads {name : String} {span : Span} :
    Leads I I s (Lower.lookupValue name span) :=
  .orAt (.get_bind (.bind .ofCause fun _ _ => .bind .orCrash fun _ _ => localValue_leads))

theorem scopeOf?_leads (e : Expr) : Leads I I s (Lower.scopeOf? e) := by
  induction e using Lower.scopeOf?.induct generalizing s with
  | case1 i name =>
    refine .get_bind ?_
    split <;> exact .pure
  | case2 i object name ih =>
    refine .bind ih fun k? _ => ?_
    split
    · exact .pure
    · exact .get_bind .pure
  | case3 e hident hmember =>
    unfold Lower.scopeOf?
    split
    · exact (hident _ _ rfl).elim
    · exact (hmember _ _ _ rfl).elim
    · exact .pure

theorem lookupIn_leads {k : ScopeId} {name : String} : Leads I I s (Lower.lookupIn k name) :=
  .get_bind .pure

theorem namespaceScope_leads {path : List String} : Leads I I s (Lower.namespaceScope path) := by
  unfold Lower.namespaceScope
  split
  · exact .pure
  · exact .get_bind .ofCause

theorem scopeMember_leads {span : Span} {k : ScopeId} {name : String} {source : Option String} :
    Leads I I s (Lower.scopeMember span k name source) := by
  refine .orAt (.get_bind (.bind .ofCause fun b _ => ?_))
  split
  · exact .bind .orCrash fun _ _ => .refuse
  · exact .bind .orCrash fun _ _ => localValue_leads
  · exact .crash

theorem constructorOf_leads {p : Program} {span : Span} {callee : Expr} :
    Leads I I s (Lower.constructorOf p span callee) := by
  have notClass : Leads I I s
      (do
        Lower.refuseAt (.notClass (← Lower.answered (p.typeText callee.type))) span :
          Lower Place) :=
    .bind .answered fun _ _ => .refuseAt
  unfold Lower.constructorOf
  dsimp only
  split
  · exact notClass
  · split
    · split
      · exact .pure
      · exact .refuseAt
    · exact notClass

theorem calledFunction_leads {p : Program} {span : Span} {callee : Expr} :
    Leads I I s (Lower.calledFunction p span callee) := by
  unfold Lower.calledFunction
  split
  · split
    · exact .pure
    · exact .bind .orCrash fun _ _ => .refuseAt
  · exact .bind .orCrash fun _ _ => .refuseAt

/-! ## Actions on the state -/

section
variable [Stable I]

theorem modify_leads {g : State → State} (h : s.IsBeside (g s)) : Leads I I s (modify g) :=
  Stable.beside s (g s) h

theorem set_leads {u : State} (h : s.IsBeside u) : Leads I I s (set u) := Stable.beside s u h

theorem debug_leads {text : String} : Leads I I s (Lower.debug text) :=
  modify_leads ⟨rfl, rfl, rfl, rfl⟩

theorem warn_leads {text : String} : Leads I I s (Lower.warn text) :=
  modify_leads ⟨rfl, rfl, rfl, rfl⟩

theorem defineRecord_leads {rec : Record} : Leads I I s (Lower.defineRecord rec) :=
  .bind (.get_bind (.bind (modify_leads ⟨rfl, rfl, rfl, rfl⟩) fun _ _ => .pure)) fun _ _ =>
    .bind (modify_leads ⟨rfl, rfl, rfl, rfl⟩) fun _ _ => .pure

theorem newFunc_leads {name : String} {returns : Ty} {params : List (String × Ty)} :
    Leads I I s (Lower.newFunc name returns params) :=
  .get_bind (.bind (Stable.declared s _ rfl) fun _ _ => .pure)

theorem localName_leads {f : FuncId} {name : String} : Leads I I s (Lower.localName f name) :=
  .get_bind (.bind (modify_leads ⟨rfl, rfl, rfl, rfl⟩) fun _ _ => .pure)

theorem renameInst_leads {f : FuncId} {i : InstId} {name : String} :
    Leads I I s (Lower.renameInst f i name) :=
  Stable.named s _ (s.module.sameCode_rename f i name)

theorem noteCall_leads {e : Expr} {v : Value} : Leads I I s (Lower.noteCall e v) := by
  unfold Lower.noteCall
  split
  · exact .bind (modify_leads ⟨rfl, rfl, rfl, rfl⟩) fun _ _ => .pure
  all_goals exact .pure

theorem noteVariable_leads {name : String} {v : Value} : Leads I I s (Lower.noteVariable name v) :=
  modify_leads ⟨rfl, rfl, rfl, rfl⟩

theorem bindName_leads {k : ScopeId} {name : String} {b : Binding Value}
    (hb : s.env.HidesGlobal → b.scope? ≠ some Environment.global) :
    Leads I I s (Action.bindName k name b) := by
  refine .get_bind (.bind_gives .ofCause (fun _ => id) fun e t he => ?_)
  obtain ⟨hset, rfl⟩ := he.ofCause
  exact Stable.env s e fun h => h.set hset (hb h)

theorem bindValue_leads {k : ScopeId} {name : String} {v : Value} :
    Leads I I s (Action.bindName k name (.value v)) :=
  bindName_leads fun _ => nofun

theorem createScope_leads {name : String} {o? : Option Origin} :
    Leads I I s (Action.createScope name o?) :=
  .get_bind (.bind (Stable.env s _ fun h => h.create name o?) fun _ _ => .pure)

/-! ## Types -/

theorem stringRecord_leads : Leads I I s Lower.stringRecord := by
  refine .get_bind ?_
  split
  · exact .pure
  · exact .bind defineRecord_leads fun _ _ => .bind (modify_leads ⟨rfl, rfl, rfl, rfl⟩) fun _ _ =>
      .pure

variable {p : Program}

theorem typeWith_leads {build : TypeId → Lower RecordId} (hbuild : ∀ u t, Leads I I t (build u))
    {u : TypeId} : Leads I I s (Lower.typeWith p build u) := by
  unfold Lower.typeWith
  dsimp only
  split_ifs
  · exact .pure
  · exact .pure
  · exact .bind stringRecord_leads fun _ _ => .pure
  · exact .bind (hbuild u s) fun _ _ => .pure
  · exact .pure
  · exact .refuse
  · exact .bind .answered fun _ _ => .refuse

theorem logLayout_leads {r : RecordId} : Leads I I s (Lower.logLayout r) := by
  refine .get_bind (.bind (set_leads ⟨rfl, rfl, rfl, rfl⟩) fun _ _ => ?_)
  split <;> exact debug_leads

theorem addFields_leads {build : TypeId → Lower RecordId} {r : RecordId} {qs : List SymbolId}
    (hbuild : ∀ u t, Leads I I t (build u)) : Leads I I s (Lower.addFields p build r qs) := by
  induction qs generalizing s with
  | nil => exact .pure
  | cons q qs ih =>
    exact .bind (typeWith_leads hbuild) fun _ _ =>
      .bind (modify_leads ⟨rfl, rfl, rfl, rfl⟩) fun _ _ => ih

theorem recordTo_leads (depth : Nat) {u : TypeId} {isOpaque : Bool} :
    Leads I I s (Lower.recordTo p depth u isOpaque) := by
  induction depth generalizing s u isOpaque with
  | zero => exact .throw
  | succ depth ih =>
    refine .bind .answered fun name t => .get_bind ?_
    split
    · exact .pure
    refine .bind defineRecord_leads fun r _ =>
      .bind (modify_leads ⟨rfl, rfl, rfl, rfl⟩) fun _ _ => ?_
    split
    · exact .pure
    · exact .bind (addFields_leads fun _ _ => ih) fun _ _ => .bind logLayout_leads fun _ _ => .pure

theorem record_leads {u : TypeId} {isOpaque : Bool} : Leads I I s (Lower.record p u isOpaque) :=
  recordTo_leads _

theorem type_leads {u? : Option TypeId} : Leads I I s (Lower.type p u?) := by
  cases u? with
  | none => exact .refuse
  | some u => exact typeWith_leads fun _ _ => record_leads

theorem builtinType_leads {name : String} : Leads I I s (Lower.builtinType name) := by
  unfold Lower.builtinType
  split
  any_goals exact .pure
  · exact .bind stringRecord_leads fun _ _ => .pure
  · exact .refuse

theorem builtin_leads {name : String} : Leads I I s (Lower.builtin name) := by
  refine .get_bind ?_
  split
  · exact .pure
  split
  · exact .refuse
  · exact .bind builtinType_leads fun _ _ =>
      .bind (.mapM fun _ _ _ => .bind builtinType_leads fun _ _ => .pure) fun _ _ =>
      .bind newFunc_leads fun _ _ => .bind (modify_leads ⟨rfl, rfl, rfl, rfl⟩) fun _ _ => .pure

theorem byteSize_leads {ty : Ty} : Leads I I s (Lower.byteSize ty) := by
  refine .get_bind (.bind (set_leads ⟨rfl, rfl, rfl, rfl⟩) fun _ _ => ?_)
  split
  · exact .pure
  · exact .refuse

/-! ## Values and scopes -/

theorem stringGlobal_leads {text : String} : Leads I I s (Lower.stringGlobal text) := by
  refine .get_bind ?_
  dsimp only
  split
  · exact .pure
  · exact .get_bind (.bind (modify_leads ⟨rfl, rfl, rfl, rfl⟩) fun _ _ => .pure)

theorem stringConstant_leads {text : String} : Leads I I s (Lower.stringConstant text) :=
  .bind stringGlobal_leads fun _ _ => .bind stringRecord_leads fun _ _ =>
    .bind (modify_leads ⟨rfl, rfl, rfl, rfl⟩) fun _ _ => .pure

theorem nameResult_leads {v : Value} {name : String} : Leads I I s (Lower.nameResult v name) := by
  unfold Lower.nameResult
  split
  · refine .get_bind ?_
    split
    · exact .pure
    · exact .bind (modify_leads ⟨rfl, rfl, rfl, rfl⟩) fun _ _ =>
        .get_bind (.bind localName_leads fun _ _ => renameInst_leads)
  all_goals exact .pure

theorem bindNewScope_leads {container : ScopeId} {name : String} {o : Origin} :
    Leads I I s (Lower.bindNewScope container name o) := by
  intro hs
  have hbind : (Lower.bindNewScope container name o).run s =
      ((Action.ofCause
        ((s.env.create name (some o)).2.set container name (.scope s.env.scopes.length)) >>=
        Action.setEnvironment) >>= fun _ => pure s.env.scopes.length : Lower ScopeId).run
          { s with env := (s.env.create name (some o)).2 } := rfl
  cases hset : (s.env.create name (some o)).2.set container name (.scope s.env.scopes.length) with
  | error c =>
    rw [hbind, hset]
    exact Stable.env s _ (fun h => h.create name (some o)) hs
  | ok e =>
    rw [hbind, hset]
    refine Stable.env s e (fun h => (h.create name (some o)).set hset fun he => ?_) hs
    exact Nat.ne_of_gt h.pos (Option.some.inj he)

theorem classScope_leads {decl : Node} {isAmbient : Bool} {owner : TypeId} {container : ScopeId} :
    Leads I I s (Lower.classScope p decl isAmbient owner container) := by
  refine .bind .answered fun _ _ => .bind lookupIn_leads fun b? _ => ?_
  split
  · exact .pure
  · exact .bind record_leads fun _ _ => .bind (.discard bindNewScope_leads) fun _ _ => .pure

theorem interfaceScope_leads {decl : Node} {name : String} {container : ScopeId} :
    Leads I I s (Lower.interfaceScope decl name container) := by
  refine .bind lookupIn_leads fun b? _ => ?_
  split
  · exact .pure
  · refine .bind (.discard bindNewScope_leads) fun _ _ => .bind lookupIn_leads fun _ _ => ?_
    split
    · exact .bind stringRecord_leads fun _ _ => .discard bindNewScope_leads
    · exact .pure

theorem namespaceOf_leads {decl : Node} {name : String} {container : ScopeId} :
    Leads I I s (Lower.namespaceOf decl name container) := by
  refine .bind lookupIn_leads fun b? _ => ?_
  split
  · exact .pure
  · exact bindNewScope_leads

theorem ownerScope_leads {decl : Place} {owner : TypeId} :
    Leads I I s (Lower.ownerScope p decl owner) := by
  refine .bind namespaceScope_leads fun container _ => .bind .answered fun name _ =>
    .bind lookupIn_leads fun b? _ => ?_
  split
  · exact .pure
  · exact .refuseAt
  dsimp only
  split
  case' h_1 => refine .bind (.discard classScope_leads) fun _ _ => ?_
  case' h_2 => refine .bind interfaceScope_leads fun _ _ => ?_
  all_goals
    refine .bind lookupIn_leads fun b? _ => ?_
    split
    · exact .pure
    · exact .refuseAt

theorem declaringScope_leads {decl : Place} {owner? : Option TypeId} :
    Leads I I s (Lower.declaringScope p decl owner?) := by
  unfold Lower.declaringScope
  dsimp only
  split
  · exact .refuseAt
  · split
    · exact .pure
    · exact namespaceScope_leads
    · cases owner? with
      | none => exact .bind .orCrash fun _ _ => .refuseAt
      | some owner => exact ownerScope_leads
    · cases owner? with
      | none => exact .bind .orCrash fun _ _ => .refuseAt
      | some owner => exact ownerScope_leads
    · exact .refuseAt

theorem receiverRecord_leads {k : ScopeId} {owner : TypeId} :
    Leads I I s (Lower.receiverRecord p k owner) := by
  refine .get_bind ?_
  split
  · exact .pure
  · split
    · exact .bind stringRecord_leads fun _ _ => .pure
    · exact .bind record_leads fun _ _ => .pure

theorem insideFrom_leads [Stable J] {body : Lower α} (hIJ : ∀ t, I t → J t)
    (hbody : ∀ t, Leads I J t body) (path : List String) :
    ∀ {s : State} {k : ScopeId}, Leads I J s (Lower.insideFrom k body path) := by
  induction path with
  | nil => exact .enter hbody
  | cons name path ih =>
    refine .enter fun t => .get_bind (.bind_to .ofCause hIJ fun b _ => ?_)
    split
    · exact ih
    · exact fun ht => hIJ _ ht

theorem insideNamespaces_leads [Stable J] {body : Lower α} (hIJ : ∀ t, I t → J t)
    (hbody : ∀ t, Leads I J t body)
    {path : List String} : Leads I J s (Lower.insideNamespaces path body) := by
  unfold Lower.insideNamespaces
  split
  · exact hbody s
  · exact .bind_to namespaceScope_leads hIJ fun _ _ => insideFrom_leads hIJ hbody _

/-! ## Signatures of functions -/

theorem emissionOf_leads {decl : Place} {function : FunctionLike} {owner? : Option TypeId}
    {args : List (Option TypeId)} {name : String} {parent : ScopeId} :
    Leads I I s (emissionOf p decl function owner? args name parent) := by
  refine .bind ?_ fun receiver? _ => .bind ?_ fun returns _ => .bind ?_ fun own _ =>
    .bind (.mapM fun _ _ _ => type_leads) fun types _ => .pure
  · cases owner? with
    | none => exact .pure
    | some owner => exact .map receiverRecord_leads
  · unfold Lower.returnType
    split
    · exact .bind .orCrash fun _ _ => .pure
    · split
      · exact .bind type_leads fun _ _ => .pure
      · exact .bind .orCrash fun _ _ => .bind .answered fun _ _ => .refuseAt
    all_goals exact type_leads
  · unfold Lower.receiverParam
    split
    · exact .pure
    · split
      · refine .bind (.bind isValueType_leads fun isValue _ => ?_) fun _ _ => .pure
        split <;> exact .pure
      · exact .bind .orCrash fun _ _ => .refuseAt

theorem bindParams_leads {f : FuncId} {k : ScopeId} {names : List String} :
    ∀ {s : State} {index : Nat} {qs : List Ir.Param},
    Leads I I s (Lower.bindParams f k index names qs) := by
  induction names with
  | nil =>
    intro s index qs
    unfold Lower.bindParams
    exact .pure
  | cons name names ih =>
    intro s index qs
    cases qs with
    | nil => exact .pure
    | cons q qs =>
      unfold Lower.bindParams
      split
      · exact .bind bindValue_leads fun _ _ => .bind (.discard localName_leads) fun _ _ => ih
      · exact ih

theorem verifyFunc_leads {e : Emission} {f : FuncId} : Leads I I s (Lower.verifyFunc e f) := by
  refine .get_bind ?_
  dsimp only
  split
  · exact .pure
  · refine .bind_gives func_leads (fun _ => id) fun fn t ht => ?_
    obtain ⟨-, rfl⟩ := ht.func
    split
    · refine .bind_gives .orCrash (fun _ => id) fun shown u hu => ?_
      obtain ⟨hshown, rfl⟩ := hu.orCrash
      obtain ⟨text, m⟩ := shown
      exact .bind (Stable.named s m (Module.eqUpToNumbers_printFunc hshown).sameCode) fun _ _ =>
        .throw
    · exact .throw

end

/-! ## Instructions -/

section
variable [Lasting I]

theorem modifyBlock_leads {k : Ir.Block → Ir.Block} {c : Cursor}
    (hc : c = s.cursor ∨ c = ⟨s.frame.func, 0⟩)
    (hk : Ir.Block.KeepsEnd k) : Leads I I s (Lower.modifyBlock c k) :=
  Lasting.grown s c k hc hk

theorem emit_leads {op : Op} {ty : Ty} : Leads I I s (Lower.emit op ty) := by
  refine .get_bind (.bind_gives func_leads (fun _ => id) fun fn t ht => ?_)
  obtain ⟨-, rfl⟩ := ht.func
  exact .bind (modifyBlock_leads (.inl rfl) fun _ => rfl) fun _ _ => .pure

theorem newSlot_leads {name : String} {ty : Ty} : Leads I I s (Lower.newSlot name ty) := by
  refine .get_bind (.bind_gives localName_leads (fun _ => id) fun given t ht => ?_)
  obtain ⟨_, u, hu, ht⟩ := ht.get_bind.bind
  obtain rfl := hu.modify
  obtain ⟨-, rfl⟩ := ht.pure
  refine .bind_gives func_leads (fun _ => id) fun fn u hu => ?_
  obtain ⟨-, rfl⟩ := hu.func
  exact .bind (modifyBlock_leads (.inr rfl) fun _ => rfl) fun _ _ => .pure

theorem call_leads {f : FuncId} {args : List Value} : Leads I I s (Lower.call f args) :=
  .bind funcValue_leads fun _ _ => .bind func_leads fun _ _ => emit_leads

theorem store_leads {v a : Value} : Leads I I s (Lower.store v a) := by
  unfold Lower.store
  split
  · refine .get_bind ?_
    dsimp only
    split
    · exact .bind .crash fun _ _ => .discard emit_leads
    · exact .discard emit_leads
  · exact .crash

theorem fieldAddress_leads {r : RecordId} {base : Value} {index : Nat} :
    Leads I I s (Lower.fieldAddress r base index) :=
  .get_bind (.bind .orCrash fun _ _ => emit_leads)

theorem loaded_leads {v : Value} : Leads I I s (Lower.loaded v) := by
  unfold Lower.loaded
  split
  · refine .bind isValueType_leads fun isValue _ => ?_
    split
    · exact emit_leads
    · exact .pure
  · exact .pure

variable {p : Program}

theorem allocate_leads {ty : Ty} : Leads I I s (Lower.allocate ty) := by
  refine .bind isValueType_leads fun isValue _ => ?_
  have rest {t : State} : Leads I I t (do
      let size ← Lower.byteSize ty
      let f ← Lower.builtin Builtin.gcAllocate.name
      let raw ← Lower.call f [.const (.int 32 size.toInt)]
      Lower.emit (.bitcast raw (.pointer ty)) (.pointer ty)) :=
    .bind byteSize_leads fun _ _ => .bind builtin_leads fun _ _ => .bind call_leads fun _ _ =>
      emit_leads
  split
  · exact .bind typeText_leads fun _ _ => .bind .refuse fun _ _ => rest
  · exact rest

/-! ## Expressions -/

theorem plus_leads {span : Span} {l r : Value} : Leads I I s (Lower.plus span l r) := by
  unfold Lower.plus
  split
  · exact emit_leads
  · refine .bind isString_leads fun _ _ => .bind isString_leads fun _ _ => ?_
    split
    · exact .bind builtin_leads fun _ _ => call_leads
    · exact .bind typeText_leads fun _ _ => .bind typeText_leads fun _ _ => .refuseAt

theorem binary_leads {operator : String} {span : Span} {l r : Value} :
    Leads I I s (Lower.binary operator span l r) := by
  have checked {op : Op} {ty : Ty} : Leads I I s (do
      if l.type.isDouble && r.type.isDouble then Lower.emit op ty
      else
        Lower.refuseAt
          (.invalidOperands operator (← Lower.typeText l.type) (← Lower.typeText r.type))
          span) := by
    split
    · exact emit_leads
    · exact .bind typeText_leads fun _ _ => .bind typeText_leads fun _ _ => .refuseAt
  unfold Lower.binary
  split
  · exact plus_leads
  dsimp only
  split
  · exact checked
  · exact checked
  · exact .refuseAt

theorem valueMember_leads {span : Span} {owner : TypeId} {v : Value} {name : String} :
    Leads I I s (Lower.valueMember p span owner v name) := by
  have unknown {t : State} : Leads I I t
      (do
        Lower.refuseAt (.unknownMember name (← Lower.answered (p.typeText owner))) span :
          Lower Value) :=
    .bind .answered fun _ _ => .refuseAt
  refine .bind isString_leads fun _ _ => ?_
  split
  · exact .bind emit_leads fun _ _ => emit_leads
  · dsimp only
    split
    · refine .get_bind ?_
      split
      · exact unknown
      · split
        · exact unknown
        · exact fieldAddress_leads
    · exact unknown

def EmitterLeads (I : State → Prop) (emitFunction : Emitter) : Prop :=
  ∀ d owner? args s, Leads I I s (Lower.keepingCursor (emitFunction d owner? args))

variable {emitFunction : Emitter}

mutual

theorem lvalue_leads (hem : EmitterLeads I emitFunction) : (e : Expr) → ∀ {s : State},
    Leads I I s (Lower.lvalue p emitFunction e)
  | .missing, s => .crash
  | .numeric _ x, s => .pure
  | .boolean _ b, s => .pure
  | .text _ text, s => .bind stringConstant_leads fun _ _ => .pure
  | .ident i name, s => lookupValue_leads
  | .this i, s => lookupValue_leads
  | .binary i operator l r, s => by
    have rest {t : State} : Leads I I t (do
        let l ← Lower.loaded (← Lower.lvalue p emitFunction l)
        let r ← Lower.loaded (← Lower.lvalue p emitFunction r)
        Lower.binary operator i.span l r) :=
      .bind (lvalue_leads hem l) fun _ _ => .bind loaded_leads fun _ _ =>
        .bind (lvalue_leads hem r) fun _ _ => .bind loaded_leads fun _ _ => binary_leads
    rw [Lower.lvalue]
    split
    · exact .bind .refuseAt fun _ _ => rest
    · exact rest
  | .unary i operator x, s => by
    have rest {t : State} : Leads I I t (do Lower.loaded (← Lower.lvalue p emitFunction x)) :=
      .bind (lvalue_leads hem x) fun _ _ => loaded_leads
    rw [Lower.lvalue]
    split
    · exact .bind .refuseAt fun _ _ => rest
    · exact rest
  | .member i object name, s => by
    have rest {t : State} : Leads I I t (do
        Lower.valueMember p i.span object.type
          (← Lower.loaded (← Lower.lvalue p emitFunction object)) name) :=
      .bind (lvalue_leads hem object) fun _ _ => .bind loaded_leads fun _ _ => valueMember_leads
    rw [Lower.lvalue]
    refine .bind (scopeOf?_leads object) fun k? _ => ?_
    split
    · exact scopeMember_leads
    · split
      · exact .bind .orCrash fun _ _ => .bind .refuseAt fun _ _ => rest
      · exact rest
  | .construct i callee args, s => by
    rw [Lower.lvalue]
    exact .bind constructorOf_leads fun d _ => .bind (hem _ _ _ _) fun _ _ =>
      .bind (rvalues_leads hem args) fun _ _ =>
      .bind call_leads fun _ _ => noteCall_leads
  | .call i callee args, s => by
    rw [Lower.lvalue]
    refine .bind calledFunction_leads fun d _ => .bind (hem _ _ _ _) fun _ _ => ?_
    split
    · rename_i j object name _
      exact .bind (lvalue_leads hem object) fun _ _ => .bind loaded_leads fun _ _ =>
        .bind (rvalues_leads hem args) fun _ _ => .bind call_leads fun _ _ => noteCall_leads
    · exact .bind (rvalues_leads hem args) fun _ _ => .bind call_leads fun _ _ => noteCall_leads
  | .unknown i name, s => .bind .orCrash fun _ _ => .refuseAt

theorem rvalues_leads (hem : EmitterLeads I emitFunction) : (es : List Expr) → ∀ {s : State},
    Leads I I s (Lower.rvalues p emitFunction es)
  | [], s => .pure
  | e :: es, s => by
    rw [Lower.rvalues]
    exact .bind (lvalue_leads hem e) fun _ _ => .bind loaded_leads fun _ _ =>
      .bind (rvalues_leads hem es) fun _ _ => .pure

end

theorem rvalue_leads (hem : EmitterLeads I emitFunction) (e : Expr) :
    Leads I I s (Lower.rvalue p emitFunction e) :=
  .bind (lvalue_leads hem e) fun _ _ => loaded_leads

end

end

end Lowering

end CheckedIR

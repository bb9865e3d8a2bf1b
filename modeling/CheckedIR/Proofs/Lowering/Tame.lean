import CheckedIR.Proofs.Ir.Writable
import CheckedIR.Proofs.Lowering.Gives

/-!
# Tame actions

A state is tidy if its module is and every name stands for something that can be written. An action
is tame when it keeps a tidy state tidy and does not crash.
-/

namespace CheckedIR

def Fault.IsReported : Fault → Prop
  | .refused f => ∃ d, f = .diagnosed d
  | .exhausted => True
  | .crashed => False

theorem Fault.IsReported.orAt {f : Fault} (h : f.IsReported) (s : Span) :
    (f.orAt s).IsReported := by
  unfold Fault.orAt
  split
  · exact ⟨_, rfl⟩
  · exact h

end CheckedIR

namespace CheckedIR.Ir.Module

variable {m : Module}

theorem IsTidy.modifyFunc (h : m.IsTidy) {f : FuncId} {k : Func → Func}
    (hnumber : ∀ fn, (k fn).number = fn.number)
    (hk : ∀ fn, m.func? f = some fn → fn.IsTidy → (k fn).IsTidy) : (m.modifyFunc f k).IsTidy := by
  intro fn hfn
  obtain ⟨g, hg⟩ := List.getElem?_of_mem hfn
  have hg' : (m.modifyFunc f k).func? g = some fn := hg
  rw [func?_modifyFunc] at hg'
  split at hg'
  · rename_i he
    subst he
    obtain ⟨old, hold, rfl⟩ := Option.map_eq_some_iff.1 hg'
    obtain ⟨hn, ht⟩ := h old (List.mem_of_getElem? hold)
    exact ⟨(hnumber old).trans hn, hk old hold ht⟩
  · exact h fn (List.mem_of_getElem? hg')

theorem IsTidy.modifyBlock (h : m.IsTidy) {f : FuncId} {i : Nat} {k : Block → Block}
    (hk : ∀ b, b.IsTidy → (k b).IsTidy) :
    (m.modifyFunc f fun g => { g with blocks := g.blocks.modify i k }).IsTidy := by
  refine h.modifyFunc (fun _ => rfl) fun fn _ hfn => ⟨hfn.params, fun b hb => ?_⟩
  obtain ⟨j, hj⟩ := List.getElem?_of_mem hb
  rw [List.getElem?_modify] at hj
  obtain ⟨old, hold, rfl⟩ := Option.map_eq_some_iff.1 hj
  have htidy := hfn.blocks old (List.mem_of_getElem? hold)
  split
  · exact hk old htidy
  · exact htidy

theorem IsTidy.setBody (h : m.IsTidy) {f : FuncId} {b : Block} (hb : b.IsTidy) :
    (m.setBody f b).IsTidy :=
  h.modifyFunc (fun _ => rfl) fun _ _ hfn =>
    ⟨hfn.params, fun _ hb' => List.mem_singleton.1 hb' ▸ hb⟩

theorem IsTidy.snoc (h : m.IsTidy) {fn : Func} (hnumber : fn.number = 0) (hfn : fn.IsTidy) :
    Module.IsTidy { m with funcs := m.funcs ++ [fn] } := by
  intro g hg
  rcases List.mem_append.1 hg with hg | hg
  · exact h g hg
  · exact List.mem_singleton.1 hg ▸ ⟨hnumber, hfn⟩

end CheckedIR.Ir.Module

namespace CheckedIR.Lowering

open CheckedIR.Ir CheckedIR.Program CheckedIR.Scope CheckedIR.Scope.Action

structure State.IsTidy (s : State) : Prop where
  module : s.module.IsTidy
  names : ∀ k name v, s.env.lookupIn k name = some (.value v) → v.IsWritable
  this : ∀ v, s.frame.this? = some v → v.IsWritable

/-- Run from `s`, action `x` does not crash, and if `s` is tidy and there is an answer, it satisfies
`Q` and the state is tidy again. -/
def Tame {α : Type} (s : State) (x : Lower α) (Q : α → Prop) : Prop :=
  s.IsTidy → Ends x s (fun a t => t.IsTidy ∧ Q a) fun f _ => f.IsReported

namespace Tame

variable {α β : Type} {s t : State} {x : Lower α} {Q : α → Prop} {R : β → Prop}

theorem pure {a : α} (h : Q a) : Tame s (pure a) Q := fun hs => ⟨hs, h⟩

theorem throw {f : Fault} (h : f.IsReported) : Tame s (throw f) Q := fun _ => h

theorem refuse {c : Cause} : Tame s (Lower.refuse c) Q := .throw ⟨_, rfl⟩

theorem refuseAt {c : Cause} {span : Span} : Tame s (Lower.refuseAt c span) Q := .throw ⟨_, rfl⟩

theorem answered {a? : Option α} : Tame s (Lower.answered a?) fun _ => True := by
  cases a? with
  | none => exact .throw trivial
  | some a => exact .pure trivial

theorem ofCause {r : Except Cause α} (h : ∀ a, r = .ok a → Q a) : Tame s (Action.ofCause r) Q := by
  cases r with
  | error c => exact .refuse
  | ok a => exact .pure (h a rfl)

theorem ofExcept {r : Except Fault α} (hf : ∀ f, r = .error f → f.IsReported) :
    Tame s (Lower.ofExcept r) fun _ => True := by
  cases r with
  | error f => exact .throw (hf f rfl)
  | ok a => exact .pure trivial

theorem mono {Q' : α → Prop} (h : Tame s x Q) (hQ : ∀ a, Q a → Q' a) : Tame s x Q' :=
  fun hs => (h hs).mono (fun a _ ha => ⟨ha.1, hQ a ha.2⟩) fun _ _ => id

theorem bind {k : α → Lower β} (h : Tame s x Q) (hk : ∀ a t, Q a → Tame t (k a) R) :
    Tame s (x >>= k) R := by
  intro hs
  rw [ends_bind]
  exact (h hs).mono (fun a t ⟨ht, ha⟩ => hk a t ha ht) fun _ _ => id

theorem get_bind {k : State → Lower β} (h : Tame s (k s) R) : Tame s (get >>= k) R := by
  intro hs
  rw [ends_get_bind]
  exact h hs

theorem map {k : α → β} (h : Tame s x fun a => R (k a)) : Tame s (k <$> x) R := by
  rw [map_eq_pure_bind]
  exact h.bind fun _ _ ha => .pure ha

theorem discard (h : Tame s x Q) : Tame s (discard x) fun _ => True :=
  .map (h.mono fun _ _ => trivial)

theorem keep {g : State → State} (h : s.IsTidy → (g s).IsTidy) : Tame s (modify g) fun _ => True :=
  fun hs => ⟨h hs, trivial⟩

theorem step {y : Lower α} (ht : s.IsTidy → t.IsTidy) (hrun : x.run s = y.run t) (hy : Tame t y Q) :
    Tame s x Q := by
  intro hs
  unfold Ends
  rw [hrun]
  exact hy (ht hs)

theorem aside {g : State → State} (hfuncs : (g s).module.funcs = s.module.funcs)
    (henv : (g s).env = s.env) (hframe : (g s).frame = s.frame) : Tame s (modify g) fun _ => True :=
  .keep fun hs => ⟨fun fn hfn => hs.module fn (hfuncs ▸ hfn), henv ▸ hs.names, hframe ▸ hs.this⟩

theorem set {u : State} (hfuncs : u.module.funcs = s.module.funcs) (henv : u.env = s.env)
    (hframe : u.frame = s.frame) : Tame s (set u) fun _ => True :=
  .aside (g := fun _ => u) hfuncs henv hframe

theorem func_bind {f : FuncId} {fn : Func} {k : Func → Lower β} (hf : s.module.func? f = some fn)
    (hk : Tame s (k fn) R) : Tame s (Lower.func f >>= k) R := by
  intro hs
  unfold Ends
  rw [run_bind, run_func hf]
  exact hk hs

theorem orCrash_bind {a? : Option α} {k : α → Lower β} (h : ∃ a, a? = some a)
    (hk : ∀ a, Tame s (k a) R) : Tame s (Lower.orCrash a? >>= k) R := by
  obtain ⟨a, rfl⟩ := h
  exact hk a

theorem orAt {span : Span} (h : Tame s x Q) : Tame s (Lower.orAt span x) Q := by
  intro hs
  rw [Lower.orAt, ends_tryCatch]
  exact (h hs).mono (fun _ _ => id) fun _ _ hf => hf.orAt span

theorem mapM {l : List β} {f : β → Lower α} (h : ∀ b ∈ l, ∀ t, Tame t (f b) fun _ => True) :
    Tame s (l.mapM f) fun _ => True := by
  induction l generalizing s with
  | nil => exact .pure trivial
  | cons b l ih =>
    rw [List.mapM_cons]
    exact .bind (h b List.mem_cons_self s) fun _ _ _ =>
      .bind (ih fun b hb => h b (List.mem_cons_of_mem _ hb)) fun _ _ _ => .pure trivial

end Tame

section
variable {p : Program} {s : State}

/-! ## Log and functions -/

theorem debug_tame {text : String} : Tame s (Lower.debug text) fun _ => True := .aside rfl rfl rfl

theorem warn_tame {text : String} : Tame s (Lower.warn text) fun _ => True := .aside rfl rfl rfl

theorem typeText_tame {t : Ty} : Tame s (Lower.typeText t) fun _ => True :=
  .get_bind (.pure trivial)

theorem localName_tame {f : FuncId} {name : String} :
    Tame s (Lower.localName f name) fun _ => True :=
  .get_bind (.bind (.aside rfl rfl rfl) fun _ _ _ => .pure trivial)

theorem noteCall_tame {e : Expr} {v : Value} (hv : v.IsWritable) :
    Tame s (Lower.noteCall e v) Value.IsWritable := by
  unfold Lower.noteCall
  split
  · exact .bind (.aside rfl rfl rfl) fun _ _ _ => .pure hv
  all_goals exact .pure hv

theorem noteVariable_tame {name : String} {v : Value} :
    Tame s (Lower.noteVariable name v) fun _ => True :=
  .aside rfl rfl rfl

theorem newFunc_tame {name : String} {returns : Ty} {params : List (String × Ty)} :
    Tame s (Lower.newFunc name returns params) fun _ => True := by
  refine .get_bind
    (.bind (.keep fun hs => ⟨hs.module.snoc rfl ⟨fun q hq => ?_, nofun⟩, hs.names, hs.this⟩)
    fun _ _ _ => .pure trivial)
  obtain ⟨_, -, rfl⟩ := List.mem_map.1 hq
  rfl

theorem modifyBlock_tame {c : Cursor} {k : Ir.Block → Ir.Block}
    (hk : ∀ b, b.IsTidy → (k b).IsTidy) : Tame s (Lower.modifyBlock c k) fun _ => True :=
  .keep fun hs => ⟨hs.module.modifyBlock hk, hs.names, hs.this⟩

theorem emit_tame {op : Op} {t : Ty} {fn : Func} (hf : s.module.func? s.cursor.func = some fn)
    (hop : op.IsWritable) : Tame s (Lower.emit op t) Value.IsWritable := by
  refine .get_bind
    (.func_bind hf (.bind (modifyBlock_tame fun b hb => ⟨hb.number, fun i hi => ?_, hb.ending⟩)
    fun _ _ _ => .pure trivial))
  rcases List.mem_append.1 hi with hi | hi
  · exact hb.insts i hi
  · exact List.mem_singleton.1 hi ▸ ⟨rfl, hop⟩

theorem isWritable_call {f : FuncId} {fn : Func} {args : List Value}
    (hargs : ∀ v ∈ args, v.IsWritable) :
    (Op.call (.func f (.pointer fn.signature)) args).IsWritable where
  operands v hv := by
    rcases List.mem_cons.1 hv with rfl | hv
    · trivial
    · exact hargs v hv
  callee callee args' h := by
    cases h
    exact ⟨_, rfl⟩

theorem isWritable_op {op : Op} (hcall : op.isCall = false) (hv : ∀ v ∈ op.operands, v.IsWritable) :
    op.IsWritable where
  operands := hv
  callee callee args h := by
    subst h
    cases hcall

theorem call_tame {f : FuncId} {args : List Value} {fn callee : Func}
    (hf : s.module.func? s.cursor.func = some fn)
    (hg : s.module.func? f = some callee) (hargs : ∀ v ∈ args, v.IsWritable) :
    Tame s (Lower.call f args) Value.IsWritable := by
  unfold Lower.call Lower.funcValue
  rw [bind_assoc]
  refine .func_bind hg ?_
  rw [pure_bind]
  exact .func_bind hg (emit_tame hf (isWritable_call hargs))

theorem newSlot_tame {name : String} {t : Ty} {fn : Func}
    (hf : s.module.func? s.frame.func = some fn) :
    Tame s (Lower.newSlot name t) Value.IsWritable := by
  let n := s.given s.frame.func name
  let t' : State := { s with locals := s.giving s.frame.func name }
  refine .step (t := t') (fun hs => ⟨hs.module, hs.names, hs.this⟩) (y := do
    let id := (← Lower.func s.frame.func).insts.length
    Lower.modifyBlock ⟨s.frame.func, 0⟩ fun b =>
      { b with insts := ⟨id, countedName name n, 0, .alloca t⟩ :: b.insts }
    return .inst s.frame.func id (.pointer t)) rfl ?_
  refine .func_bind hf (.bind (modifyBlock_tame fun b hb => ⟨hb.number, fun i hi => ?_, hb.ending⟩)
    fun _ _ _ => .pure trivial)
  rcases List.mem_cons.1 hi with rfl | hi
  · exact ⟨rfl, isWritable_op rfl nofun⟩
  · exact hb.insts i hi

theorem terminate_tame {t : Terminator} (ht : t.IsWritable) :
    Tame s (Lower.terminate t) fun _ => True :=
  .get_bind (modifyBlock_tame fun _ hb => ⟨hb.number, hb.insts,
    fun _ ht' => Option.some.inj ht' ▸ ht⟩)

theorem nameResult_tame {v : Value} {name : String} :
    Tame s (Lower.nameResult v name) fun _ => True := by
  unfold Lower.nameResult
  split
  · refine .get_bind ?_
    split
    · exact .pure trivial
    · refine .bind (.aside rfl rfl rfl) fun _ _ _ =>
        .get_bind (.bind localName_tame fun n _ _ => .keep fun hs =>
        ⟨hs.module.modifyFunc (fun _ => rfl) fun fn _ hfn => ⟨hfn.params, fun b hb => ?_⟩,
          hs.names, hs.this⟩)
      obtain ⟨old, hold, rfl⟩ := List.mem_map.1 hb
      refine ⟨(hfn.blocks old hold).number, fun i hi => ?_, (hfn.blocks old hold).ending⟩
      obtain ⟨inst, hinst, rfl⟩ := List.mem_map.1 hi
      have htidy := (hfn.blocks old hold).insts inst hinst
      split <;> exact htidy
  all_goals exact .pure trivial

/-! ## Types -/

theorem defineRecord_tame {r : Record} : Tame s (Lower.defineRecord r) fun _ => True :=
  have newRecord : Tame s (Lower.newRecord r) fun _ => True :=
    .get_bind (.bind (.aside rfl rfl rfl) fun _ _ _ => .pure trivial)
  .bind newRecord fun _ _ _ => .bind (.aside rfl rfl rfl) fun _ _ _ => .pure trivial

theorem stringRecord_tame : Tame s Lower.stringRecord fun _ => True := by
  refine .get_bind ?_
  split
  · exact .pure trivial
  · exact .bind defineRecord_tame fun _ _ _ => .bind (.aside rfl rfl rfl) fun _ _ _ => .pure trivial

theorem typeWith_tame {build : TypeId → Lower RecordId}
    (hbuild : ∀ u t, Tame t (build u) fun _ => True) {u : TypeId} :
    Tame s (Lower.typeWith p build u) fun _ => True := by
  unfold Lower.typeWith
  dsimp only
  split_ifs
  · exact .pure trivial
  · exact .pure trivial
  · exact .bind stringRecord_tame fun _ _ _ => .pure trivial
  · exact .bind (hbuild u s) fun _ _ _ => .pure trivial
  · exact .pure trivial
  · exact .refuse
  · exact .bind .answered fun _ _ _ => .refuse

theorem logLayout_tame {r : RecordId} : Tame s (Lower.logLayout r) fun _ => True := by
  refine .get_bind (.bind (.set rfl rfl rfl) fun _ _ _ => ?_)
  split <;> exact debug_tame

theorem addFields_tame {build : TypeId → Lower RecordId} {r : RecordId} {qs : List SymbolId}
    (hbuild : ∀ u t, Tame t (build u) fun _ => True) :
    Tame s (Lower.addFields p build r qs) fun _ => True := by
  induction qs generalizing s with
  | nil => exact .pure trivial
  | cons q qs ih =>
    exact .bind (typeWith_tame hbuild) fun _ _ _ => .bind (.aside rfl rfl rfl) fun _ _ _ => ih

theorem recordTo_tame (depth : Nat) {u : TypeId} {isOpaque : Bool} :
    Tame s (Lower.recordTo p depth u isOpaque) fun _ => True := by
  induction depth generalizing s u isOpaque with
  | zero => exact .throw trivial
  | succ depth ih =>
    refine .bind .answered fun _ _ _ => .get_bind ?_
    split
    · exact .pure trivial
    · refine .bind defineRecord_tame fun _ _ _ => .bind (.aside rfl rfl rfl) fun _ _ _ => ?_
      split
      · exact .pure trivial
      · exact .bind (addFields_tame fun _ _ => ih) fun _ _ _ => .bind logLayout_tame fun _ _ _ =>
          .pure trivial

theorem record_tame {u : TypeId} {isOpaque : Bool} :
    Tame s (Lower.record p u isOpaque) fun _ => True := recordTo_tame _

theorem type_tame {u? : Option TypeId} : Tame s (Lower.type p u?) fun _ => True := by
  cases u? with
  | none => exact .refuse
  | some u => exact typeWith_tame fun _ _ => record_tame

theorem isString_tame {t : Ty} : Tame s (Lower.isString t) fun _ => True := by
  refine .get_bind ?_
  split <;> exact .pure trivial

theorem isValueType_tame {t : Ty} : Tame s (Lower.isValueType t) fun _ => True := by
  unfold Lower.isValueType
  split
  any_goals exact .pure trivial
  exact isString_tame

theorem builtinType_tame {name : String} : Tame s (Lower.builtinType name) fun _ => True := by
  unfold Lower.builtinType
  split
  any_goals exact .pure trivial
  · exact .bind stringRecord_tame fun _ _ _ => .pure trivial
  · exact .refuse

theorem builtin_tame {name : String} : Tame s (Lower.builtin name) fun _ => True := by
  refine .get_bind ?_
  split
  · exact .pure trivial
  split
  · exact .refuse
  · exact .bind builtinType_tame fun _ _ _ =>
      .bind (.mapM fun _ _ _ => .bind builtinType_tame fun _ _ _ => .pure trivial) fun _ _ _ =>
      .bind newFunc_tame fun _ _ _ => .bind (.aside rfl rfl rfl) fun _ _ _ => .pure trivial

theorem byteSize_tame {t : Ty} : Tame s (Lower.byteSize t) fun _ => True := by
  refine .get_bind (.bind (.set rfl rfl rfl) fun _ _ _ => ?_)
  split
  · exact .pure trivial
  · exact .refuse

/-! ## Values -/

theorem stringGlobal_tame {text : String} : Tame s (Lower.stringGlobal text) fun _ => True := by
  refine .get_bind ?_
  dsimp only
  split
  · exact .pure trivial
  · exact .get_bind (.bind (.aside rfl rfl rfl) fun _ _ _ => .pure trivial)

theorem stringConstant_tame {text : String} : Tame s (Lower.stringConstant text) Const.IsWritable :=
  .bind stringGlobal_tame fun _ _ _ => .bind stringRecord_tame fun _ _ _ =>
    .bind (.aside rfl rfl rfl) fun _ _ _ =>
    .pure trivial

theorem localValue_tame {name : String} {v : Value} (hv : v.IsWritable) :
    Tame s (Lower.localValue name v) Value.IsWritable := by
  refine .get_bind ?_
  split
  · exact .pure hv
  · exact .refuse

theorem scopeOf?_tame (e : Expr) : Tame s (Lower.scopeOf? e) fun _ => True := by
  induction e using Lower.scopeOf?.induct generalizing s with
  | case1 i name =>
    refine .get_bind ?_
    split <;> exact .pure trivial
  | case2 i object name ih =>
    refine .bind ih fun k? _ _ => ?_
    split
    · exact .pure trivial
    · exact .get_bind (.pure trivial)
  | case3 e hident hmember =>
    unfold Lower.scopeOf?
    split
    · exact (hident _ _ rfl).elim
    · exact (hmember _ _ _ rfl).elim
    · exact .pure trivial

/-! ## Names -/

def WritableBinding (b : Binding Value) : Prop := ∀ v, b = .value v → v.IsWritable

theorem bindName_tame {k : ScopeId} {name : String} {b : Binding Value} (hb : WritableBinding b) :
    Tame s (Action.bindName k name b) fun _ => True := by
  refine .get_bind ?_
  change Tame s (Action.ofCause (s.env.set k name b) >>= Action.setEnvironment) _
  cases he : s.env.set k name b with
  | error c => exact .bind (Q := fun _ => False) .refuse fun _ _ h => h.elim
  | ok e =>
    refine .keep fun hs => ⟨hs.module, fun k' n v hv => ?_, hs.this⟩
    exact (lookupIn_set he hv).elim (hs.names k' n v) fun hv => hb v hv.symm

theorem createScope_tame {name : String} {o? : Option Origin} :
    Tame s (Action.createScope name o?) fun _ => True :=
  .get_bind (.bind (.keep fun hs => ⟨hs.module, fun k n v h => hs.names k n v (by
    rwa [← lookupIn_create s.env (.fresh name o?) rfl k n]), hs.this⟩) fun _ _ _ => .pure trivial)

theorem lookupIn_tame {k : ScopeId} {name : String} :
    Tame s (Lower.lookupIn k name) fun _ => True :=
  .get_bind (.pure trivial)

theorem bindNewScope_tame {container : ScopeId} {name : String} {o : Origin} :
    Tame s (Lower.bindNewScope container name o) fun _ => True :=
  .bind createScope_tame fun _ _ _ => .bind (bindName_tame nofun) fun _ _ _ => .pure trivial

theorem classScope_tame {decl : Node} {isAmbient : Bool} {owner : TypeId} {container : ScopeId} :
    Tame s (Lower.classScope p decl isAmbient owner container) fun _ => True := by
  refine .bind .answered fun _ _ _ => .bind lookupIn_tame fun b? _ _ => ?_
  split
  · exact .pure trivial
  · exact .bind record_tame fun _ _ _ => .bind (.discard bindNewScope_tame) fun _ _ _ =>
      .pure trivial

theorem interfaceScope_tame {decl : Node} {name : String} {container : ScopeId} :
    Tame s (Lower.interfaceScope decl name container) fun _ => True := by
  refine .bind lookupIn_tame fun b? _ _ => ?_
  split
  · exact .pure trivial
  · refine .bind (.discard bindNewScope_tame) fun _ _ _ => .bind lookupIn_tame fun _ _ _ => ?_
    split
    · exact .bind stringRecord_tame fun _ _ _ => .discard bindNewScope_tame
    · exact .pure trivial

theorem namespaceScope_tame {path : List String} :
    Tame s (Lower.namespaceScope path) fun _ => True := by
  unfold Lower.namespaceScope
  split
  · exact .pure trivial
  · exact .get_bind (.ofCause fun _ _ => trivial)

theorem namespaceOf_tame {decl : Node} {name : String} {container : ScopeId} :
    Tame s (Lower.namespaceOf decl name container) fun _ => True := by
  refine .bind lookupIn_tame fun b? _ _ => ?_
  split
  · exact .pure trivial
  · exact bindNewScope_tame

theorem ownerScope_tame {decl : Place} {owner : TypeId} :
    Tame s (Lower.ownerScope p decl owner) fun _ => True := by
  refine .bind namespaceScope_tame fun container _ _ => .bind .answered fun name _ _ =>
    .bind lookupIn_tame fun b? _ _ => ?_
  split
  · exact .pure trivial
  · exact .refuseAt
  dsimp only
  split
  case' h_1 => refine .bind (.discard classScope_tame) fun _ _ _ => ?_
  case' h_2 => refine .bind interfaceScope_tame fun _ _ _ => ?_
  -- once its declaration was visited, the scope is there or the owner is refused
  all_goals
    refine .bind lookupIn_tame fun b? _ _ => ?_
    split
    · exact .pure trivial
    · exact .refuseAt

theorem declaringScope_tame {decl : Place} {owner? : Option TypeId}
    (hsource : ∃ text, decl.node.source = some text) :
    Tame s (Lower.declaringScope p decl owner?) fun _ => True := by
  unfold Lower.declaringScope
  dsimp only
  split
  · exact .refuseAt
  · split
    · exact .pure trivial
    · exact namespaceScope_tame
    · cases owner? with
      | none => exact .orCrash_bind hsource fun _ => .refuseAt
      | some owner => exact ownerScope_tame
    · cases owner? with
      | none => exact .orCrash_bind hsource fun _ => .refuseAt
      | some owner => exact ownerScope_tame
    · exact .refuseAt

theorem receiverRecord_tame {k : ScopeId} {owner : TypeId} :
    Tame s (Lower.receiverRecord p k owner) fun _ => True := by
  refine .get_bind ?_
  split
  · exact .pure trivial
  · split
    · exact .bind stringRecord_tame fun _ _ _ => .pure trivial
    · exact .bind record_tame fun _ _ _ => .pure trivial

end

end CheckedIR.Lowering

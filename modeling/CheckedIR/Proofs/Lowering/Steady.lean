import CheckedIR.Proofs.Lowering.Gives
import CheckedIR.Proofs.Lowering.Tables

/-!
# Steady actions

An action is steady when, from any state and however it ends, it only enters things into the tables,
binds nothing anew and leaves the same scopes active, and when it does not exhaust the lowering as
long as there is room. Nothing is assumed about the state, so this also holds of what comes after a
request that failed.
-/

namespace CheckedIR.Lowering

open CheckedIR.Ir CheckedIR.Program CheckedIR.Scope CheckedIR.Scope.Action

structure State.Grows (p : Program) (declares : Bool) (s t : State) : Prop where
  tables : s.tables.Grows p declares t.tables
  env : s.env.Extends t.env

/-- Run from `s`, action `x` enters functions only if `declares` says so, and ends if `R` holds. -/
def Steady (p : Program) (declares : Bool) (R : Room p) {α : Type} (s : State) (x : Lower α) :
    Prop :=
  Ends x s (fun _ t => s.Grows p declares t) fun f t => s.Grows p declares t ∧
    (R.holds s.tables → f ≠ .exhausted)

section
variable {p : Program} {declares : Bool} {R R' : Room p} {s t u : State} {α β : Type} {x : Lower α}

namespace State.Grows

theorem refl (s : State) : s.Grows p declares s := ⟨.refl, .refl s.env⟩

theorem trans (h : s.Grows p declares t) (h' : t.Grows p declares u) : s.Grows p declares u :=
  ⟨h.tables.trans h'.tables, h.env.trans h'.env⟩

theorem declaring (h : s.Grows p declares t) : s.Grows p true t := ⟨h.tables.declaring, h.env⟩

end State.Grows

theorem Gives.answered {a? : Option α} {a : α} (h : Gives (Lower.answered a?) s a t) :
    a? = some a ∧ s = t := by
  cases a? with
  | none => exact h.not_throw.elim
  | some b =>
    obtain ⟨rfl, rfl⟩ := h.pure
    exact ⟨rfl, rfl⟩

namespace Steady

theorem grows (h : Steady p declares R s x) : s.Grows p declares (x.run s).2 := by
  unfold Steady Ends at h
  revert h
  rcases x.run s with ⟨f | a, t⟩
  · exact And.left
  · exact id

theorem gives {a : α} (h : Steady p declares R s x) (hx : Gives x s a t) :
    s.Grows p declares t := by
  unfold Steady Ends at h
  rwa [show x.run s = (.ok a, t) from hx] at h

theorem ne_exhausted (h : Steady p declares R s x) (hR : R.holds s.tables) :
    (x.run s).1 ≠ .error .exhausted := by
  unfold Steady Ends at h
  revert h
  rcases x.run s with ⟨f | a, t⟩
  · exact fun h he => h.2 hR (Except.error.inj he)
  · nofun

theorem weaken (h : Steady p declares R s x) (hR : R'.holds s.tables → R.holds s.tables) :
    Steady p declares R' s x :=
  Ends.mono h (fun _ _ => id) fun _ _ hf => ⟨hf.1, fun hr => hf.2 (hR hr)⟩

theorem pure {a : α} : Steady p declares R s (pure a) := State.Grows.refl s

theorem throw {f : Fault} (h : R.holds s.tables → f ≠ .exhausted) :
    Steady p declares R s (throw f : Lower α) :=
  ⟨.refl s, h⟩

theorem refuse {c : Cause} : Steady p declares R s (Lower.refuse c : Lower α) :=
  .throw fun _ => nofun

theorem refuseAt {c : Cause} {span : Span} :
    Steady p declares R s (Lower.refuseAt c span : Lower α) := .throw fun _ => nofun

theorem crash : Steady p declares R s (Lower.crash : Lower α) := .throw fun _ => nofun

theorem orCrash {a? : Option α} : Steady p declares R s (Lower.orCrash a?) := by
  cases a? with
  | none => exact .crash
  | some a => exact .pure

theorem answered {a? : Option α} (h : p.IsAcyclic → a?.isSome) :
    Steady p declares R s (Lower.answered a?) := by
  cases a? with
  | none => exact .throw fun hR => absurd (h (R.acyclic _ hR)) (by simp)
  | some a => exact .pure

theorem ofCause {r : Except Cause α} : Steady p declares R s (Action.ofCause r) := by
  cases r with
  | error c => exact .refuse
  | ok a => exact .pure

theorem ofExcept {r : Except Fault α} (h : p.IsAcyclic → r ≠ .error .exhausted) :
    Steady p declares R s (Lower.ofExcept r) := by
  cases r with
  | error f => exact .throw fun hR he => h (R.acyclic _ hR) (he ▸ rfl)
  | ok a => exact .pure

theorem bind_of {k : α → Lower β} (h : Steady p declares R s x)
    (hk : ∀ a t, Gives x s a t → s.Grows p declares t → Steady p declares R t (k a)) :
    Steady p declares R s (x >>= k) := by
  unfold Steady
  rw [ends_bind]
  refine (Ends.and h (ends_gives h)).mono (fun a t ⟨hg, ha⟩ => ?_) fun _ _ => And.left
  exact (hk a t ha hg).mono (fun _ _ hg' => hg.trans hg') fun _ _ hf =>
    ⟨hg.trans hf.1, fun hR => hf.2 (R.keeps _ _ hg.declaring.tables hR)⟩

theorem bind {k : α → Lower β} (h : Steady p declares R s x)
    (hk : ∀ a t, Steady p declares R t (k a)) : Steady p declares R s (x >>= k) :=
  h.bind_of fun a t _ _ => hk a t

theorem get_bind {k : State → Lower β} (h : Steady p declares R s (k s)) :
    Steady p declares R s (get >>= k) := by
  unfold Steady
  rwa [ends_get_bind]

theorem map {k : α → β} (h : Steady p declares R s x) : Steady p declares R s (k <$> x) := by
  rw [map_eq_pure_bind]
  exact h.bind fun _ _ => .pure

theorem discard (h : Steady p declares R s x) : Steady p declares R s (discard x) := .map h

theorem rebind {g : State → State} (h : (g s).tables = s.tables) (he : s.env.Extends (g s).env) :
    Steady p declares R s (modify g) :=
  have hgrows : s.tables.Grows p declares (g s).tables := h ▸ .refl
  State.Grows.mk hgrows he

theorem aside {g : State → State} (h : (g s).tables = s.tables) (he : (g s).env = s.env) :
    Steady p declares R s (modify g) :=
  .rebind h (he ▸ .refl s.env)

theorem set (h : u.tables = s.tables) (he : u.env = s.env) : Steady p declares R s (set u) :=
  .aside (g := fun _ => u) h he

theorem step_room {y : Lower α} (hstep : Registers p declares s.tables t.tables)
    (he : t.env = s.env) (hrun : x.run s = y.run t) (hR : R.holds s.tables → R'.holds t.tables)
    (hy : Steady p declares R' t y) : Steady p declares R s x := by
  have hfirst : s.Grows p declares t := ⟨.single hstep, he ▸ .refl s.env⟩
  unfold Steady Ends at hy ⊢
  rw [hrun]
  exact Ends.mono (x := y) hy (fun _ _ hg => hfirst.trans hg) fun _ _ hf =>
    ⟨hfirst.trans hf.1, fun hr => hf.2 (hR hr)⟩

theorem step {y : Lower α} (hstep : Registers p declares s.tables t.tables) (he : t.env = s.env)
    (hrun : x.run s = y.run t) (hy : Steady p declares R t y) : Steady p declares R s x :=
  .step_room hstep he hrun (R.keeps _ _ (.single hstep.declaring)) hy

theorem orAt {span : Span} (h : Steady p declares R s x) :
    Steady p declares R s (Lower.orAt span x) := by
  unfold Steady
  rw [Lower.orAt, ends_tryCatch]
  refine Ends.mono h (fun _ _ => id) fun f t hf => ⟨hf.1, fun hR he => hf.2 hR ?_⟩
  unfold Fault.orAt at he
  split at he
  · cases he
  · exact he

theorem keepingCursor (h : Steady p declares R s x) :
    Steady p declares R s (Lower.keepingCursor x) := by
  unfold Steady
  rw [ends_keepingCursor]
  exact Ends.mono h (fun _ _ hg => ⟨hg.tables, hg.env⟩) fun _ _ hf =>
    ⟨⟨hf.1.tables, hf.1.env⟩, hf.2⟩

theorem withInner {inner : List ScopeId} (h : ∀ t, Steady p declares R t x) :
    Steady p declares R s (Action.withInner inner x) := by
  unfold Steady
  rw [ends_withInner]
  exact Ends.mono (h { s with env := { s.env with inner } })
    (fun _ _ hg => ⟨hg.tables, hg.env.withInner⟩)
    fun _ _ hf => ⟨⟨hf.1.tables, hf.1.env.withInner⟩, hf.2⟩

theorem enter {k : ScopeId} (h : ∀ t, Steady p declares R t x) :
    Steady p declares R s (Action.enter k x) :=
  .get_bind (.withInner h)

theorem detached (h : ∀ t, Steady p declares R t x) : Steady p declares R s (Action.detached x) :=
  .withInner h

theorem mapM {l : List β} {f : β → Lower α} (h : ∀ b ∈ l, ∀ t, Steady p declares R t (f b)) :
    Steady p declares R s (l.mapM f) := by
  induction l generalizing s with
  | nil => exact .pure
  | cons b l ih =>
    rw [List.mapM_cons]
    exact .bind (h b List.mem_cons_self s) fun _ _ =>
      .bind (ih fun b hb => h b (List.mem_cons_of_mem _ hb)) fun _ _ => .pure

theorem forM {l : List β} {f : β → Lower PUnit} (h : ∀ b ∈ l, ∀ t, Steady p declares R t (f b)) :
    Steady p declares R s (l.forM f) := by
  induction l generalizing s with
  | nil => exact .pure
  | cons b l ih =>
    rw [List.forM_eq_forM, List.forM_cons]
    exact .bind (h b List.mem_cons_self s) fun _ _ => ih fun b hb => h b (List.mem_cons_of_mem _ hb)

end Steady

/-! ## Actions on the state -/

theorem debug_steady {text : String} : Steady p declares R s (Lower.debug text) := .aside rfl rfl

theorem warn_steady {text : String} : Steady p declares R s (Lower.warn text) := .aside rfl rfl

theorem typeText_steady {t : Ty} : Steady p declares R s (Lower.typeText t) := .get_bind .pure

theorem func_steady {f : FuncId} : Steady p declares R s (Lower.func f) := .get_bind .orCrash

theorem funcValue_steady {f : FuncId} : Steady p declares R s (Lower.funcValue f) :=
  .bind func_steady fun _ _ => .pure

theorem tables_modifyFunc {f : FuncId} {k : Func → Func} (hname : ∀ fn, (k fn).name = fn.name)
    (hsignature : ∀ fn, (k fn).signature = fn.signature) :
    { s with module := s.module.modifyFunc f k }.tables = s.tables := by
  have hheaders : (s.module.modifyFunc f k).funcs.map (fun fn => (fn.name, fn.signature)) =
      s.module.funcs.map fun fn => (fn.name, fn.signature) :=
    Module.map_modifyFunc fun fn _ => by rw [hname, hsignature]
  unfold State.tables
  rw [hheaders]
  rfl

theorem newBlock_steady {f : FuncId} {name : String} :
    Steady p declares R s (Lower.newBlock f name) :=
  .bind func_steady fun _ _ =>
    .bind (.aside (tables_modifyFunc (fun _ => rfl) fun _ => rfl) rfl) fun _ _ => .pure

theorem modifyBlock_steady {c : Cursor} {k : Ir.Block → Ir.Block} :
    Steady p declares R s (Lower.modifyBlock c k) :=
  .aside (tables_modifyFunc (fun _ => rfl) fun _ => rfl) rfl

theorem emit_steady {op : Op} {t : Ty} : Steady p declares R s (Lower.emit op t) :=
  .get_bind (.bind func_steady fun _ _ => .bind modifyBlock_steady fun _ _ => .pure)

theorem terminate_steady {t : Terminator} : Steady p declares R s (Lower.terminate t) :=
  .get_bind modifyBlock_steady

theorem isTerminated_steady : Steady p declares R s Lower.isTerminated :=
  .get_bind (.bind func_steady fun _ _ => .pure)

theorem moveToEntry_steady : Steady p declares R s Lower.moveToEntry :=
  .bind func_steady fun _ _ => .aside rfl rfl

theorem localName_steady {f : FuncId} {name : String} :
    Steady p declares R s (Lower.localName f name) :=
  .get_bind (.bind (.aside rfl rfl) fun _ _ => .pure)

theorem renameInst_steady {f : FuncId} {i : InstId} {name : String} :
    Steady p declares R s (Lower.renameInst f i name) :=
  .aside (tables_modifyFunc (fun _ => rfl) fun _ => rfl) rfl

theorem newSlot_steady {name : String} {t : Ty} : Steady p declares R s (Lower.newSlot name t) :=
  .get_bind (.bind localName_steady fun _ _ => .bind func_steady fun _ _ => .bind modifyBlock_steady
    fun _ _ => .pure)

theorem call_steady {f : FuncId} {args : List Value} : Steady p declares R s (Lower.call f args) :=
  .bind funcValue_steady fun _ _ => .bind func_steady fun _ _ => emit_steady

theorem noteCall_steady {e : Expr} {v : Value} : Steady p declares R s (Lower.noteCall e v) := by
  unfold Lower.noteCall
  split
  · exact .bind (.aside rfl rfl) fun _ _ => .pure
  all_goals exact .pure

theorem noteVariable_steady {name : String} {v : Value} :
    Steady p declares R s (Lower.noteVariable name v) := .aside rfl rfl

theorem store_steady {v a : Value} : Steady p declares R s (Lower.store v a) := by
  unfold Lower.store
  split
  · refine .get_bind ?_
    dsimp only
    split
    · exact .bind .crash fun _ _ => .discard emit_steady
    · exact .discard emit_steady
  · exact .crash

theorem fieldAddress_steady {r : RecordId} {base : Value} {index : Nat} :
    Steady p declares R s (Lower.fieldAddress r base index) :=
  .get_bind (.bind .orCrash fun _ _ => emit_steady)

theorem bindName_steady {k : ScopeId} {name : String} {v : Value} :
    Steady p declares R s (Action.bindName k name (.value v)) := by
  refine .get_bind (.bind_of .ofCause fun e t he _ => ?_)
  obtain ⟨hset, rfl⟩ := he.ofCause
  exact .rebind rfl (.set hset nofun)

theorem createScope_steady {name : String} {o? : Option Origin} :
    Steady p declares R s (Action.createScope name o?) :=
  .get_bind (.bind (.rebind rfl (.create name o?)) fun _ _ => .pure)

theorem withScope_steady {name : String} {body : ScopeId → Lower α}
    (h : ∀ k t, Steady p declares R t (body k)) :
    Steady p declares R s (Action.withScope name body) :=
  .bind createScope_steady fun k _ => .enter (h k)

/-! ## Types -/

theorem registers_string (hnew : s.stringRecord? = none) :
    Registers p declares s.tables { s with
      module := defining s.module ⟨stringRecordName, [.bytes, .i32], false, false⟩
      stringRecord? := some s.module.records.length }.tables := by
  have h : Registers p declares s.tables _ := .string hnew
  simpa [State.tables, defining] using h

theorem registers_record {u : TypeId} {name : String} (isOpaque : Bool)
    (hname : p.mangledType u = some name) (hnew : s.typeDefs.lookup name = none) :
    Registers p declares s.tables { s with
      module := defining s.module ⟨name, [], false, isOpaque⟩
      typeDefs := s.typeDefs ++ [(name, s.module.records.length)]
      objects := s.objects ++ [(s.module.records.length, u)] }.tables := by
  have h : Registers p declares s.tables _ := .record u name hname hnew
  simpa [State.tables, defining] using h

theorem stringRecord_steady : Steady p declares R s Lower.stringRecord := by
  refine .get_bind ?_
  split
  · exact .pure
  · rename_i hnone
    exact .step (registers_string hnone) rfl (y := Pure.pure s.module.records.length) rfl .pure

theorem typeWith_steady {build : TypeId → Lower RecordId}
    (hbuild : ∀ u t, Steady p declares R t (build u)) {u : TypeId} :
    Steady p declares R s (Lower.typeWith p build u) := by
  unfold Lower.typeWith
  dsimp only
  split_ifs
  · exact .pure
  · exact .pure
  · exact .bind stringRecord_steady fun _ _ => .pure
  · exact .bind (hbuild u s) fun _ _ => .pure
  · exact .pure
  · exact .refuse
  · exact .bind (.answered fun h => h.isSome_typeText u) fun _ _ => .refuse

theorem logLayout_steady {r : RecordId} : Steady p declares R s (Lower.logLayout r) := by
  refine .get_bind (.bind (.set rfl rfl) fun _ _ => ?_)
  split <;> exact debug_steady

theorem tables_addField {r : RecordId} {ty : Ty} :
    { s with module := s.module.modifyRecord r fun rec =>
      { rec with fields := rec.fields ++ [ty] } }.tables = s.tables := by
  have hnames :
      (s.module.modifyRecord r fun rec => { rec with fields := rec.fields ++ [ty] }).records.map
      Record.name =
      s.module.records.map Record.name := by
    refine List.ext_getElem? fun q => ?_
    simp only [Module.modifyRecord, List.getElem?_map, List.getElem?_modify]
    cases s.module.records[q]? with
    | none => rfl
    | some rec =>
      simp only [Option.map_eq_map, Option.map_some]
      split <;> rfl
  unfold State.tables
  rw [hnames]
  rfl

theorem addField_steady {r : RecordId} {ty : Ty} : Steady p declares R s
    (Lower.modifyModule (·.modifyRecord r fun rec => { rec with fields := rec.fields ++ [ty] })) :=
  .aside tables_addField rfl

theorem addFields_steady {build : TypeId → Lower RecordId} {r : RecordId} {qs : List SymbolId}
    (hbuild : qs ≠ [] → ∀ u t, Steady p declares R t (build u)) :
    Steady p declares R s (Lower.addFields p build r qs) := by
  induction qs generalizing s with
  | nil => exact .pure
  | cons q qs ih =>
    have hbuild := hbuild (List.cons_ne_nil q qs)
    exact .bind (typeWith_steady hbuild) fun _ _ => .bind addField_steady fun _ _ =>
      ih fun _ => hbuild

/-- Each record that is begun leaves one less to be made. -/
theorem recordTo_steady (depth : Nat) {u : TypeId} {isOpaque : Bool} :
    Steady p declares (Room.records p depth) s (Lower.recordTo p depth u isOpaque) := by
  induction depth generalizing s u isOpaque with
  | zero => exact .throw fun h => absurd h.2 (Nat.not_lt_zero _)
  | succ depth ih =>
    refine .bind_of (.answered fun h => h.isSome_mangledType u) fun name t hname _ => .get_bind ?_
    split
    · exact .pure
    rename_i hnew
    have hmangled := (Gives.answered hname).1
    let new : RecordId := t.module.records.length
    let t1 : State := { t with
      module := defining t.module ⟨name, [], false, isOpaque || p.isAmbient u⟩
      typeDefs := t.typeDefs ++ [(name, new)]
      objects := t.objects ++ [(new, u)] }
    have hstep : Registers p declares t.tables t1.tables := registers_record _ hmangled hnew
    have rest {R : Room p} (hbuild : p.storedProperties u ≠ [] →
        ∀ v s, Steady p declares R s (Lower.recordTo p depth v false)) :
        Steady p declares R t1 (if isOpaque || p.isAmbient u then pure new else do
          Lower.addFields p (fun v => Lower.recordTo p depth v false) new (p.storedProperties u)
          Lower.logLayout new
          return new) := by
      split
      · exact .pure
      · exact .bind (addFields_steady hbuild) fun _ _ => .bind logLayout_steady fun _ _ => .pure
    by_cases hu : u ∈ p.typeIds
    · have hroom (h : (Room.records p (depth + 1)).holds t.tables) :
          (Room.records p depth).holds t1.tables := by
        refine ⟨h.1,
          Nat.lt_of_lt_of_le
          (unused_lt (List.prefix_append _ _) (mem_recordNames hu hmangled) hnew ?_)
          (Nat.le_of_lt_succ h.2)⟩
        simp [t1, State.tables, List.lookup_append]
      exact .step_room hstep rfl rfl hroom (rest fun _ _ _ => ih)
    · -- a type that the table does not have has no properties
      refine .step hstep rfl rfl (rest fun hne => absurd ?_ hne)
      unfold storedProperties
      rw [typeInfo_of_not_mem hu]
      rfl

theorem record_steady {u : TypeId} {isOpaque : Bool} :
    Steady p declares R s (Lower.record p u isOpaque) :=
  (recordTo_steady _).weaken fun h => Room.records_holds (R.acyclic _ h) _

theorem type_steady {u? : Option TypeId} : Steady p declares R s (Lower.type p u?) := by
  cases u? with
  | none => exact .refuse
  | some u => exact typeWith_steady fun _ _ => record_steady

theorem isString_steady {ty : Ty} : Steady p declares R s (Lower.isString ty) := by
  refine .get_bind ?_
  split <;> exact .pure

theorem isValueType_steady {ty : Ty} : Steady p declares R s (Lower.isValueType ty) := by
  unfold Lower.isValueType
  split
  any_goals exact .pure
  exact isString_steady

theorem builtinType_steady {name : String} : Steady p declares R s (Lower.builtinType name) := by
  unfold Lower.builtinType
  split
  any_goals exact .pure
  · exact .bind stringRecord_steady fun _ _ => .pure
  · exact .refuse

theorem registers_func (fn : Func) (r? : Option Request) (hnew : s.funcs.lookup fn.name = none)
    (hrequest : ∀ r, r? = some r → NamedRequest p fn.name r)
    (hbuiltin : r? = none → (Builtin.find? fn.name).isSome) :
    Registers p true s.tables { s with
      module := { s.module with funcs := s.module.funcs ++ [fn] }
      funcs := s.funcs ++ [(fn.name, s.module.funcs.length)]
      origins := s.origins ++ (r?.map fun r => (s.module.funcs.length, r)).toList }.tables := by
  have h : Registers p true s.tables _ := .func fn.name fn.signature r? rfl hnew hrequest hbuiltin
  simpa [State.tables] using h

theorem builtin_steady {name : String} : Steady p true R s (Lower.builtin name) := by
  refine .get_bind ?_
  split
  · exact .pure
  rename_i hnone
  split
  · exact .refuse
  rename_i b hb
  obtain rfl := find?_name hb
  have params_steady {declares : Bool} {t : State} : Steady p declares R t
      (b.params.mapM fun q => do return (q.name, ← Lower.builtinType q.type)) :=
    .mapM fun q _ t => .bind builtinType_steady fun _ _ => .pure
  refine .bind_of builtinType_steady fun returns t ht _ =>
    .bind_of params_steady fun params u hu _ => ?_
  have hreturns :
      t.tables.funcs = s.tables.funcs := (builtinType_steady (R := R).gives ht).tables.funcs_eq
  have hparams : u.tables.funcs = t.tables.funcs := (params_steady.gives hu).tables.funcs_eq
  have hfree : u.funcs.lookup b.name = none := by
    change u.tables.funcs.lookup b.name = none
    rw [hparams, hreturns]
    exact hnone
  refine .step (registers_func (declaredFunc b.name returns params) none hfree
    (fun r hr => by cases hr) fun _ => ?_) rfl (y := Pure.pure u.module.funcs.length) ?_ .pure
  · rw [name_declaredFunc, hb]
    rfl
  · simp only [Option.map_none, Option.toList_none, List.append_nil]
    rfl

theorem byteSize_steady {ty : Ty} : Steady p declares R s (Lower.byteSize ty) := by
  refine .get_bind (.bind (.set rfl rfl) fun _ _ => ?_)
  split
  · exact .pure
  · exact .refuse

theorem allocate_steady {ty : Ty} : Steady p true R s (Lower.allocate ty) := by
  refine .bind isValueType_steady fun isValue _ => ?_
  have rest {t : State} : Steady p true R t (do
      let size ← Lower.byteSize ty
      let f ← Lower.builtin Builtin.gcAllocate.name
      let raw ← Lower.call f [.const (.int 32 size.toInt)]
      Lower.emit (.bitcast raw (.pointer ty)) (.pointer ty)) :=
    .bind byteSize_steady fun _ _ => .bind builtin_steady fun _ _ => .bind call_steady fun _ _ =>
      emit_steady
  split
  · exact .bind typeText_steady fun _ _ => .bind .refuse fun _ _ => rest
  · exact rest

/-! ## Values and scopes -/

def State.withStringRecord (s : State) : State :=
  { s with
    module := defining s.module ⟨stringRecordName, [.bytes, .i32], false, false⟩
    stringRecord? := some s.module.records.length }

def State.withGlobal (s : State) (text : String) : State :=
  { s with
    module := { s.module with
      globals := s.module.globals ++ [⟨".str." ++ toString s.strings.length, text⟩] }
    strings := s.strings ++ [(text, s.module.globals.length)] }

def State.noting (s : State) (text : String) (c : Const) : State :=
  { s with literals := s.literals ++ [(text, c)] }

theorem run_stringRecord_known {r : RecordId} (hr : s.stringRecord? = some r) :
    Lower.stringRecord.run s = (.ok r, s) := by
  rw [Lower.stringRecord, run_get_bind, hr]
  rfl

theorem run_stringRecord_new (hnew : s.stringRecord? = none) :
    Lower.stringRecord.run s = (.ok s.module.records.length, s.withStringRecord) := by
  rw [Lower.stringRecord, run_get_bind, hnew]
  rfl

theorem run_stringGlobal_known {text : String} {g : GlobalId}
    (hg : s.strings.lookup text = some g) : (Lower.stringGlobal text).run s = (.ok g, s) := by
  rw [Lower.stringGlobal, run_get_bind]
  dsimp only
  rw [hg]
  rfl

theorem run_stringGlobal_new {text : String} (hnew : s.strings.lookup text = none) :
    (Lower.stringGlobal text).run s = (.ok s.module.globals.length, s.withGlobal text) := by
  rw [Lower.stringGlobal, run_get_bind]
  dsimp only
  rw [hnew]
  rfl

theorem run_stringConstant {text : String} {g : GlobalId} {r : RecordId} {t u : State}
    (hg : (Lower.stringGlobal text).run s = (.ok g, t))
    (hr : Lower.stringRecord.run t = (.ok r, u)) : (Lower.stringConstant text).run s =
      (.ok (.text r g text.utf8ByteSize), u.noting text (.text r g text.utf8ByteSize)) := by
  rw [Lower.stringConstant, run_bind, hg]
  dsimp only
  rw [run_bind, hr]
  rfl

/-- The record is made after the global; for the tables it comes first, so that they can note the
literal at once. -/
theorem stringConstant_steady {text : String} :
    Steady p declares R s (Lower.stringConstant text) := by
  have withRecord {s : State} {r : RecordId} (hr : s.stringRecord? = some r) :
      Steady p declares R s (Lower.stringConstant text) := by
    cases hknown : s.strings.lookup text with
    | some g =>
      have hrun := run_stringConstant (run_stringGlobal_known hknown) (run_stringRecord_known hr)
      have hstep :
          Registers p declares s.tables (s.noting text (.text r g text.utf8ByteSize)).tables :=
        .furtherLiteral text r g hr hknown
      exact .step hstep rfl (y := Pure.pure _) hrun .pure
    | none =>
      have hrun := run_stringConstant (run_stringGlobal_new hknown)
        (run_stringRecord_known (s := s.withGlobal text) hr)
      have hstep : Registers p declares s.tables
          ((s.withGlobal text).noting text
            (.text r s.module.globals.length text.utf8ByteSize)).tables :=
        .firstLiteral text r hr hknown
      exact .step hstep rfl (y := Pure.pure _) hrun .pure
  cases hstring : s.stringRecord? with
  | some r => exact withRecord hstring
  | none =>
    refine .step (t := s.withStringRecord) (registers_string hstring) rfl ?_ (withRecord rfl)
    cases hknown : s.strings.lookup text with
    | some g =>
      rw [run_stringConstant (run_stringGlobal_known hknown) (run_stringRecord_new hstring),
        run_stringConstant (run_stringGlobal_known (s := s.withStringRecord) hknown)
        (run_stringRecord_known rfl)]
    | none =>
      rw [run_stringConstant (run_stringGlobal_new hknown)
        (run_stringRecord_new (s := s.withGlobal text) hstring),
        run_stringConstant (run_stringGlobal_new (s := s.withStringRecord) hknown)
          (run_stringRecord_known rfl)]
      rfl

theorem localValue_steady {name : String} {v : Value} :
    Steady p declares R s (Lower.localValue name v) := by
  refine .get_bind ?_
  split
  · exact .pure
  · exact .refuse

theorem lookupValue_steady {name : String} {span : Span} :
    Steady p declares R s (Lower.lookupValue name span) :=
  .orAt (.get_bind (.bind .ofCause fun _ _ => .bind .orCrash fun _ _ => localValue_steady))

theorem loaded_steady {v : Value} : Steady p declares R s (Lower.loaded v) := by
  unfold Lower.loaded
  split
  · refine .bind isValueType_steady fun isValue _ => ?_
    split
    · exact emit_steady
    · exact .pure
  · exact .pure

theorem nameResult_steady {v : Value} {name : String} :
    Steady p declares R s (Lower.nameResult v name) := by
  unfold Lower.nameResult
  split
  · refine .get_bind ?_
    split
    · exact .pure
    · exact .bind (.aside rfl rfl) fun _ _ =>
        .get_bind (.bind localName_steady fun _ _ => renameInst_steady)
  all_goals exact .pure

theorem scopeOf?_steady (e : Expr) : Steady p declares R s (Lower.scopeOf? e) := by
  induction e using Lower.scopeOf?.induct generalizing s with
  | case1 i name =>
    refine .get_bind ?_
    split <;> exact .pure
  | case2 i object name ih =>
    refine .bind ih fun k? _ => ?_
    split
    · exact .pure
    · exact .get_bind .pure
  | case3 e hident hmember =>
    unfold Lower.scopeOf?
    split
    · exact (hident _ _ rfl).elim
    · exact (hmember _ _ _ rfl).elim
    · exact .pure

theorem lookupIn_steady {k : ScopeId} {name : String} :
    Steady p declares R s (Lower.lookupIn k name) := .get_bind .pure

theorem bindNewScope_steady {container : ScopeId} {name : String} {o : Origin} :
    Steady p declares R s (Lower.bindNewScope container name o) := by
  refine .bind_of createScope_steady fun k t hk _ => ?_
  obtain ⟨rfl, rfl⟩ := hk.createScope
  refine .bind (.get_bind (.bind_of .ofCause fun e t he _ => ?_)) fun _ _ => .pure
  obtain ⟨hset, rfl⟩ := he.ofCause
  refine .rebind rfl (.set hset fun j hj => ?_)
  obtain rfl := Binding.scope.inj hj
  simp

theorem classScope_steady {decl : Node} {isAmbient : Bool} {owner : TypeId} {container : ScopeId} :
    Steady p declares R s (Lower.classScope p decl isAmbient owner container) := by
  refine .bind (.answered fun h => h.isSome_mangledType owner) fun _ _ =>
    .bind lookupIn_steady fun b? _ => ?_
  split
  · exact .pure
  · exact .bind record_steady fun _ _ => .bind (.discard bindNewScope_steady) fun _ _ => .pure

theorem interfaceScope_steady {decl : Node} {name : String} {container : ScopeId} :
    Steady p declares R s (Lower.interfaceScope decl name container) := by
  refine .bind lookupIn_steady fun b? _ => ?_
  split
  · exact .pure
  · refine .bind (.discard bindNewScope_steady) fun _ _ => .bind lookupIn_steady fun _ _ => ?_
    split
    · exact .bind stringRecord_steady fun _ _ => .discard bindNewScope_steady
    · exact .pure

theorem namespaceScope_steady {path : List String} :
    Steady p declares R s (Lower.namespaceScope path) := by
  unfold Lower.namespaceScope
  split
  · exact .pure
  · exact .get_bind .ofCause

theorem ownerScope_steady {decl : Place} {owner : TypeId} :
    Steady p declares R s (Lower.ownerScope p decl owner) := by
  refine .bind namespaceScope_steady fun container _ =>
    .bind (.answered fun h => h.isSome_mangledType owner) fun name _ =>
      .bind lookupIn_steady fun b? _ => ?_
  split
  · exact .pure
  · exact .refuseAt
  · dsimp only
    split
    · refine .bind (.discard classScope_steady) fun _ _ => .bind lookupIn_steady fun b? _ => ?_
      split
      · exact .pure
      · exact .refuseAt
    · refine .bind interfaceScope_steady fun _ _ => .bind lookupIn_steady fun b? _ => ?_
      split
      · exact .pure
      · exact .refuseAt
    · refine .bind lookupIn_steady fun b? _ => ?_
      split
      · exact .pure
      · exact .refuseAt

theorem declaringScope_steady {decl : Place} {owner? : Option TypeId} :
    Steady p declares R s (Lower.declaringScope p decl owner?) := by
  unfold Lower.declaringScope
  dsimp only
  split
  · exact .refuseAt
  · split
    · exact .pure
    · exact namespaceScope_steady
    · cases owner? with
      | none => exact .bind .orCrash fun _ _ => .refuseAt
      | some owner => exact ownerScope_steady
    · cases owner? with
      | none => exact .bind .orCrash fun _ _ => .refuseAt
      | some owner => exact ownerScope_steady
    · exact .refuseAt

theorem receiverRecord_steady {k : ScopeId} {owner : TypeId} :
    Steady p declares R s (Lower.receiverRecord p k owner) := by
  refine .get_bind ?_
  split
  · exact .pure
  · split
    · exact .bind stringRecord_steady fun _ _ => .pure
    · exact .bind record_steady fun _ _ => .pure

theorem insideFrom_steady {body : Lower α} (hbody : ∀ t, Steady p declares R t body)
    (path : List String) :
    ∀ {s : State} {k : ScopeId}, Steady p declares R s (Lower.insideFrom k body path) := by
  induction path with
  | nil => exact .enter hbody
  | cons name path ih =>
    refine .enter fun t => .get_bind (.bind .ofCause fun b _ => ?_)
    split
    · exact ih
    · exact .refuse

theorem insideNamespaces_steady {body : Lower α} (hbody : ∀ t, Steady p declares R t body)
    {path : List String} : Steady p declares R s (Lower.insideNamespaces path body) := by
  unfold Lower.insideNamespaces
  split
  · exact hbody s
  · exact .bind namespaceScope_steady fun _ _ => insideFrom_steady hbody _

end

end CheckedIR.Lowering

import CheckedIR.Proofs.Lowering.SteadyEmission

/-!
# One load away

A value is loaded when it is no address of something that is passed as it is. Whatever names stand
for, functions take and return, and fields hold is loaded, or is the address of something that is,
so that a single load gets there. Such states are level, and lowering keeps them level, however it
ends.
-/

namespace CheckedIR.Lowering

open CheckedIR.Ir CheckedIR.Program CheckedIR.Scope CheckedIR.Scope.Action

/-! ## Types -/

namespace Tables

def IsObject (T : Tables) (r : RecordId) : Prop := r ∈ T.typeDefs.map Prod.snd

def Has (T : Tables) (r : RecordId) : Prop := T.IsObject r ∨ T.stringRecord? = some r

def passes (T : Tables) : Ty → Bool
  | .int bits => bits == 1
  | .float kind => kind == .double
  | .pointer _ => true
  | .record r => T.stringRecord?.any (r == ·)
  | _ => false

def IsLoaded (T : Tables) : Ty → Prop
  | .pointer (.int bits) => bits ≠ 1
  | .pointer (.float kind) => kind ≠ .double
  | .pointer (.pointer _) => False
  | .pointer (.record r) => T.IsObject r
  | .record r => T.stringRecord? = some r
  | _ => True

/-- The types of loaded values and of their addresses. -/
def IsNear (T : Tables) (t : Ty) : Prop := T.IsLoaded t ∨ ∃ elem, t = .pointer elem ∧
    T.IsLoaded elem

def IsCallable (T : Tables) : Ty → Prop
  | .func returns params _ => T.IsNear returns ∧ ∀ t ∈ params, T.IsNear t
  | _ => False

/-- Objects and strings have different records, which the module has, and all functions can be
called. -/
structure IsLevel (T : Tables) : Prop where
  objects : ∀ r, T.IsObject r → r < T.records.length
  strings : ∀ r, T.stringRecord? = some r → r < T.records.length ∧ ¬ T.IsObject r
  headers : ∀ name t, (name, t) ∈ T.headers → T.IsCallable t

variable {T U : Tables} {t elem : Ty} {r : RecordId}

theorem IsObject.mono (hTU : T.Extends U) (h : T.IsObject r) : U.IsObject r :=
  (hTU.typeDefs.map Prod.snd).subset h

theorem Has.mono (hTU : T.Extends U) (h : T.Has r) : U.Has r :=
  h.imp (IsObject.mono hTU) (hTU.stringRecord r)

theorem IsLoaded.mono (hTU : T.Extends U) (h : T.IsLoaded t) : U.IsLoaded t := by
  unfold IsLoaded at *
  split at h
  case h_4 => exact h.mono hTU
  case h_5 => exact hTU.stringRecord _ h
  all_goals exact h

theorem IsNear.mono (hTU : T.Extends U) (h : T.IsNear t) : U.IsNear t :=
  h.imp (IsLoaded.mono hTU) fun ⟨elem, he, hl⟩ => ⟨elem, he, hl.mono hTU⟩

theorem IsCallable.mono (hTU : T.Extends U) (h : T.IsCallable t) : U.IsCallable t := by
  unfold IsCallable at *
  split at h
  · exact ⟨h.1.mono hTU, fun t ht => (h.2 t ht).mono hTU⟩
  · exact h

theorem IsLoaded.near (h : T.IsLoaded t) : T.IsNear t := .inl h

theorem IsLoaded.pointer (h : T.IsLoaded t) : T.IsNear (.pointer t) := .inr ⟨t, rfl, h⟩

theorem Has.near (h : T.Has r) : T.IsNear (.pointer (.record r)) := h.imp id fun hr => ⟨_, rfl, hr⟩

theorem passes_record : T.passes (.record r) = true ↔ T.stringRecord? = some r := by
  change T.stringRecord?.any (r == ·) = true ↔ _
  cases T.stringRecord? with
  | none => simp
  | some q => rw [Option.any_some, beq_iff_eq, Option.some_inj, eq_comm]

/-- A loaded value is no address of what is passed as it is. -/
theorem IsLoaded.passes (hT : T.IsLevel) (h : T.IsLoaded (.pointer elem)) :
    T.passes elem = false := by
  cases elem with
  | int bits => exact beq_eq_false_iff_ne.2 h
  | float kind => exact beq_eq_false_iff_ne.2 h
  | pointer t => exact h.elim
  | record r => exact Bool.eq_false_iff.2 fun hr => (hT.strings r (passes_record.1 hr)).2 h
  | _ => rfl

theorem IsNear.behind (hT : T.IsLevel) (h : T.IsNear (.pointer elem)) (hp : T.passes elem = true) :
    T.IsLoaded elem := by
  rcases h with h | ⟨t, he, h⟩
  · rw [h.passes hT] at hp
    cases hp
  · exact Ty.pointer.inj he ▸ h

theorem IsNear.loaded (h : T.IsNear (.pointer elem)) (hp : T.passes elem = false) :
    T.IsLoaded (.pointer elem) := by
  rcases h with h | ⟨t, he, h⟩
  · exact h
  obtain rfl := Ty.pointer.inj he
  cases elem with
  | int bits => exact beq_eq_false_iff_ne.1 hp
  | float kind => exact beq_eq_false_iff_ne.1 hp
  | pointer t => cases hp
  | record r =>
    rw [passes_record.2 h] at hp
    cases hp
  | _ => trivial

theorem IsNear.of_ne_pointer (h : T.IsNear t) (hne : ∀ elem, t ≠ .pointer elem) : T.IsLoaded t :=
  h.elim id fun ⟨elem, he, _⟩ => absurd he (hne elem)

theorem IsCallable.func {fn : Func} (h : T.IsCallable fn.signature) :
    T.IsNear fn.returns ∧ ∀ q ∈ fn.params, T.IsNear q.type :=
  ⟨h.1, fun _ hq => h.2 _ (List.mem_map_of_mem hq)⟩

/-! ### Entries -/

theorem IsLevel.grow (h : T.IsLevel) (hTU : T.Extends U) (htypeDefs : U.typeDefs = T.typeDefs)
    (hstring : U.stringRecord? = T.stringRecord?)
    (hheaders : ∀ name t, (name, t) ∈ U.headers → (name, t) ∈ T.headers ∨ U.IsCallable t) :
    U.IsLevel where
  objects r hr := by
    unfold IsObject at hr
    rw [htypeDefs] at hr
    exact Nat.lt_of_lt_of_le (h.objects r hr) hTU.records.length_le
  strings r hr := by
    rw [hstring] at hr
    unfold IsObject
    rw [htypeDefs]
    exact ⟨Nat.lt_of_lt_of_le (h.strings r hr).1 hTU.records.length_le, (h.strings r hr).2⟩
  headers name t ht := (hheaders name t ht).elim (fun ht => (h.headers name t ht).mono hTU) id

structure IsFree (T : Tables) (r : RecordId) : Prop where
  lt : r < T.records.length
  object : ¬ T.IsObject r
  string : T.stringRecord? ≠ some r

theorem IsLevel.object {name : String} {objects : List (RecordId × TypeId)} (h : T.IsLevel)
    (hr : T.IsFree r) (hTU : T.Extends { T with typeDefs := T.typeDefs ++ [(name, r)], objects }) :
    { T with typeDefs := T.typeDefs ++ [(name, r)], objects }.IsLevel where
  objects q hq := by
    simp only [IsObject, List.map_append, List.map_singleton, List.mem_append,
      List.mem_singleton] at hq
    exact hq.elim (h.objects q) fun hq => hq ▸ hr.lt
  strings q hq := by
    refine ⟨(h.strings q hq).1, fun hobject => ?_⟩
    simp only [IsObject, List.map_append, List.map_singleton, List.mem_append,
      List.mem_singleton] at hobject
    exact hobject.elim (h.strings q hq).2 fun he => hr.string (he ▸ hq)
  headers name t ht := (h.headers name t ht).mono hTU

theorem IsLevel.string (h : T.IsLevel) (hr : T.IsFree r)
    (hTU : T.Extends { T with stringRecord? := some r }) :
    { T with stringRecord? := some r }.IsLevel where
  objects := h.objects
  strings _ hq := Option.some.inj hq ▸ ⟨hr.lt, hr.object⟩
  headers name t ht := (h.headers name t ht).mono hTU

end Tables

/-! ## Level states -/

structure State.IsLevel (s : State) : Prop where
  tables : s.tables.IsLevel
  fields : ∀ rec ∈ s.module.records, ∀ t ∈ rec.fields, s.tables.IsLoaded t
  names : ∀ k name v, s.env.lookupIn k name = some (.value v) → s.tables.IsNear v.type
  scopes : ∀ k o t, (s.env.scope k).data? = some o → o.type? = some t → ∃ r, t = .record r ∧
    s.tables.Has r

structure State.KeepsLevel (s t : State) : Prop where
  level : t.IsLevel
  tables : s.tables.Extends t.tables

/-- Run from `s`, which is level, action `x` ends in a level state, and its answer satisfies `Q`. -/
def StaysLevel {α : Type} (s : State) (x : Lower α) (Q : α → State → Prop) : Prop :=
  s.IsLevel → Ends x s (fun a t => s.KeepsLevel t ∧ Q a t) fun _ t => s.KeepsLevel t

section
variable {α β : Type} {s t u : State} {x : Lower α} {Q : α → State → Prop} {R : β → State → Prop}

theorem State.KeepsLevel.refl (h : s.IsLevel) : s.KeepsLevel s := ⟨h, .refl _⟩

theorem State.KeepsLevel.trans (h : s.KeepsLevel t) (h' : t.KeepsLevel u) : s.KeepsLevel u :=
  ⟨h'.level, h.tables.trans h'.tables⟩

theorem State.IsLevel.of_extends (h : s.IsLevel) (ht : t.tables.IsLevel)
    (hst : s.tables.Extends t.tables)
    (hrecords : t.module.records = s.module.records) (henv : t.env = s.env) : t.IsLevel where
  tables := ht
  fields rec hrec t ht := (h.fields rec (hrecords ▸ hrec) t ht).mono hst
  names k name v hv := (h.names k name v (henv ▸ hv)).mono hst
  scopes k o t ho ht := by
    obtain ⟨r, hr, hhas⟩ := h.scopes k o t (henv ▸ ho) ht
    exact ⟨r, hr, hhas.mono hst⟩

namespace StaysLevel

theorem gives {a : α} (h : StaysLevel s x Q) (hs : s.IsLevel) (hx : Gives x s a t) :
    s.KeepsLevel t ∧ Q a t :=
  (h hs).of_run_ok hx

theorem keeps (h : StaysLevel s x Q) (hs : s.IsLevel) : s.KeepsLevel (x.run s).2 := by
  have hend := h hs
  unfold Ends at hend
  revert hend
  rcases x.run s with ⟨f | a, t⟩
  · exact id
  · exact And.left

theorem pure {a : α} (h : s.IsLevel → Q a s) : StaysLevel s (pure a) Q := fun hs => ⟨.refl hs, h hs⟩

theorem throw {f : Fault} : StaysLevel s (throw f) Q := fun hs => .refl hs

theorem refuse {c : Cause} : StaysLevel s (Lower.refuse c) Q := .throw

theorem refuseAt {c : Cause} {span : Span} : StaysLevel s (Lower.refuseAt c span) Q := .throw

theorem crash : StaysLevel s Lower.crash Q := .throw

theorem orCrash {a? : Option α} (h : s.IsLevel → ∀ a, a? = some a → Q a s) :
    StaysLevel s (Lower.orCrash a?) Q := by
  cases a? with
  | none => exact .crash
  | some a => exact .pure fun hs => h hs a rfl

theorem answered {a? : Option α} : StaysLevel s (Lower.answered a?) fun _ _ => True := by
  cases a? with
  | none => exact .throw
  | some a => exact .pure fun _ => trivial

theorem ofCause {r : Except Cause α} (h : s.IsLevel → ∀ a, r = .ok a → Q a s) :
    StaysLevel s (Action.ofCause r) Q := by
  cases r with
  | error c => exact .throw
  | ok a => exact .pure fun hs => h hs a rfl

theorem ofExcept {r : Except Fault α} : StaysLevel s (Lower.ofExcept r) fun _ _ => True := by
  cases r with
  | error f => exact .throw
  | ok a => exact .pure fun _ => trivial

theorem mono {Q' : α → State → Prop} (h : StaysLevel s x Q)
    (hQ : ∀ a t, s.tables.Extends t.tables → Q a t → Q' a t) : StaysLevel s x Q' :=
  fun hs => Ends.mono (h hs) (fun a t ⟨ht, hq⟩ => ⟨ht, hQ a t ht.tables hq⟩) fun _ _ => id

theorem any (h : StaysLevel s x Q) : StaysLevel s x fun _ _ => True := h.mono fun _ _ _ _ => trivial

theorem level (h : s.IsLevel → StaysLevel s x Q) : StaysLevel s x Q := fun hs => h hs hs

theorem bind_gives {k : α → Lower β} (h : StaysLevel s x Q)
    (hk : ∀ a t, Gives x s a t → s.tables.Extends t.tables → Q a t → StaysLevel t (k a) R) :
    StaysLevel s (x >>= k) R := by
  intro hs
  rw [ends_bind]
  refine (Ends.and (h hs) (ends_gives (h hs))).mono (fun a t ⟨⟨ht, hq⟩, hgives⟩ => ?_) fun _ _ =>
    And.left
  exact Ends.mono (hk a t hgives ht.tables hq ht.level) (fun _ _ hu => ⟨ht.trans hu.1, hu.2⟩)
    fun _ _ => ht.trans

theorem bind {k : α → Lower β} (h : StaysLevel s x Q)
    (hk : ∀ a t, s.tables.Extends t.tables → Q a t → StaysLevel t (k a) R) :
    StaysLevel s (x >>= k) R :=
  h.bind_gives fun a t _ => hk a t

theorem get_bind {k : State → Lower β} (h : StaysLevel s (k s) R) : StaysLevel s (get >>= k) R := by
  intro hs
  rw [ends_get_bind]
  exact h hs

theorem orCrash_bind {a? : Option α} {k : α → Lower β} (h : ∀ a, StaysLevel s (k a) R) :
    StaysLevel s (Lower.orCrash a? >>= k) R := by
  cases a? with
  | none => exact .bind (Q := fun _ _ => False) .crash fun _ _ _ => False.elim
  | some a => exact h a

theorem refuse_bind {c : Cause} {k : α → Lower β} : StaysLevel s (Lower.refuse c >>= k) R :=
  .bind (Q := fun _ _ => False) .refuse fun _ _ _ => False.elim

theorem refuseAt_bind {c : Cause} {span : Span} {k : α → Lower β} :
    StaysLevel s (Lower.refuseAt c span >>= k) R :=
  .bind (Q := fun _ _ => False) .refuseAt fun _ _ _ => False.elim

theorem map {k : α → β} (h : StaysLevel s x fun a t => R (k a) t) : StaysLevel s (k <$> x) R := by
  rw [map_eq_pure_bind]
  exact h.bind fun _ _ _ hq => .pure fun _ => hq

theorem discard (h : StaysLevel s x Q) : StaysLevel s (discard x) fun _ _ => True := .map h.any

theorem keep {g : State → State} {Q : PUnit → State → Prop} (hg : s.tables.Extends (g s).tables)
    (h : s.IsLevel → (g s).IsLevel) (hQ : Q .unit (g s)) :
    StaysLevel s (modify g) Q := fun hs => ⟨⟨h hs, hg⟩, hQ⟩

theorem aside {g : State → State} (htables : (g s).tables = s.tables)
    (hrecords : (g s).module.records = s.module.records)
    (henv : (g s).env = s.env) : StaysLevel s (modify g) fun _ _ => True :=
  have hextends : s.tables.Extends (g s).tables := htables ▸ .refl _
  .keep hextends (fun hs => hs.of_extends (htables ▸ hs.tables) hextends hrecords henv) trivial

theorem set (htables : u.tables = s.tables) (hrecords : u.module.records = s.module.records)
    (henv : u.env = s.env) : StaysLevel s (set u) fun _ _ => True :=
  .aside (g := fun _ => u) htables hrecords henv

theorem orAt {span : Span} (h : StaysLevel s x Q) : StaysLevel s (Lower.orAt span x) Q := by
  intro hs
  rw [Lower.orAt, ends_tryCatch]
  exact h hs

theorem mapM {P : β → State → Prop} {f : α → Lower β} {l : List α}
    (hP : ∀ b t u, t.tables.Extends u.tables → P b t → P b u)
    (h : ∀ a ∈ l, ∀ t, StaysLevel t (f a) P) :
    StaysLevel s (l.mapM f) fun bs t => ∀ b ∈ bs, P b t := by
  induction l generalizing s with
  | nil => exact .pure fun _ => nofun
  | cons a l ih =>
    rw [List.mapM_cons]
    refine .bind (h a List.mem_cons_self s) fun b t _ hb => ?_
    refine .bind (ih fun a ha => h a (List.mem_cons_of_mem _ ha)) fun bs u hext hbs =>
      .pure fun _ => ?_
    exact List.forall_mem_cons.2 ⟨hP b t u hext hb, hbs⟩

theorem forM {l : List β} {f : β → Lower PUnit}
    (h : ∀ b ∈ l, ∀ t, StaysLevel t (f b) fun _ _ => True) :
    StaysLevel s (l.forM f) fun _ _ => True := by
  induction l generalizing s with
  | nil => exact .pure fun _ => trivial
  | cons b l ih =>
    rw [List.forM_eq_forM, List.forM_cons]
    exact .bind (h b List.mem_cons_self s) fun _ _ _ _ => ih fun b hb =>
      h b (List.mem_cons_of_mem _ hb)

theorem keepingCursor (h : StaysLevel s x fun _ _ => True) :
    StaysLevel s (Lower.keepingCursor x) fun _ _ => True := by
  intro hs
  rw [ends_keepingCursor]
  exact Ends.mono (h hs)
    (fun _ _ ⟨ht, _⟩ => ⟨⟨ht.level.of_extends ht.level.tables (.refl _) rfl rfl, ht.tables⟩,
      trivial⟩)
    fun _ _ ht => ⟨ht.level.of_extends ht.level.tables (.refl _) rfl rfl, ht.tables⟩

theorem withInner {inner : List ScopeId} (h : ∀ t, s.tables.Extends t.tables →
    StaysLevel t x fun _ _ => True) : StaysLevel s (Action.withInner inner x) fun _ _ => True := by
  intro hs
  have there {t : State} (inner : List ScopeId) (ht : t.IsLevel) :
      State.IsLevel { t with env := { t.env with inner } } :=
    ⟨ht.tables, ht.fields, ht.names, ht.scopes⟩
  rw [ends_withInner]
  exact Ends.mono (h _ (.refl _) (there inner hs))
    (fun _ _ ⟨ht, _⟩ => ⟨⟨there s.env.inner ht.level, ht.tables⟩, trivial⟩)
    fun _ _ ht => ⟨there s.env.inner ht.level, ht.tables⟩

theorem enter {k : ScopeId} (h : ∀ t, s.tables.Extends t.tables → StaysLevel t x fun _ _ => True) :
    StaysLevel s (Action.enter k x) fun _ _ => True := .get_bind (.withInner h)

theorem detached (h : ∀ t, s.tables.Extends t.tables → StaysLevel t x fun _ _ => True) :
    StaysLevel s (Action.detached x) fun _ _ => True := .withInner h

end StaysLevel

end

section
variable {s t : State}

/-! ## Functions and instructions -/

theorem debug_level {text : String} : StaysLevel s (Lower.debug text) fun _ _ => True :=
  .aside rfl rfl rfl

theorem warn_level {text : String} : StaysLevel s (Lower.warn text) fun _ _ => True :=
  .aside rfl rfl rfl

theorem typeText_level {ty : Ty} : StaysLevel s (Lower.typeText ty) fun _ _ => True :=
  .get_bind (.pure fun _ => trivial)

theorem func_level {f : FuncId} :
    StaysLevel s (Lower.func f) fun fn t => t.tables.IsCallable fn.signature :=
  .get_bind (.orCrash fun hs fn hf => hs.tables.headers fn.name _
    (List.mem_map_of_mem (f := fun fn : Func => (fn.name, fn.signature)) (List.mem_of_getElem? hf)))

theorem funcValue_level {f : FuncId} :
    StaysLevel s (Lower.funcValue f) fun v t => t.tables.IsNear v.type :=
  .bind func_level fun _ _ _ _ => .pure fun _ => .inl trivial

theorem modifyFunc_level {f : FuncId} {k : Func → Func} (hname : ∀ fn, (k fn).name = fn.name)
    (hsignature : ∀ fn, (k fn).signature = fn.signature) :
    StaysLevel s (Lower.modifyModule (·.modifyFunc f k)) fun _ _ => True :=
  .aside (tables_modifyFunc hname hsignature) rfl rfl

theorem newBlock_level {f : FuncId} {name : String} :
    StaysLevel s (Lower.newBlock f name) fun _ _ => True :=
  .bind func_level fun _ _ _ _ =>
    .bind (modifyFunc_level (fun _ => rfl) fun _ => rfl) fun _ _ _ _ => .pure fun _ => trivial

theorem modifyBlock_level {c : Cursor} {k : Ir.Block → Ir.Block} :
    StaysLevel s (Lower.modifyBlock c k) fun _ _ => True :=
  modifyFunc_level (fun _ => rfl) fun _ => rfl

theorem emit_level {op : Op} {ty : Ty} : StaysLevel s (Lower.emit op ty) fun v _ => v.type = ty :=
  .get_bind (.bind func_level fun _ _ _ _ => .bind modifyBlock_level fun _ _ _ _ => .pure
    fun _ => rfl)

theorem emit_near {op : Op} {ty : Ty} (hty : s.tables.IsNear ty) :
    StaysLevel s (Lower.emit op ty) fun v t => t.tables.IsNear v.type :=
  emit_level.mono fun _ _ hst hv => hv ▸ hty.mono hst

theorem terminate_level {e : Terminator} : StaysLevel s (Lower.terminate e) fun _ _ => True :=
  .get_bind modifyBlock_level

theorem isTerminated_level : StaysLevel s Lower.isTerminated fun _ _ => True :=
  .get_bind (.bind func_level fun _ _ _ _ => .pure fun _ => trivial)

theorem moveToEntry_level : StaysLevel s Lower.moveToEntry fun _ _ => True :=
  .bind func_level fun _ _ _ _ => .aside rfl rfl rfl

theorem localName_level {f : FuncId} {name : String} :
    StaysLevel s (Lower.localName f name) fun _ _ => True :=
  .get_bind (.bind (.aside rfl rfl rfl) fun _ _ _ _ => .pure fun _ => trivial)

theorem renameInst_level {f : FuncId} {i : InstId} {name : String} :
    StaysLevel s (Lower.renameInst f i name) fun _ _ => True :=
  modifyFunc_level (fun _ => rfl) fun _ => rfl

theorem newSlot_level {name : String} {ty : Ty} :
    StaysLevel s (Lower.newSlot name ty) fun v _ => v.type = .pointer ty :=
  .get_bind (.bind localName_level fun _ _ _ _ => .bind func_level fun _ _ _ _ => .bind
    modifyBlock_level fun _ _ _ _ =>
    .pure fun _ => rfl)

theorem call_level {f : FuncId} {args : List Value} :
    StaysLevel s (Lower.call f args) fun v t => t.tables.IsNear v.type :=
  .bind funcValue_level fun _ _ _ _ => .bind func_level fun _ _ _ hfn => emit_near hfn.func.1

theorem noteCall_level {e : Expr} {v : Value} (hv : s.tables.IsNear v.type) :
    StaysLevel s (Lower.noteCall e v) fun v t => t.tables.IsNear v.type := by
  unfold Lower.noteCall
  split
  · exact .bind (.aside rfl rfl rfl) fun _ _ hst _ => .pure fun _ => hv.mono hst
  all_goals exact .pure fun _ => hv

theorem noteVariable_level {name : String} {v : Value} :
    StaysLevel s (Lower.noteVariable name v) fun _ _ => True :=
  .aside rfl rfl rfl

theorem store_level {v a : Value} : StaysLevel s (Lower.store v a) fun _ _ => True := by
  unfold Lower.store
  split
  · refine .get_bind ?_
    dsimp only
    split
    · exact .bind (Q := fun _ _ => True) .crash fun _ _ _ _ => .discard emit_level
    · exact .discard emit_level
  · exact .crash

theorem fieldAddress_level {r : RecordId} {base : Value} {index : Nat} :
    StaysLevel s (Lower.fieldAddress r base index) fun v t => t.tables.IsNear v.type := by
  refine .get_bind (.bind (Q := fun t u => u.tables.IsLoaded t) (.orCrash fun hs t ht => ?_)
    fun t u _ ht => emit_near ht.pointer)
  unfold Records.get at ht
  cases hrec : s.module.records[r]? with
  | none =>
    rw [hrec] at ht
    cases ht
  | some rec =>
    rw [hrec] at ht
    exact hs.fields rec (List.mem_of_getElem? hrec) t (List.mem_of_getElem? ht)

theorem newFunc_level {name : String} {returns : Ty} {params : List (String × Ty)}
    (hreturns : s.tables.IsNear returns) (hparams : ∀ q ∈ params, s.tables.IsNear q.2) :
    StaysLevel s (Lower.newFunc name returns params) fun _ _ => True := by
  let fn : Func := declaredFunc name returns params
  have htables : { s with module := { s.module with funcs := s.module.funcs ++ [fn] } }.tables =
      { s.tables with headers := s.tables.headers ++ [(fn.name, fn.signature)] } := by
    simp [State.tables]
  have same := Tables.Extends.refl s.tables
  have hextends :
      s.tables.Extends { s.tables with headers := s.tables.headers ++ [(fn.name, fn.signature)] } :=
    { same with headers := List.prefix_append _ _ }
  have hcallable : s.tables.IsCallable fn.signature := by
    refine ⟨hreturns, fun t ht => ?_⟩
    simp only [fn, declaredFunc, List.map_map, List.mem_map, Function.comp_def] at ht
    obtain ⟨q, hq, rfl⟩ := ht
    exact hparams q hq
  refine .get_bind (.bind (Q := fun _ _ => True) (.keep (htables ▸ hextends) (fun hs => ?_) trivial)
    fun _ _ _ _ =>
    .pure fun _ => trivial)
  refine hs.of_extends (htables ▸ hs.tables.grow hextends rfl rfl fun name t ht => ?_) (htables ▸
    hextends) rfl rfl
  rcases List.mem_append.1 ht with ht | ht
  · exact .inl ht
  · obtain ⟨-, rfl⟩ := Prod.mk.inj (List.mem_singleton.1 ht)
    exact .inr (hcallable.mono hextends)

/-! ## Scopes -/

theorem bindName_level {k : ScopeId} {name : String} {b : Binding Value}
    (hb : ∀ v, b = .value v → s.tables.IsNear v.type) :
    StaysLevel s (Action.bindName k name b) fun _ _ => True := by
  refine .get_bind (.bind_gives (Q := fun _ _ => True) (.ofCause fun _ _ _ => trivial)
    fun e t he _ _ => ?_)
  obtain ⟨hset, rfl⟩ := he.ofCause
  refine .keep (.refl _)
    (fun hs => ⟨hs.tables, hs.fields, fun k' n v hv => ?_, fun k' o t ho => ?_⟩) trivial
  · exact (lookupIn_set hset hv).elim (hs.names k' n v) fun hv => hb v hv.symm
  · exact hs.scopes k' o t (data?_set hset k' ▸ ho)

theorem bindValue_level {k : ScopeId} {name : String} {v : Value} (hv : s.tables.IsNear v.type) :
    StaysLevel s (Action.bindName k name (.value v)) fun _ _ => True :=
  bindName_level fun _ hw => Binding.value.inj hw ▸ hv

theorem createScope_level {name : String} {o? : Option Origin}
    (ho : ∀ o t, o? = some o → o.type? = some t → ∃ r, t = .record r ∧ s.tables.Has r) :
    StaysLevel s (Action.createScope name o?) fun _ _ => True := by
  refine .get_bind
    (.bind (Q := fun _ _ => True)
      (.keep (.refl _) (fun hs => ⟨hs.tables, hs.fields, fun k n v h => ?_,
    fun k o t h => ?_⟩) trivial) fun _ _ _ _ => .pure fun _ => trivial)
  · exact hs.names k n v ((lookupIn_create s.env (.fresh name o?) rfl k n).symm.trans h)
  · rcases data?_create h with hold | hnew
    · exact hs.scopes k o t hold
    · exact ho o t hnew

theorem withScope_level {α : Type} {name : String} {body : ScopeId → Lower α}
    (h : ∀ k t, s.tables.Extends t.tables → StaysLevel t (body k) fun _ _ => True) :
    StaysLevel s (Action.withScope name body) fun _ _ => True :=
  .bind (createScope_level fun _ _ => nofun) fun k _ hst _ => .enter fun u htu =>
    h k u (hst.trans htu)

theorem lookupIn_level {k : ScopeId} {name : String} :
    StaysLevel s (Lower.lookupIn k name) fun _ _ => True :=
  .get_bind (.pure fun _ => trivial)

theorem bindNewScope_level {container : ScopeId} {name : String} {o : Origin}
    (ho : ∀ t, o.type? = some t → ∃ r, t = .record r ∧ s.tables.Has r) :
    StaysLevel s (Lower.bindNewScope container name o) fun _ _ => True :=
  .bind (createScope_level fun _ t h => Option.some.inj h ▸ ho t) fun _ _ _ _ =>
    .bind (bindName_level fun _ => nofun) fun _ _ _ _ => .pure fun _ => trivial

/-! ## Types -/

theorem defineRecord_level {rec : Record} (hrec : ∀ t ∈ rec.fields, s.tables.IsLoaded t) :
    StaysLevel s (Lower.defineRecord rec) fun r t => t.tables.IsFree r := by
  intro hs
  let u : State := { s with module := defining s.module rec }
  have hrun : (Lower.defineRecord rec).run s = (.ok s.module.records.length, u) := rfl
  have htables : u.tables = { s.tables with
      records := s.tables.records ++ [rec.name]
      defined := s.tables.defined ++ [s.module.records.length] } := by
    simp [u, State.tables, defining]
  have same := Tables.Extends.refl s.tables
  have hextends : s.tables.Extends u.tables :=
    htables ▸ { same with records := List.prefix_append _ _, defined := List.prefix_append _ _ }
  have hlength : s.tables.records.length = s.module.records.length := by simp [State.tables]
  have hlevel : u.IsLevel := by
    refine ⟨?_, fun rec' hrec' t ht => ?_, fun k name v hv => (hs.names k name v hv).mono hextends,
      fun k o t ho ht => ?_⟩
    · exact hs.tables.grow hextends rfl rfl fun name t ht => .inl ht
    · rcases List.mem_append.1 hrec' with hold | hnew
      · exact (hs.fields rec' hold t ht).mono hextends
      · exact (hrec t (List.mem_singleton.1 hnew ▸ ht)).mono hextends
    · obtain ⟨r, hr, hhas⟩ := hs.scopes k o t ho ht
      exact ⟨r, hr, hhas.mono hextends⟩
  unfold Ends
  rw [hrun]
  refine ⟨⟨hlevel, hextends⟩, ?_, fun hobject => ?_, fun hstring => ?_⟩
  · rw [htables]
    simp [hlength]
  · exact Nat.lt_irrefl _ (hlength ▸ hs.tables.objects _ hobject)
  · exact Nat.lt_irrefl _ (hlength ▸ (hs.tables.strings _ hstring).1)

theorem stringRecord_level :
    StaysLevel s Lower.stringRecord fun r t => t.tables.stringRecord? = some r := by
  refine .get_bind ?_
  split
  · rename_i r hr
    exact .pure fun _ => hr
  · rename_i hnone
    refine .bind_gives (defineRecord_level (by simp [Tables.IsLoaded, Ty.bytes, Ty.i8, Ty.i32]))
      fun r t ht _ hr => ?_
    obtain ⟨-, rfl⟩ := Prod.mk.inj ht
    let u : State :=
      { s with module := defining s.module ⟨stringRecordName, [.bytes, .i32], false, false⟩ }
    have same := Tables.Extends.refl u.tables
    have hextends : u.tables.Extends { u.tables with stringRecord? := some r } :=
      { same with
        stringRecord := fun q hq => absurd (hnone.symm.trans hq) (Option.some_ne_none q).symm }
    exact .bind (Q := fun _ t => t.tables.stringRecord? = some r)
      (.keep hextends (fun hu => hu.of_extends (hu.tables.string hr hextends) hextends rfl rfl) rfl)
      fun _ _ _ hr =>
      .pure fun _ => hr

variable {p : Program}

theorem typeWith_level {build : TypeId → Lower RecordId}
    (hbuild : ∀ u t, StaysLevel t (build u) fun r t => t.tables.IsObject r) {u : TypeId} :
    StaysLevel s (Lower.typeWith p build u) fun ty t => t.tables.IsLoaded ty := by
  unfold Lower.typeWith
  dsimp only
  split_ifs
  · exact .pure fun _ => trivial
  · exact .pure fun _ => trivial
  · exact .bind stringRecord_level fun _ _ _ hr => .pure fun _ => hr
  · exact .bind (hbuild u s) fun _ _ _ hr => .pure fun _ => hr
  · exact .pure fun _ => trivial
  · exact .refuse
  · exact .bind .answered fun _ _ _ _ => .refuse

theorem logLayout_level {r : RecordId} : StaysLevel s (Lower.logLayout r) fun _ _ => True := by
  refine .get_bind (.bind (.set rfl rfl rfl) fun _ _ _ _ => ?_)
  split <;> exact debug_level

theorem addField_level {r : RecordId} {ty : Ty} (hty : s.tables.IsLoaded ty) : StaysLevel s
    (Lower.modifyModule (·.modifyRecord r fun rec => { rec with fields := rec.fields ++ [ty] }))
    fun _ _ => True := by
  let u : State :=
    { s with module := s.module.modifyRecord r fun rec =>
      { rec with fields := rec.fields ++ [ty] } }
  have htables : u.tables = s.tables := tables_addField
  refine .keep (htables ▸ .refl _)
    (fun hs => ⟨htables ▸ hs.tables, fun rec hrec t ht => ?_, htables ▸ hs.names,
    htables ▸ hs.scopes⟩) trivial
  rw [htables]
  obtain ⟨q, hq⟩ := List.getElem?_of_mem hrec
  simp only [Module.modifyRecord, List.getElem?_modify] at hq
  obtain ⟨old, hold, rfl⟩ := Option.map_eq_some_iff.1 hq
  have hfields := hs.fields old (List.mem_of_getElem? hold)
  split at ht
  · exact (List.mem_append.1 ht).elim (hfields t) fun ht => List.mem_singleton.1 ht ▸ hty
  · exact hfields t ht

theorem addFields_level {build : TypeId → Lower RecordId} {r : RecordId} {qs : List SymbolId}
    (hbuild : ∀ u t, StaysLevel t (build u) fun r t => t.tables.IsObject r) :
    StaysLevel s (Lower.addFields p build r qs) fun _ _ => True := by
  induction qs generalizing s with
  | nil => exact .pure fun _ => trivial
  | cons q qs ih =>
    exact .bind (typeWith_level hbuild) fun _ _ _ hty =>
      .bind (addField_level hty) fun _ _ _ _ => ih

theorem recordTo_level (depth : Nat) {u : TypeId} {isOpaque : Bool} :
    StaysLevel s (Lower.recordTo p depth u isOpaque) fun r t => t.tables.IsObject r := by
  induction depth generalizing s u isOpaque with
  | zero => exact .throw
  | succ depth ih =>
    refine .bind .answered fun name t _ _ => .get_bind ?_
    split
    · rename_i r hr
      exact .pure fun _ => List.mem_map_of_mem (f := Prod.snd) (mem_of_lookup hr)
    refine .bind (defineRecord_level nofun) fun r t _ hr => ?_
    have same := Tables.Extends.refl t.tables
    have hextends : t.tables.Extends { t.tables with
        typeDefs := t.tables.typeDefs ++ [(name, r)], objects := t.tables.objects ++ [(r, u)] } :=
      { same with typeDefs := List.prefix_append _ _, objects := List.prefix_append _ _ }
    refine .bind (Q := fun _ t => t.tables.IsObject r) (.keep hextends
      (fun ht => ht.of_extends (ht.tables.object hr hextends) hextends rfl rfl) ?_)
        fun _ t _ hobject => ?_
    · simp [State.tables, Tables.IsObject]
    split
    · exact .pure fun _ => hobject
    · exact .bind (addFields_level fun _ _ => ih) fun _ _ h _ =>
        .bind logLayout_level fun _ _ h' _ =>
        .pure fun _ => (hobject.mono h).mono h'

theorem record_level {u : TypeId} {isOpaque : Bool} :
    StaysLevel s (Lower.record p u isOpaque) fun r t => t.tables.IsObject r := recordTo_level _

theorem type_level {u? : Option TypeId} :
    StaysLevel s (Lower.type p u?) fun ty t => t.tables.IsLoaded ty := by
  cases u? with
  | none => exact .refuse
  | some u => exact typeWith_level fun _ _ => record_level

theorem run_isValueType {ty : Ty} :
    (Lower.isValueType ty).run s = (.ok (s.tables.passes ty), s) := by
  unfold Lower.isValueType Tables.passes
  cases ty with
  | record r =>
    have hstring : s.tables.stringRecord? = s.stringRecord? := rfl
    rw [Lower.isString, run_get_bind, hstring]
    dsimp only
    cases s.stringRecord? <;> rfl
  | _ => rfl

theorem isString_level {ty : Ty} : StaysLevel s (Lower.isString ty) fun _ _ => True := by
  refine .get_bind ?_
  split <;> exact .pure fun _ => trivial

theorem isValueType_level {ty : Ty} :
    StaysLevel s (Lower.isValueType ty) fun b t => b = t.tables.passes ty := by
  intro hs
  unfold Ends
  rw [run_isValueType]
  exact ⟨.refl hs, rfl⟩

/-! ## Runtime functions -/

theorem builtinType_level {name : String} :
    StaysLevel s (Lower.builtinType name) fun ty t => t.tables.IsLoaded ty := by
  unfold Lower.builtinType
  split
  · exact .pure fun _ => trivial
  · exact .pure fun _ => trivial
  · exact .pure fun _ => by simp [Tables.IsLoaded, Ty.bytes, Ty.i8]
  · exact .bind stringRecord_level fun _ _ _ hr => .pure fun _ => hr
  · exact .refuse

theorem builtin_level {name : String} : StaysLevel s (Lower.builtin name) fun _ _ => True := by
  refine .get_bind ?_
  split
  · exact .pure fun _ => trivial
  split
  · exact .refuse
  · refine .bind builtinType_level fun returns _ _ hreturns =>
      .bind (.mapM (P := fun q t => t.tables.IsLoaded q.2)
      (fun q t u h (hq : t.tables.IsLoaded q.2) => hq.mono h) fun q _ _ =>
        .bind builtinType_level fun _ _ _ hq => .pure fun _ => hq)
      fun params _ h hparams => ?_
    exact .bind (newFunc_level (hreturns.mono h).near fun q hq => (hparams q hq).near)
      fun f t _ _ => by
      have same := Tables.Extends.refl t.tables
      have hextends : t.tables.Extends { t.tables with funcs := t.tables.funcs ++ [(name, f)] } :=
        { same with funcs := List.prefix_append _ _ }
      exact .bind (Q := fun _ _ => True) (.keep hextends (fun ht => ht.of_extends
        (ht.tables.grow hextends rfl rfl fun _ _ => .inl) hextends rfl rfl) trivial) fun _ _ _ _ =>
          .pure fun _ => trivial

theorem byteSize_level {ty : Ty} : StaysLevel s (Lower.byteSize ty) fun _ _ => True := by
  refine .get_bind (.bind (.set rfl rfl rfl) fun _ _ _ _ => ?_)
  split
  · exact .pure fun _ => trivial
  · exact .refuse

theorem allocate_level {ty : Ty} :
    StaysLevel s (Lower.allocate ty) fun v _ => v.type = .pointer ty := by
  refine .bind isValueType_level fun isValue _ _ _ => ?_
  split
  · exact .bind typeText_level fun _ _ _ _ => .refuse_bind
  · exact .bind byteSize_level fun _ _ _ _ => .bind builtin_level fun _ _ _ _ =>
      .bind call_level fun _ _ _ _ => emit_level

/-! ## Values -/

theorem beside_level {g : State → State} (hextends : s.tables.Extends (g s).tables)
    (hlevel : s.tables.IsLevel → (g s).tables.IsLevel)
    (hrecords : (g s).module.records = s.module.records)
    (henv : (g s).env = s.env) : StaysLevel s (modify g) fun _ _ => True :=
  .keep hextends (fun hs => hs.of_extends (hlevel hs.tables) hextends hrecords henv) trivial

theorem stringGlobal_level {text : String} :
    StaysLevel s (Lower.stringGlobal text) fun _ _ => True := by
  refine .get_bind ?_
  dsimp only
  split
  · exact .pure fun _ => trivial
  · exact .get_bind
      (.bind (beside_level { Tables.Extends.refl s.tables with } (fun h => { h with }) rfl rfl)
        fun _ _ _ _ =>
      .pure fun _ => trivial)

theorem stringConstant_level {text : String} :
    StaysLevel s (Lower.stringConstant text) fun c t => t.tables.IsLoaded c.type :=
  .bind stringGlobal_level fun _ _ _ _ => .bind stringRecord_level fun _ t _ hr =>
    .bind (beside_level { Tables.Extends.refl t.tables with } (fun h => { h with }) rfl rfl)
      fun _ _ hextends _ =>
      .pure fun _ => hextends.stringRecord _ hr

theorem localValue_level {name : String} {v : Value} (hv : s.tables.IsNear v.type) :
    StaysLevel s (Lower.localValue name v) fun v t => t.tables.IsNear v.type := by
  refine .get_bind ?_
  split
  · exact .pure fun _ => hv
  · exact .refuse

theorem lookupValue_level {name : String} {span : Span} :
    StaysLevel s (Lower.lookupValue name span) fun v t => t.tables.IsNear v.type := by
  refine .orAt
    (.get_bind (.bind (Q := fun v? t => ∀ v, v? = some v →
      t.tables.IsNear v.type) (.ofCause fun hs v? hv? v hv => ?_)
    fun v? _ _ hv? =>
      .bind (Q := fun v t => t.tables.IsNear v.type) (.orCrash fun _ v hv => hv? v hv)
        fun v _ _ hv =>
    localValue_level hv))
  subst hv
  rw [Viewpoint.active_getValue, Environment.getValue] at hv?
  cases hget : s.env.get name with
  | error c =>
    rw [hget] at hv?
    cases hv?
  | ok b =>
    obtain ⟨k, n, hk⟩ := exists_lookupIn_of_get hget
    rw [hget] at hv?
    cases b <;> cases hv?
    exact hs.names k n v hk

/-- A load is made exactly where it is needed. -/
theorem loaded_level {v : Value} (hv : s.tables.IsNear v.type) :
    StaysLevel s (Lower.loaded v) fun w t => t.tables.IsLoaded w.type := by
  unfold Lower.loaded
  split
  · rename_i elem helem
    rw [helem] at hv
    refine .bind isValueType_level fun isValue t hst hvalue => .level fun ht => ?_
    split
    · rename_i hpasses
      exact emit_level.mono fun w u htu hw =>
        hw ▸ ((hv.mono hst).behind ht.tables (hvalue ▸ hpasses)).mono htu
    · rename_i hpasses
      exact .pure fun _ => helem ▸ (hv.mono hst).loaded (hvalue ▸ eq_false_of_ne_true hpasses)
  · rename_i hne
    exact .pure fun _ => hv.of_ne_pointer hne

theorem nameResult_level {v : Value} {name : String} :
    StaysLevel s (Lower.nameResult v name) fun _ _ => True := by
  unfold Lower.nameResult
  split
  · refine .get_bind ?_
    split
    · exact .pure fun _ => trivial
    · exact .bind (.aside rfl rfl rfl) fun _ _ _ _ =>
        .get_bind (.bind localName_level fun _ _ _ _ => renameInst_level)
  all_goals exact .pure fun _ => trivial

theorem scopeOf?_level (e : Expr) : StaysLevel s (Lower.scopeOf? e) fun _ _ => True := by
  induction e using Lower.scopeOf?.induct generalizing s with
  | case1 i name =>
    refine .get_bind ?_
    split <;> exact .pure fun _ => trivial
  | case2 i object name ih =>
    refine .bind ih fun k? _ _ _ => ?_
    split
    · exact .pure fun _ => trivial
    · exact .get_bind (.pure fun _ => trivial)
  | case3 e hident hmember =>
    unfold Lower.scopeOf?
    split
    · exact (hident _ _ rfl).elim
    · exact (hmember _ _ _ rfl).elim
    · exact .pure fun _ => trivial

/-! ## Scopes of declarations -/

theorem classScope_level {decl : Node} {isAmbient : Bool} {owner : TypeId} {container : ScopeId} :
    StaysLevel s (Lower.classScope p decl isAmbient owner container) fun _ _ => True := by
  refine .bind .answered fun _ _ _ _ => .bind lookupIn_level fun b? _ _ _ => ?_
  split
  · exact .pure fun _ => trivial
  · exact .bind record_level fun r _ _ hr =>
      .bind (.discard (bindNewScope_level fun _ h => ⟨r, (Option.some.inj h).symm, .inl hr⟩))
      fun _ _ _ _ => .pure fun _ => trivial

theorem interfaceScope_level {decl : Node} {name : String} {container : ScopeId} :
    StaysLevel s (Lower.interfaceScope decl name container) fun _ _ => True := by
  refine .bind lookupIn_level fun b? _ _ _ => ?_
  split
  · exact .pure fun _ => trivial
  · refine .bind (.discard (bindNewScope_level fun _ => nofun)) fun _ _ _ _ =>
      .bind lookupIn_level fun _ _ _ _ => ?_
    split
    · exact .bind stringRecord_level fun r _ _ hr =>
        .discard (bindNewScope_level fun _ h => ⟨r, (Option.some.inj h).symm, .inr hr⟩)
    · exact .pure fun _ => trivial

theorem namespaceScope_level {path : List String} :
    StaysLevel s (Lower.namespaceScope path) fun _ _ => True := by
  unfold Lower.namespaceScope
  split
  · exact .pure fun _ => trivial
  · exact .get_bind (.ofCause fun _ _ _ => trivial)

theorem namespaceOf_level {decl : Node} {name : String} {container : ScopeId} :
    StaysLevel s (Lower.namespaceOf decl name container) fun _ _ => True := by
  refine .bind lookupIn_level fun b? _ _ _ => ?_
  split
  · exact .pure fun _ => trivial
  · exact bindNewScope_level fun _ => nofun

theorem ownerScope_level {decl : Place} {owner : TypeId} :
    StaysLevel s (Lower.ownerScope p decl owner) fun _ _ => True := by
  refine .bind namespaceScope_level fun container _ _ _ => .bind .answered fun name _ _ _ =>
    .bind lookupIn_level fun b? _ _ _ => ?_
  split
  · exact .pure fun _ => trivial
  · exact .refuseAt
  dsimp only
  split
  case' h_1 => refine .bind (.discard classScope_level) fun _ _ _ _ => ?_
  case' h_2 => refine .bind interfaceScope_level fun _ _ _ _ => ?_
  all_goals
    refine .bind lookupIn_level fun b? _ _ _ => ?_
    split
    · exact .pure fun _ => trivial
    · exact .refuseAt

theorem declaringScope_level {decl : Place} {owner? : Option TypeId} :
    StaysLevel s (Lower.declaringScope p decl owner?) fun _ _ => True := by
  unfold Lower.declaringScope
  dsimp only
  split
  · exact .refuseAt
  · split
    · exact .pure fun _ => trivial
    · exact namespaceScope_level
    · cases owner? with
      | none => exact .orCrash_bind fun _ => .refuseAt
      | some owner => exact ownerScope_level
    · cases owner? with
      | none => exact .orCrash_bind fun _ => .refuseAt
      | some owner => exact ownerScope_level
    · exact .refuseAt

theorem receiverRecord_level {k : ScopeId} {owner : TypeId} :
    StaysLevel s (Lower.receiverRecord p k owner) fun ty t =>
    ∃ r, ty = .record r ∧ t.tables.Has r := by
  refine .get_bind ?_
  split
  · rename_i t ht
    obtain ⟨o, ho, ht⟩ := Option.bind_eq_some_iff.1 ht
    exact .pure fun hs => hs.scopes k o t ho ht
  · split
    · exact .bind stringRecord_level fun r _ _ hr => .pure fun _ => ⟨r, rfl, .inr hr⟩
    · exact .bind record_level fun r _ _ hr => .pure fun _ => ⟨r, rfl, .inl hr⟩

theorem insideFrom_level {body : Lower Unit} (path : List String) : ∀ {s : State} {k : ScopeId},
    (∀ t, s.tables.Extends t.tables → StaysLevel t body fun _ _ => True) →
      StaysLevel s (Lower.insideFrom k body path) fun _ _ => True := by
  induction path with
  | nil => exact fun hbody => .enter hbody
  | cons name path ih =>
    refine fun hbody => .enter fun t hst =>
      .get_bind (.bind (Q := fun _ _ => True) (.ofCause fun _ _ _ => trivial) fun b u htu _ => ?_)
    split
    · exact ih fun v huv => hbody v ((hst.trans htu).trans huv)
    · exact .refuse

theorem insideNamespaces_level {body : Lower Unit} {path : List String}
    (hbody : ∀ t, s.tables.Extends t.tables → StaysLevel t body fun _ _ => True) :
    StaysLevel s (Lower.insideNamespaces path body) fun _ _ => True := by
  unfold Lower.insideNamespaces
  split
  · exact hbody s (.refl _)
  · exact .bind namespaceScope_level fun _ _ hst _ => insideFrom_level _ fun t h =>
      hbody t (hst.trans h)

end

end CheckedIR.Lowering

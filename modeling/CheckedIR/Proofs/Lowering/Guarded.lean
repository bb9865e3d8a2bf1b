import CheckedIR.Proofs.Lowering.Tame
import CheckedIR.Proofs.Program.Whole

/-!
# Guarded actions

Lowering takes the types of parameters from the arguments of the call that emits a function, and it
stores what a constructor is given without asking whether it fits. So a record may not have the
field that is asked for, and a field may not have the type of what is stored in it. An action is
guarded when it crashes for no other reason.
-/

namespace CheckedIR.Lowering

open CheckedIR.Ir CheckedIR.Program CheckedIR.Scope CheckedIR.Scope.Action

/-! ## Why lowering crashes -/

def LacksField (p : Program) (s : State) (r : RecordId) (owner : TypeId) (name : String) : Prop :=
  ∃ rec k, s.module.records[r]? = some rec ∧ rec.isOpaque = false ∧ (r, owner) ∉ s.objects ∧
    p.fieldIndex? owner name = some k ∧ rec.fields.length ≤ k

def RefusesValue (p : Program) (s : State) (r : RecordId) (owner : TypeId) (name : String)
    (t : Ty) : Prop :=
  ∃ rec k elem, s.module.records[r]? = some rec ∧ p.fieldIndex? owner name = some k ∧
    rec.fields[k]? = some elem ∧ elem.isMatch s.module.records t = false

/-- On the way to a state that has all of its code, the lowering of expression `e` gave `v`. -/
def Yields (p : Program) (o : Options) (e : Expr) (v : Value) (t : State) : Prop :=
  ∃ depth s₀ s, Changes p (State.initial o) s₀ ∧
    Gives (Lower.rvalue p (Lower.emitTo p depth) e) s₀ v s ∧ s.module.Grows t.module

inductive Stores (p : Program) (o : Options) (s : State) (owner : TypeId) : String → Value → Prop
  | param {f : FuncId} {d : Place} {function : FunctionLike} {index : Nat} {q : Program.Param}
      {fn : Func} {t : Ty}
      (hf : (f, ⟨d, some owner⟩) ∈ s.origins) (hd : d.node.functionLike? = some function)
      (hshape : function.shape = .constructor) (hq : function.params[index]? = some q)
      (hproperty : q.isProperty = true)
      (hfn : s.module.func? f = some fn) (ht : fn.paramTypes[index]? = some t) :
    Stores p o s owner q.name (.param f index t)
  | initializer {f : FuncId} {d : Place} {function : FunctionLike} {c : Stmt} {i : NodeInfo}
      {name : String} {isReadonly : Bool} {e : Expr} {v : Value}
      (hf : (f, ⟨d, some owner⟩) ∈ s.origins) (hd : d.node.functionLike? = some function)
      (hshape : function.shape = .constructor) (hc : d.parent? = some (.stmt c))
      (hm : .member (.property i name isReadonly (some e)) ∈ (Node.stmt c).children)
      (hv : Yields p o e v s) :
    Stores p o s owner name v

/-- Why lowering crashed in a state. -/
inductive Blamed (p : Program) (o : Options) (s : State) : Prop
  | access {i : NodeInfo} {object : Expr} {name : String} {v : Value} {r : RecordId}
      (he : p.Has (.expr (.member i object name))) (hv : Yields p o object v s)
      (ht : v.type = .pointer (.record r))
      (hr : LacksField p s r object.type name)
  | missing {owner : TypeId} {name : String} {v : Value} {r : RecordId}
      (hv : Stores p o s owner name v)
      (ho : HasRecord p owner r s) (hr : LacksField p s r owner name)
  | mismatch {owner : TypeId} {name : String} {v : Value} {r : RecordId}
      (hv : Stores p o s owner name v)
      (ho : HasRecord p owner r s) (hr : RefusesValue p s r owner name v.type)

def Excused (p : Program) (o : Options) (f : Fault) (t : State) : Prop :=
  f.IsReported ∨ f = .crashed ∧ Blamed p o t

section
variable {p : Program} {o : Options} {s t : State}

theorem Yields.mono {e : Expr} {v : Value} (hg : s.module.Grows t.module) (h : Yields p o e v s) :
    Yields p o e v t := by
  obtain ⟨depth, s₀, s₁, hs, hv, hg'⟩ := h
  exact ⟨depth, s₀, s₁, hs, hv, hg'.trans hg⟩

theorem Stores.mono {owner : TypeId} {name : String} {v : Value} (hg : s.module.Grows t.module)
    (ho : s.origins <+: t.origins) (h : Stores p o s owner name v) : Stores p o t owner name v := by
  cases h with
  | param hf hd hshape hq hproperty hfn ht =>
    obtain ⟨fn', hfn', hgf⟩ := hg.funcs _ _ hfn
    exact .param (ho.subset hf) hd hshape hq hproperty hfn' (hgf.paramTypes ▸ ht)
  | initializer hf hd hshape hc hm hv =>
    exact .initializer (ho.subset hf) hd hshape hc hm (hv.mono hg)

theorem Blamed.of_eq (h : Blamed p o s) (hm : t.module = s.module)
    (hobjects : t.objects = s.objects)
    (ho : t.origins = s.origins) (hdefs : t.typeDefs = s.typeDefs) : Blamed p o t := by
  have hg : s.module.Grows t.module := hm ▸ .refl _
  have lacks {r : RecordId} {owner : TypeId} {name : String} (h : LacksField p s r owner name) :
      LacksField p t r owner name := by
    unfold LacksField at h ⊢
    rwa [hm, hobjects]
  have stores {owner : TypeId} {name : String} {v : Value} (h : Stores p o s owner name v) :
      Stores p o t owner name v :=
    h.mono hg (ho ▸ List.prefix_rfl)
  have record {owner : TypeId} {r : RecordId} (h : HasRecord p owner r s) :
      HasRecord p owner r t := by
    unfold HasRecord at h ⊢
    rwa [hdefs]
  cases h with
  | access he hv ht hr => exact .access he (hv.mono hg) ht (lacks hr)
  | missing hv ho hr => exact .missing (stores hv) (record ho) (lacks hr)
  | mismatch hv ho hr =>
    refine .mismatch (stores hv) (record ho) ?_
    unfold RefusesValue at hr ⊢
    rwa [hm]

theorem Excused.of_eq {f : Fault} (h : Excused p o f s) (hm : t.module = s.module)
    (hobjects : t.objects = s.objects)
    (ho : t.origins = s.origins) (hdefs : t.typeDefs = s.typeDefs) : Excused p o f t :=
  h.imp_right fun ⟨hf, hb⟩ => ⟨hf, hb.of_eq hm hobjects ho hdefs⟩

/-! ## What tidy states do not depend on -/

theorem State.IsTidy.withInner (h : s.IsTidy) (inner : List ScopeId) : State.IsTidy { s with env :=
  { s.env with inner } } := ⟨h.module, h.names, h.this⟩

/-! ## The judgement -/

/-- From a tidy state that can be reached, `x` works without a crash but for a reason, and if there
is an answer, it satisfies `Q`. -/
def Guarded {α : Type} (p : Program) (o : Options) (M : Manner) (s : State) (x : Lower α)
    (Q : α → Prop) : Prop :=
  Changes p (State.initial o) s → M.Admits p s → s.IsTidy →
    Ends x s (fun a t => t.IsTidy ∧ Q a) (Excused p o)

namespace Guarded

variable {α β : Type} {M N : Manner} {x : Lower α} {Q : α → State → Prop} {P : α → Prop}
  {R : β → Prop}

theorem of_tame (h : Tame s x P) : Guarded p o M s x P :=
  fun _ _ hs => (h hs).mono (fun _ _ => id) fun _ _ => .inl

theorem pure {a : α} (h : P a) : Guarded p o M s (pure a) P := .of_tame (.pure h)

theorem refuse {c : Cause} : Guarded p o M s (Lower.refuse c) P := .of_tame .refuse

theorem refuseAt {c : Cause} {span : Span} : Guarded p o M s (Lower.refuseAt c span) P :=
  .of_tame .refuseAt

theorem mono {P' : α → Prop} (h : Guarded p o M s x P) (hP : ∀ a, P a → P' a) :
    Guarded p o M s x P' :=
  fun hs ho ht => (h hs ho ht).mono (fun a _ ha => ⟨ha.1, hP a ha.2⟩) fun _ _ => id

theorem weaken (hMN : M.Le N) (h : Guarded p o M s x P) : Guarded p o N s x P :=
  fun hs ho => h hs (hMN.admits ho)

theorem sound (h : s.Sound → Guarded p o M s x P) : Guarded p o M s x P :=
  fun hs => h (hs.sound (initial_sound o)) hs

theorem relying (h : Changes p (State.initial o) s → M.Admits p s → Guarded p o M s x P) :
    Guarded p o M s x P :=
  fun hs ho => h hs ho hs ho

theorem bind_gives {k : α → Lower β} (hw : Works p M s x Q) (hMN : M.Le N)
    (hx : Guarded p o M s x P)
    (hk : ∀ a t, Gives x s a t → t.Sound → Reach p M s t → Q a t → P a → Guarded p o N t (k a) R) :
    Guarded p o N s (x >>= k) R := by
  intro hs ho ht
  have hworks := hw ⟨o, hs⟩ (hMN.admits ho)
  have hguarded := hx hs (hMN.admits ho) ht
  unfold Ends at hworks hguarded ⊢
  rw [run_bind]
  cases hrun : x.run s with
  | mk r t =>
    rw [hrun] at hworks hguarded
    cases r with
    | error f => exact hguarded
    | ok a =>
      obtain ⟨hr, hq⟩ := hworks
      have ht := hs.trans hr.changes
      exact hk a t hrun (Changes.sound ht (initial_sound o)) hr hq hguarded.2 ht
        (hr.weaken hMN ho).admits_after hguarded.1

theorem bind_le {k : α → Lower β} (hw : Works p M s x Q) (hMN : M.Le N) (hx : Guarded p o M s x P)
    (hk : ∀ a t, t.Sound → Reach p M s t → Q a t → P a → Guarded p o N t (k a) R) :
    Guarded p o N s (x >>= k) R :=
  .bind_gives hw hMN hx fun a t _ => hk a t

theorem bind {k : α → Lower β} (hw : Works p M s x Q) (hx : Guarded p o M s x P)
    (hk : ∀ a t, t.Sound → Reach p M s t → Q a t → P a → Guarded p o M t (k a) R) :
    Guarded p o M s (x >>= k) R :=
  .bind_le hw (.refl M) hx hk

theorem read_bind {Q : α → Prop} {k : α → Lower β} (hr : Reads s x Q) (hx : Guarded p o M s x P)
    (hk : ∀ a, Q a → P a → Guarded p o M s (k a) R) : Guarded p o M s (x >>= k) R := by
  intro hs ho ht
  rw [ends_bind]
  refine (Ends.and hr (hx hs ho ht)).mono ?_ fun _ _ => And.right
  rintro a t ⟨⟨rfl, hq⟩, htidy, hp⟩
  exact hk a hq hp hs ho htidy

theorem get_bind {k : State → Lower β} (h : Guarded p o M s (k s) R) :
    Guarded p o M s (get >>= k) R := by
  intro hs ho ht
  rw [ends_get_bind]
  exact h hs ho ht

theorem orCrash_bind {a? : Option α} {k : α → Lower β} (h : ∃ a, a? = some a)
    (hk : ∀ a, a? = some a → Guarded p o M s (k a) R) :
    Guarded p o M s (Lower.orCrash a? >>= k) R := by
  obtain ⟨a, rfl⟩ := h
  exact hk a rfl

theorem func_bind {f : FuncId} {fn : Func} {k : Func → Lower β} (hf : s.module.func? f = some fn)
    (hk : Guarded p o M s (k fn) R) : Guarded p o M s (Lower.func f >>= k) R := by
  intro hs ho ht
  unfold Ends
  rw [run_bind, run_func hf]
  exact hk hs ho ht

theorem map {k : α → β} (h : Guarded p o M s x fun a => R (k a)) : Guarded p o M s (k <$> x) R := by
  intro hs ho ht
  rw [map_eq_pure_bind, ends_bind]
  exact (h hs ho ht).mono (fun _ _ => id) fun _ _ => id

theorem discard (h : Guarded p o M s x P) : Guarded p o M s (discard x) fun _ => True :=
  .map (h.mono fun _ _ => trivial)

theorem orAt {span : Span} (h : Guarded p o M s x P) : Guarded p o M s (Lower.orAt span x) P := by
  intro hs ho ht
  rw [Lower.orAt, ends_tryCatch]
  refine (h hs ho ht).mono (fun _ _ => id) fun f t hf => hf.imp (fun h => h.orAt span) ?_
  rintro ⟨rfl, hb⟩
  exact ⟨rfl, hb⟩

theorem withInner {inner : List ScopeId}
    (h : Guarded p o M { s with env := { s.env with inner } } x P) :
    Guarded p o M s (Action.withInner inner x) P := by
  intro hs ho ht
  rw [ends_withInner]
  exact (h (hs.tail (.enter inner)) ⟨ho.own, ho.filled⟩ (ht.withInner inner)).mono
    (fun a t ⟨htidy, ha⟩ => ⟨htidy.withInner s.env.inner, ha⟩) fun f t hf =>
      hf.of_eq rfl rfl rfl rfl

theorem enter {k : ScopeId}
    (h : Guarded p o M { s with env := { s.env with inner := k :: s.env.inner } } x P) :
    Guarded p o M s (Action.enter k x) P := .get_bind (.withInner h)

theorem keepingCursor (h : Guarded p o .away s x P) :
    Guarded p o .quiet s (Lower.keepingCursor x) P := by
  intro hs ho ht
  rw [ends_keepingCursor]
  exact (h hs ⟨ho.own, ho.filled⟩ ht).mono
    (fun a t ⟨htidy, ha⟩ => ⟨⟨htidy.module, htidy.names, ht.this⟩, ha⟩)
    fun f t hf => hf.of_eq rfl rfl rfl rfl

theorem step {y : Lower α} (hc : Change p s t) (hr : M.Admits p s → Changes p s t → Reach p M s t)
    (htidy : s.IsTidy → t.IsTidy) (hrun : x.run s = y.run t)
    (hy : t.Sound → Reach p M s t → Guarded p o M t y P) : Guarded p o M s x P := by
  intro hs ho ht
  have hreach := hr ho (.single hc)
  have hs' : Changes p (State.initial o) t := hs.tail hc
  unfold Ends
  rw [hrun]
  exact hy (hs'.sound (initial_sound o)) hreach hs' hreach.admits_after (htidy ht)

theorem forM {I : State → Prop} {f : α → Lower PUnit} {l : List α} (hs : I s)
    (hw : ∀ a ∈ l, ∀ t, I t → Works p M t (f a) fun _ u => I u)
    (hg : ∀ a ∈ l, ∀ t, I t → Guarded p o M t (f a) fun _ => True) :
    Guarded p o M s (l.forM f) fun _ => True := by
  induction l generalizing s with
  | nil => exact .pure trivial
  | cons a l ih =>
    rw [List.forM_eq_forM, List.forM_cons]
    exact .bind (hw a List.mem_cons_self s hs) (hg a List.mem_cons_self s hs) fun _ t _ _ ht _ =>
      ih ht (fun a' ha' => hw a' (List.mem_cons_of_mem a ha')) fun a' ha' =>
        hg a' (List.mem_cons_of_mem a ha')

end Guarded

end

section
variable {p : Program} {o : Options} {M : Manner} {s : State} {f : FuncId}

/-! ## Instructions -/

theorem Ready.func (h : Ready f s) : ∃ fn, s.module.func? s.cursor.func = some fn := by
  obtain ⟨rfl, fn, b, hf, -⟩ := h
  exact ⟨fn, hf⟩

theorem emit_guarded {op : Op} {t : Ty} (hr : Ready f s) (hop : op.IsWritable) :
    Guarded p o M s (Lower.emit op t) Value.IsWritable := by
  obtain ⟨fn, hf⟩ := hr.func
  exact .of_tame (emit_tame hf hop)

theorem call_guarded {g : FuncId} {args : List Value} (hr : Ready f s)
    (hg : ∃ fn, s.module.func? g = some fn)
    (hargs : ∀ v ∈ args, v.IsWritable) : Guarded p o M s (Lower.call g args) Value.IsWritable := by
  obtain ⟨fn, hf⟩ := hr.func
  obtain ⟨callee, hg⟩ := hg
  exact .of_tame (call_tame hf hg hargs)

theorem newSlot_guarded {name : String} {t : Ty} (hr : Ready f s) :
    Guarded p o M s (Lower.newSlot name t) Value.IsWritable := by
  refine .sound fun hs => ?_
  obtain ⟨fn, hf⟩ := hr.func
  exact .of_tame (newSlot_tame (hs.frame_func ▸ hf))

theorem isTerminated_guarded : Guarded p o M s Lower.isTerminated fun _ => True := by
  refine .sound fun hs => .get_bind ?_
  obtain ⟨fn, b, hf, -⟩ := hs.place.body
  exact .func_bind (hs.frame_func ▸ hf) (.pure trivial)

theorem isWritable_pair {op : Op} {v w : Value} (hcall : op.isCall = false)
    (hop : op.operands = [v, w]) (hv : v.IsWritable) (hw : w.IsWritable) : op.IsWritable := by
  refine isWritable_op hcall fun u hu => ?_
  rw [hop] at hu
  simp only [List.mem_cons, List.not_mem_nil, or_false] at hu
  rcases hu with rfl | rfl
  · exact hv
  · exact hw

theorem isWritable_single {op : Op} {v : Value} (hcall : op.isCall = false)
    (hop : op.operands = [v]) (hv : v.IsWritable) : op.IsWritable := by
  refine isWritable_op hcall fun u hu => ?_
  rw [hop] at hu
  exact List.mem_singleton.1 hu ▸ hv

theorem store_guarded {v a : Value} {elem : Ty} (hr : Ready f s) (hv : v.IsWritable)
    (ha : a.IsWritable)
    (htype : a.type = .pointer elem) (hblame : elem.isMatch s.module.records v.type = false →
      Blamed p o s) : Guarded p o M s (Lower.store v a) fun _ => True := by
  unfold Lower.store
  rw [htype]
  refine .get_bind ?_
  cases hmatch : elem.isMatch s.module.records v.type with
  | false => exact fun _ _ _ => .inr ⟨rfl, hblame hmatch⟩
  | true => exact .discard (emit_guarded hr (isWritable_pair rfl rfl hv ha))

theorem fieldAddress_guarded {r : RecordId} {base : Value} {index : Nat} (hr : Ready f s)
    (hbase : base.IsWritable)
    (hblame : (s.module.records.get r).fields[index]? = none → Blamed p o s) :
    Guarded p o M s (Lower.fieldAddress r base index) Value.IsWritable := by
  refine .get_bind ?_
  cases hfield : (s.module.records.get r).fields[index]? with
  | none => exact fun _ _ _ => .inr ⟨rfl, hblame hfield⟩
  | some t => exact emit_guarded hr (isWritable_single rfl rfl hbase)

/-! ## Values -/

theorem EnvFits.exists_value {m : Module} {e : Env} (h : EnvFits m e) {name : String}
    {v? : Option Value} (hv : e.getValue name = .ok v?) :
    ∃ v, v? = some v ∧ ∃ k n, e.lookupIn k n = some (.value v) := by
  unfold Environment.getValue at hv
  cases hg : e.get name with
  | error c =>
    rw [hg] at hv
    cases hv
  | ok b =>
    rw [hg] at hv
    cases b with
    | value v =>
      cases hv
      exact ⟨v, rfl, exists_lookupIn_of_get hg⟩
    | scope k => cases hv
    | empty => exact (h.get hg).elim

theorem lookupValue_guarded {name : String} {span : Span} :
    Guarded p o M s (Lower.lookupValue name span) Value.IsWritable := by
  refine .orAt (.sound fun hs => .get_bind ?_)
  intro hc ho ht
  rw [Viewpoint.active_getValue]
  cases hv : s.env.getValue name with
  | error c => exact .inl ⟨_, rfl⟩
  | ok v? =>
    obtain ⟨v, rfl, k, n, hl⟩ := hs.env.exists_value hv
    exact Guarded.of_tame (localValue_tame (ht.names k n v hl)) hc ho ht

theorem loaded_guarded {v : Value} (hr : Ready f s) (hv : Usable f s v) (hw : v.IsWritable) :
    Guarded p o M s (Lower.loaded v) Value.IsWritable := by
  refine .sound fun hs => ?_
  unfold Lower.loaded
  split
  · rename_i elem htype
    have hheld : elem.IsHeld s.module.records := by
      have := hv.fit.plain
      rwa [htype] at this
    refine .read_bind (isValueType_reads hs hheld) (.of_tame isValueType_tame) fun b _ _ => ?_
    split
    · exact emit_guarded hr (isWritable_single rfl rfl hw)
    · exact .pure hw
  · exact .pure hw

theorem scopeMember_guarded {span : Span} {k : ScopeId} {name : String} {source : Option String}
    (hsource : ∃ text, source = some text) :
    Guarded p o M s (Lower.scopeMember span k name source) Value.IsWritable := by
  refine .orAt (.sound fun hs => .get_bind ?_)
  intro hc ho ht
  cases hb : s.env.getIn k name with
  | error c => exact .inl ⟨_, rfl⟩
  | ok b =>
    have hfits := hs.env.resolveIn hb
    cases b with
    | scope j => exact Guarded.orCrash_bind hsource (fun _ _ => .refuse) hc ho ht
    | value v =>
      obtain ⟨j, n, hl⟩ := exists_lookupIn_of_resolveIn hb
      exact Guarded.orCrash_bind hsource (fun _ _ => .of_tame (localValue_tame (ht.names j n v hl)))
        hc ho ht
    | empty => exact hfits.elim

end

end CheckedIR.Lowering

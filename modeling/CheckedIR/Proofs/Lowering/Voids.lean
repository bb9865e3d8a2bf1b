import CheckedIR.Proofs.Ir.Voids
import CheckedIR.Proofs.Lowering.Guarded
import CheckedIR.Proofs.Lowering.SteadyEmission

/-!
# Lowering without void

A value without a type gets among the values of a module only where the checked program says that an
argument, a stored property, an element or a variable has none, and lowering notes where that is.
Everything else keeps a module clear, from any state on.
-/

namespace CheckedIR

namespace Program

def Expr.arguments : Expr → List Expr
  | .construct _ _ args | .call _ _ args => args
  | _ => []

def isVoid (p : Program) (t : TypeId) : Bool :=
  let i := p.typeInfo t
  ! (i.has [.boolean, .booleanLiteral] || i.has [.number, .numberLiteral] || i.isString ||
    i.isObject) && i.has [.void]

end Program

namespace Lowering

open CheckedIR.Ir CheckedIR.Program CheckedIR.Scope CheckedIR.Scope.Action

/-! ## Notes -/

/-- What a lowering notes about where its code comes from. -/
structure Notes where
  calls : List ((FuncId × InstId) × Expr)
  objects : List (RecordId × TypeId)
  origins : List (FuncId × Request)
  declared : List (FuncId × String × Value)

def State.notes (s : State) : Notes := ⟨s.calls, s.objects, s.origins, s.declared⟩

structure Notes.Within (n m : Notes) : Prop where
  calls : n.calls ⊆ m.calls
  objects : n.objects ⊆ m.objects
  origins : n.origins ⊆ m.origins
  declared : n.declared ⊆ m.declared

/-- The ways in which a value without a type gets where values are. -/
inductive Notes.TakesVoid (p : Program) (n : Notes) : Prop
  | argument (f : FuncId) (i : InstId) (e a : Expr) (hcall : ((f, i), e) ∈ n.calls)
      (ha : a ∈ e.arguments) (hvoid : p.isVoid a.type = true)
  | property (r : RecordId) (t : TypeId) (q : SymbolId) (hobject : (r, t) ∈ n.objects)
      (hvisible : p.isAmbient t = false)
      (hq : q ∈ p.storedProperties t) (hvoid : p.isVoid (Lower.propertyType p q) = true)
  | element (f : FuncId) (d : Place) (fn : FunctionLike) (owner elem : TypeId)
      (horigin : (f, ⟨d, some owner⟩) ∈ n.origins)
      (hfn : d.node.functionLike? = some fn) (hshape : fn.shape = .indexSignature)
      (hindex : (p.typeInfo owner).index? = some elem) (hvoid : p.isVoid elem = true)
  | slot (f : FuncId) (name : String) (v : Value) (hdeclared : (f, name, v) ∈ n.declared)
      (hvoid : v.type = .pointer .void)

namespace Notes

variable {p : Program} {n m l : Notes}

theorem takesVoid_iff : n.TakesVoid p ↔
    (∃ c ∈ n.calls, ∃ a ∈ c.2.arguments, p.isVoid a.type = true) ∨
    (∃ x ∈ n.objects, p.isAmbient x.2 = false ∧
      ∃ q ∈ p.storedProperties x.2, p.isVoid (Lower.propertyType p q) = true) ∨
    (∃ x ∈ n.origins, ∃ fn ∈ x.2.decl.node.functionLike?, fn.shape = .indexSignature ∧
      ∃ owner ∈ x.2.owner?, ∃ elem ∈ (p.typeInfo owner).index?, p.isVoid elem = true) ∨
    ∃ x ∈ n.declared, x.2.2.type = .pointer .void := by
  constructor
  · rintro (⟨f, i, e, a, hcall, ha, hvoid⟩ | ⟨r, t, q, hobject, hvisible, hq, hvoid⟩ |
      ⟨f, d, fn, owner, elem, horigin, hfn, hshape, hindex, hvoid⟩ | ⟨f, name, v, hdeclared, hvoid⟩)
    · exact .inl ⟨_, hcall, a, ha, hvoid⟩
    · exact .inr (.inl ⟨_, hobject, hvisible, q, hq, hvoid⟩)
    · exact .inr (.inr (.inl ⟨_, horigin, fn, hfn, hshape, owner, rfl, elem, hindex, hvoid⟩))
    · exact .inr (.inr (.inr ⟨_, hdeclared, hvoid⟩))
  · rintro (⟨⟨⟨f, i⟩, e⟩, hcall, a, ha, hvoid⟩ | ⟨⟨r, t⟩, hobject, hvisible, q, hq, hvoid⟩ |
      ⟨⟨f, ⟨d, _⟩⟩, horigin, fn, hfn, hshape, owner, rfl, elem, hindex, hvoid⟩ | ⟨⟨f, name, v⟩,
        hdeclared, hvoid⟩)
    · exact .argument f i e a hcall ha hvoid
    · exact .property r t q hobject hvisible hq hvoid
    · exact .element f d fn owner elem horigin hfn hshape hindex hvoid
    · exact .slot f name v hdeclared hvoid

instance : Decidable (n.TakesVoid p) := decidable_of_iff _ takesVoid_iff.symm

theorem Within.refl (n : Notes) : n.Within n :=
  ⟨List.Subset.refl _, List.Subset.refl _, List.Subset.refl _, List.Subset.refl _⟩

theorem Within.trans (h : n.Within m) (h' : m.Within l) : n.Within l :=
  ⟨List.Subset.trans h.calls h'.calls, List.Subset.trans h.objects h'.objects,
    List.Subset.trans h.origins h'.origins, List.Subset.trans h.declared h'.declared⟩

theorem TakesVoid.mono (hn : n.Within m) (h : n.TakesVoid p) : m.TakesVoid p := by
  cases h with
  | argument f i e a hcall ha hvoid => exact .argument f i e a (hn.calls hcall) ha hvoid
  | property r t q hobject hvisible hq hvoid =>
    exact .property r t q (hn.objects hobject) hvisible hq hvoid
  | element f d fn owner elem horigin hfn hshape hindex hvoid =>
    exact .element f d fn owner elem (hn.origins horigin) hfn hshape hindex hvoid
  | slot f name v hdeclared hvoid => exact .slot f name v (hn.declared hdeclared) hvoid

end Notes

/-! ## Clear states -/

structure State.IsClear (s : State) : Prop where
  module : s.module.IsClear
  names : ∀ k name v, s.env.lookupIn k name = some (.value v) → v.type.isResult = true
  scopes : ∀ k o t, (s.env.scope k).data? = some o → o.type? = some t → t.isVoidFree = true
  this : ∀ v, s.frame.this? = some v → v.type.isResult = true

/-- Run from `s`, action `x` takes no note back. If `P` holds and `s` is clear and there is an
answer, either a value without a type was taken somewhere, or the answer satisfies `Q` and the state
is clear again. -/
def Clears {α : Type} (p : Program) (P : Prop) (s : State) (x : Lower α) (Q : α → Prop) : Prop :=
  Ends x s (fun a t => s.notes.Within t.notes ∧
    (P → s.IsClear → t.notes.TakesVoid p ∨ t.IsClear ∧ Q a)) fun _ _ => True

def Spoils {α : Type} (p : Program) (s : State) (x : Lower α) : Prop :=
  Ends x s (fun _ t => s.notes.Within t.notes ∧ t.notes.TakesVoid p) fun _ _ => True

section
variable {α β : Type} {p : Program} {P P' : Prop} {s t : State} {x : Lower α} {Q : α → Prop}
  {R : β → Prop}

namespace Clears

theorem pure {a : α} (h : P → Q a) : Clears p P s (pure a) Q :=
  ⟨.refl _, fun hP hs => .inr ⟨hs, h hP⟩⟩

theorem throw {f : Fault} : Clears p P s (throw f) Q := trivial

theorem refuse {c : Cause} : Clears p P s (Lower.refuse c) Q := .throw

theorem refuseAt {c : Cause} {span : Span} : Clears p P s (Lower.refuseAt c span) Q := .throw

theorem crash : Clears p P s Lower.crash Q := .throw

theorem orCrash {a? : Option α} (h : ∀ a, a? = some a → P → Q a) :
    Clears p P s (Lower.orCrash a?) Q := by
  cases a? with
  | none => exact .crash
  | some a => exact .pure (h a rfl)

theorem answered {a? : Option α} : Clears p P s (Lower.answered a?) fun _ => True := by
  cases a? with
  | none => exact .throw
  | some a => exact .pure fun _ => trivial

theorem ofCause {r : Except Cause α} (h : ∀ a, r = .ok a → P → Q a) :
    Clears p P s (Action.ofCause r) Q := by
  cases r with
  | error c => exact .throw
  | ok a => exact .pure (h a rfl)

theorem ofExcept {r : Except Fault α} : Clears p P s (Lower.ofExcept r) fun _ => True := by
  cases r with
  | error f => exact .throw
  | ok a => exact .pure fun _ => trivial

theorem mono_of {Q' : α → Prop} (h : Clears p P s x Q) (hQ : P → ∀ a, Q a → Q' a) :
    Clears p P s x Q' :=
  Ends.mono h (fun a _ ⟨hn, ha⟩ => ⟨hn,
    fun hP hs => (ha hP hs).imp_right fun ⟨ht, hq⟩ => ⟨ht, hQ hP a hq⟩⟩) fun _ _ => id

theorem mono {Q' : α → Prop} (h : Clears p P s x Q) (hQ : ∀ a, Q a → Q' a) : Clears p P s x Q' :=
  h.mono_of fun _ => hQ

theorem weaken (hP : P' → P) (h : Clears p P s x Q) : Clears p P' s x Q :=
  Ends.mono h (fun _ _ ⟨hn, ha⟩ => ⟨hn, fun hP' hs => ha (hP hP') hs⟩) fun _ _ => id

theorem clear (h : Clears p (P ∧ s.IsClear) s x Q) : Clears p P s x Q :=
  Ends.mono h (fun _ _ ⟨hn, ha⟩ => ⟨hn, fun hP hs => ha ⟨hP, hs⟩ hs⟩) fun _ _ => id

theorem bind_gives {k : α → Lower β} (h : Clears p P s x Q)
    (hk : ∀ a t, Gives x s a t → Clears p (P ∧ Q a) t (k a) R) : Clears p P s (x >>= k) R := by
  unfold Clears
  rw [ends_bind]
  refine (Ends.and h (ends_gives h)).mono (fun a t ⟨⟨hn, ha⟩, hgives⟩ => ?_) fun _ _ _ => trivial
  refine Ends.mono (hk a t hgives) (fun b u ⟨hn', hb⟩ => ⟨hn.trans hn', fun hP hs => ?_⟩) fun _ _ =>
    id
  rcases ha hP hs with hvoid | ⟨ht, hq⟩
  · exact .inl (hvoid.mono hn')
  · exact hb ⟨hP, hq⟩ ht

theorem bind {k : α → Lower β} (h : Clears p P s x Q) (hk : ∀ a t, Clears p (P ∧ Q a) t (k a) R) :
    Clears p P s (x >>= k) R := h.bind_gives fun a t _ => hk a t

theorem get_bind {k : State → Lower β} (h : Clears p P s (k s) R) : Clears p P s (get >>= k) R := by
  unfold Clears
  rw [ends_get_bind]
  exact h

theorem map {k : α → β} (h : Clears p P s x fun a => R (k a)) : Clears p P s (k <$> x) R := by
  rw [map_eq_pure_bind]
  exact h.bind fun _ _ => .pure fun hP => hP.2

theorem discard (h : Clears p P s x Q) : Clears p P s (discard x) fun _ => True :=
  .map (h.mono fun _ _ => trivial)

theorem noting {g : State → State} (hn : s.notes.Within (g s).notes)
    (h : P → s.IsClear → (g s).IsClear) :
    Clears p P s (modify g) fun _ => True := ⟨hn, fun hP hs => .inr ⟨h hP hs, trivial⟩⟩

theorem keep {g : State → State} (hn : (g s).notes = s.notes) (h : P → s.IsClear → (g s).IsClear) :
    Clears p P s (modify g) fun _ => True := .noting (hn ▸ .refl _) h

theorem aside {g : State → State} (hn : (g s).notes = s.notes)
    (hrecords : (g s).module.records = s.module.records)
    (hfuncs : (g s).module.funcs = s.module.funcs) (henv : (g s).env = s.env)
    (hframe : (g s).frame = s.frame) : Clears p P s (modify g) fun _ => True :=
  .keep hn fun _ hs => ⟨⟨hrecords ▸ hs.module.records, hfuncs ▸ hs.module.funcs⟩, henv ▸ hs.names,
    henv ▸ hs.scopes, hframe ▸ hs.this⟩

theorem set {u : State} (hn : u.notes = s.notes) (hrecords : u.module.records = s.module.records)
    (hfuncs : u.module.funcs = s.module.funcs) (henv : u.env = s.env) (hframe : u.frame = s.frame) :
    Clears p P s (set u) fun _ => True :=
  .aside (g := fun _ => u) hn hrecords hfuncs henv hframe

theorem orAt {span : Span} (h : Clears p P s x Q) : Clears p P s (Lower.orAt span x) Q := by
  unfold Clears
  rw [Lower.orAt, ends_tryCatch]
  exact Ends.mono h (fun _ _ => id) fun _ _ _ => trivial

theorem mapM {l : List β} {f : β → Lower α} (h : ∀ b ∈ l, ∀ t, Clears p P t (f b) Q) :
    Clears p P s (l.mapM f) fun as => ∀ a ∈ as, Q a := by
  induction l generalizing s with
  | nil => exact .pure fun _ => nofun
  | cons b l ih =>
    rw [List.mapM_cons]
    refine .bind (h b List.mem_cons_self s) fun a t => ?_
    refine .bind ((ih fun b hb => h b (List.mem_cons_of_mem _ hb)).weaken And.left) fun as _ =>
      .pure fun hP => ?_
    exact List.forall_mem_cons.2 ⟨hP.1.2, hP.2⟩

theorem forM {l : List β} {f : β → Lower PUnit}
    (h : ∀ b ∈ l, ∀ t, Clears p P t (f b) fun _ => True) :
    Clears p P s (l.forM f) fun _ => True := by
  induction l generalizing s with
  | nil => exact .pure fun _ => trivial
  | cons b l ih =>
    rw [List.forM_eq_forM, List.forM_cons]
    exact .bind (h b List.mem_cons_self s) fun _ _ =>
      (ih fun b hb => h b (List.mem_cons_of_mem _ hb)).weaken And.left

theorem keepingCursor (h : Clears p P s x Q) : Clears p P s (Lower.keepingCursor x) Q := by
  unfold Clears
  rw [ends_keepingCursor]
  exact Ends.mono h (fun _ _ ⟨hn, ha⟩ => ⟨hn, fun hP hs => (ha hP hs).imp_right fun ⟨ht, hq⟩ =>
    ⟨⟨ht.module, ht.names, ht.scopes, hs.this⟩, hq⟩⟩) fun _ _ => id

theorem withInner {inner : List ScopeId} (h : ∀ t, Clears p P t x Q) :
    Clears p P s (Action.withInner inner x) Q := by
  unfold Clears
  rw [ends_withInner]
  exact Ends.mono (h { s with env := { s.env with inner } }) (fun _ _ ⟨hn, ha⟩ => ⟨hn, fun hP hs =>
    (ha hP ⟨hs.module, hs.names, hs.scopes, hs.this⟩).imp_right fun ⟨ht, hq⟩ =>
      ⟨⟨ht.module, ht.names, ht.scopes, ht.this⟩, hq⟩⟩) fun _ _ => id

theorem enter {k : ScopeId} (h : ∀ t, Clears p P t x Q) : Clears p P s (Action.enter k x) Q :=
  .get_bind (.withInner h)

theorem detached (h : ∀ t, Clears p P t x Q) : Clears p P s (Action.detached x) Q := .withInner h

/-! ### Taking void -/

theorem bind_gives_spoils {k : α → Lower β} (h : Clears p P s x Q)
    (hk : ∀ a t, Gives x s a t → Spoils p t (k a)) : Spoils p s (x >>= k) := by
  unfold Spoils
  rw [ends_bind]
  exact (Ends.and h (ends_gives h)).mono (fun a t ⟨⟨hn, _⟩, hgives⟩ => Ends.mono (hk a t hgives)
    (fun _ _ ⟨hn', hvoid⟩ => ⟨hn.trans hn', hvoid⟩) fun _ _ => id) fun _ _ _ => trivial

theorem bind_spoils {k : α → Lower β} (h : Clears p P s x Q) (hk : ∀ a t, Spoils p t (k a)) :
    Spoils p s (x >>= k) :=
  h.bind_gives_spoils fun a t _ => hk a t

theorem spoils (h : Clears p P s x Q) (hs : s.notes.TakesVoid p) : Spoils p s x :=
  Ends.mono h (fun _ _ ⟨hn, _⟩ => ⟨hn, hs.mono hn⟩) fun _ _ => id

end Clears

namespace Spoils

theorem clears (h : Spoils p s x) : Clears p P s x Q :=
  Ends.mono h (fun _ _ ⟨hn, hvoid⟩ => ⟨hn, fun _ _ => .inl hvoid⟩) fun _ _ => id

theorem bind {k : α → Lower β} (h : Spoils p s x) (hk : ∀ a t, Clears p P t (k a) R) :
    Spoils p s (x >>= k) := by
  unfold Spoils
  rw [ends_bind]
  exact Ends.mono h
    (fun a t ⟨hn, hvoid⟩ => Ends.mono ((hk a t).spoils hvoid)
      (fun _ _ ⟨hn', hvoid'⟩ => ⟨hn.trans hn', hvoid'⟩)
    fun _ _ => id) fun _ _ => id

theorem modify {g : State → State} (hn : s.notes.Within (g s).notes) (h : (g s).notes.TakesVoid p) :
    Spoils p s (modify g : Lower Unit) := ⟨hn, h⟩

end Spoils

end

section
variable {p : Program} {P : Prop} {s t : State}

/-! ## Log and functions -/

theorem debug_clears {text : String} : Clears p P s (Lower.debug text) fun _ => True :=
  .aside rfl rfl rfl rfl rfl

theorem warn_clears {text : String} : Clears p P s (Lower.warn text) fun _ => True :=
  .aside rfl rfl rfl rfl rfl

theorem typeText_clears {ty : Ty} : Clears p P s (Lower.typeText ty) fun _ => True :=
  .get_bind (.pure fun _ => trivial)

theorem func_clears {f : FuncId} : Clears p P s (Lower.func f) Func.IsClear :=
  .clear (.get_bind (.orCrash fun _ hfn hP => hP.2.module.func? hfn))

theorem funcValue_clears {f : FuncId} :
    Clears p P s (Lower.funcValue f) fun v => v.type.isVoidFree = true :=
  .bind func_clears fun _ _ => .pure fun hP => by simpa [Value.type] using hP.2.signature

theorem newBlock_clears {f : FuncId} {name : String} :
    Clears p P s (Lower.newBlock f name) fun _ => True := by
  refine .bind func_clears fun _ _ =>
    .bind (.keep rfl fun _ hs => ⟨hs.module.modifyFunc fun fn hfn =>
    ⟨hfn.signature, hfn.sized, hfn.isVariadic, fun b hb => ?_⟩, hs.names, hs.scopes, hs.this⟩)
      fun _ _ => .pure fun _ => trivial
  rcases List.mem_append.1 hb with hb | hb
  · exact hfn.blocks b hb
  · exact List.mem_singleton.1 hb ▸ ⟨.inr nofun, nofun⟩

theorem modifyBlock_clears {c : Cursor} {k : Ir.Block → Ir.Block}
    (hk : P → ∀ b, b.IsClear → (k b).IsClear) :
    Clears p P s (Lower.modifyBlock c k) fun _ => True :=
  .keep rfl fun hP hs => ⟨hs.module.modifyBlock (hk hP), hs.names, hs.scopes, hs.this⟩

theorem emit_clears {op : Op} {ty : Ty} (hop : P → op.IsClear) (hty : P → ty.isResult = true) :
    Clears p P s (Lower.emit op ty) fun v => v.type.isResult = true :=
  .get_bind (.bind func_clears fun _ _ => .bind
    (modifyBlock_clears fun hP _ hb => hb.append (hop hP.1)) fun _ _ =>
    .pure fun hP => hty hP.1.1)

theorem terminate_clears {e : Terminator} (he : P → ∀ v ∈ e.operands, v.type.isResult = true) :
    Clears p P s (Lower.terminate e) fun _ => True :=
  .get_bind (modifyBlock_clears fun hP _ hb => ⟨hb.code, fun _ h => Option.some.inj h ▸ he hP⟩)

theorem isTerminated_clears : Clears p P s Lower.isTerminated fun _ => True :=
  .get_bind (.bind func_clears fun _ _ => .pure fun _ => trivial)

theorem moveToEntry_clears : Clears p P s Lower.moveToEntry fun _ => True :=
  .bind func_clears fun _ _ => .keep rfl fun _ hs => ⟨hs.module, hs.names, hs.scopes, nofun⟩

theorem localName_clears {f : FuncId} {name : String} :
    Clears p P s (Lower.localName f name) fun _ => True :=
  .get_bind (.bind (.aside rfl rfl rfl rfl rfl) fun _ _ => .pure fun _ => trivial)

theorem renameInst_clears {f : FuncId} {i : InstId} {name : String} :
    Clears p P s (Lower.renameInst f i name) fun _ => True :=
  .keep rfl fun _ hs => ⟨hs.module.of_sameCode (s.module.sameCode_rename f i name), hs.names,
    hs.scopes, hs.this⟩

theorem newSlot_clears {name : String} {ty : Ty} (hty : P → ty.isVoidFree = true) :
    Clears p P s (Lower.newSlot name ty) fun v => v.type.isResult = true := by
  refine .get_bind (.bind localName_clears fun _ _ => .bind func_clears fun _ _ => .bind
    (modifyBlock_clears fun hP _ hb =>
    hb.cons (Op.isClear_of_operands rfl ?_ nofun)) fun _ _ => .pure fun hP => ?_)
  · exact fun _ ht => List.mem_singleton.1 ht ▸ hty hP.1.1
  · exact Ty.isResult_of_isVoidFree (Ty.isVoidFree_pointer.trans (hty hP.1.1.1))

theorem newFunc_clears {name : String} {returns : Ty} {params : List (String × Ty)}
    (hreturns : P → returns.isResult = true) (hparams : P → ∀ q ∈ params, q.2.isVoidFree = true)
    (hsized : P → (∃ q ∈ params, q.2 = .i32) → returns.isVoidFree = true) :
    Clears p P s (Lower.newFunc name returns params) fun _ => True := by
  refine .get_bind
    (.bind (.keep rfl fun hP hs => ⟨hs.module.snoc ⟨?_, fun h => ?_, rfl, nofun⟩, hs.names,
      hs.scopes, hs.this⟩)
    fun _ _ => .pure fun _ => trivial)
  · refine Func.isVoidFree_signature.2 ⟨hreturns hP, fun t ht => ?_⟩
    simp only [Func.paramTypes, List.map_map, List.mem_map, Function.comp_def] at ht
    obtain ⟨q, hq, rfl⟩ := ht
    exact hparams hP q hq
  · simp only [Func.paramTypes, List.map_map, List.mem_map, Function.comp_def] at h
    exact hsized hP h

theorem call_clears {f : FuncId} {args : List Value}
    (hargs : P → ∀ v ∈ args, v.type.isResult = true) :
    Clears p P s (Lower.call f args) fun v => v.type.isResult = true := by
  unfold Lower.call Lower.funcValue
  rw [bind_assoc]
  refine .bind_gives func_clears fun fn t hfn => ?_
  rw [pure_bind]
  refine .bind_gives func_clears fun fn' u hfn' => ?_
  obtain ⟨hf, rfl⟩ := hfn.func
  obtain ⟨hf', rfl⟩ := hfn'.func
  obtain rfl := Option.some.inj (hf.symm.trans hf')
  exact emit_clears (fun hP => Op.isClear_call hP.2 (hargs hP.1.1)) fun hP =>
    (Func.isVoidFree_signature.1 hP.2.signature).1

theorem noteCall_clears {e : Expr} {v : Value} (hv : P → v.type.isResult = true) :
    Clears p P s (Lower.noteCall e v) fun v => v.type.isResult = true := by
  unfold Lower.noteCall
  split
  · have hn := Notes.Within.refl s.notes
    exact .bind (.noting { hn with calls := List.subset_append_left _ _ } fun _ hs => ⟨hs.module,
      hs.names, hs.scopes, hs.this⟩) fun _ _ => .pure fun hP => hv hP.1
  all_goals exact .pure hv

theorem noteVariable_clears {name : String} {v : Value} :
    Clears p P s (Lower.noteVariable name v) fun _ => True :=
  have hn := Notes.Within.refl s.notes
  .noting { hn with declared := List.subset_append_left _ _ } fun _ hs =>
    ⟨hs.module, hs.names, hs.scopes, hs.this⟩

theorem store_clears {v a : Value} (hv : P → v.type.isResult = true)
    (ha : P → a.type.isResult = true) : Clears p P s (Lower.store v a) fun _ => True := by
  unfold Lower.store
  split
  · rename_i elem helem
    refine .get_bind ?_
    split
    · exact .bind (Q := fun _ => False) .crash fun _ _ =>
        .discard (emit_clears (fun hP => hP.2.elim) fun _ => rfl)
    · rename_i hmatch
      refine .discard (emit_clears (fun hP => Op.isClear_of_operands rfl nofun ?_) fun _ => rfl)
      have hfree := Ty.isVoidFree_of_pointer (ha hP) helem
      have hne : v.type ≠ .void := by
        intro hvoid
        rw [hvoid, Bool.not_eq_true', Bool.not_eq_false] at hmatch
        rw [Ty.eq_void_of_isMatch_void hmatch, Ty.isVoidFree] at hfree
        cases hfree
      simpa [Op.operands, helem, hfree] using Ty.isVoidFree_of_isResult (hv hP) hne
  · exact .crash

theorem fieldAddress_clears {r : RecordId} {base : Value} {index : Nat}
    (hbase : P → base.type.isVoidFree = true) :
    Clears p P s (Lower.fieldAddress r base index) fun v => v.type.isResult = true := by
  refine .clear
    (.get_bind (.bind (Q := fun t => t.isVoidFree = true)
      (.orCrash fun t ht hP => hP.2.module.field ht)
    fun t _ => emit_clears (fun hP => Op.isClear_of_operands rfl ?_ ?_) fun hP => ?_))
  · exact fun _ h => List.mem_singleton.1 h ▸ Ty.isVoidFree_record
  · exact fun _ h => List.mem_singleton.1 h ▸ hbase hP.1.1
  · exact Ty.isResult_of_isVoidFree (Ty.isVoidFree_pointer.trans hP.2)

/-- An instruction behind another one that every module refuses does no harm. -/
theorem emit_then_clears {op : Op} {k : Value → Op} {ty ty' : Ty} (hop : P → op.IsClear)
    (hk : ∀ v, v.type = ty → P → (k v).IsClear ∨ op.IsRefused) :
    Clears p P s (do let v ← Lower.emit op ty; Lower.emit (k v) ty') fun v => v.type = ty' := by
  cases hf : s.module.func? s.cursor.func with
  | none =>
    have hrun : (Lower.emit op ty).run s = (.error .crashed, s) := by
      rw [Lower.emit, run_get_bind, run_bind, Lower.func, run_get_bind, hf]
      rfl
    unfold Clears Ends
    rw [run_bind, hrun]
    trivial
  | some fn =>
    let m := s.module.modifyFunc s.cursor.func fun g =>
      { g with blocks := g.blocks.modify s.cursor.block fun b =>
      { b with insts := b.insts ++ [⟨fn.insts.length, "", 0, op⟩] } }
    have hf' : m.func? s.cursor.func = _ := Module.func?_modifyFunc_self _ hf
    unfold Clears Ends
    rw [run_bind, run_emit_func hf]
    dsimp only
    rw [run_emit_func (s := { s with module := m }) hf']
    refine ⟨.refl _, fun hP hs => .inr ⟨⟨?_, hs.names, hs.scopes, hs.this⟩, rfl⟩⟩
    dsimp only [m]
    rw [Module.modifyBlock_twice]
    refine hs.module.modifyBlock fun b hb => ?_
    rcases hk (.inst s.cursor.func fn.insts.length ty) rfl hP with hclear | hrefused
    · exact (hb.append (i := ⟨_, "", 0, op⟩) (hop hP)).append (i := ⟨_, "", 0, _⟩) hclear
    · exact hb.append_refused (i := ⟨_, "", 0, op⟩) hrefused

/-! ## Scopes -/

theorem bindName_clears {k : ScopeId} {name : String} {b : Binding Value}
    (hb : P → ∀ v, b = .value v → v.type.isResult = true) :
    Clears p P s (Action.bindName k name b) fun _ => True := by
  refine .get_bind ?_
  change Clears p P s (Action.ofCause (s.env.set k name b) >>= Action.setEnvironment) _
  cases he : s.env.set k name b with
  | error c => exact .bind (Q := fun _ => False) .refuse fun _ _ => .keep rfl fun hP => hP.2.elim
  | ok e =>
    refine .keep rfl fun hP hs => ⟨hs.module, fun k' n v hv => ?_, fun k' o t ho => ?_, hs.this⟩
    · exact (lookupIn_set he hv).elim (hs.names k' n v) fun hv => hb hP v hv.symm
    · exact hs.scopes k' o t (data?_set he k' ▸ ho)

theorem createScope_clears {name : String} {o? : Option Origin}
    (ho : P → ∀ o t, o? = some o → o.type? = some t → t.isVoidFree = true) :
    Clears p P s (Action.createScope name o?) fun _ => True := by
  refine .get_bind (.bind (.keep rfl fun hP hs => ⟨hs.module, fun k n v h => hs.names k n v (by
    rwa [← lookupIn_create s.env (.fresh name o?) rfl k n]), fun k o t h => ?_, hs.this⟩) fun _ _ =>
      .pure fun _ => trivial)
  have h : (({ s.env with scopes := s.env.scopes ++ [.fresh name o?] } : Env).scope k).data? =
      some o := h
  rcases data?_create h with hold | hnew
  · exact hs.scopes k o t hold
  · exact ho hP o t hnew

theorem withScope_clears {α : Type} {name : String} {body : ScopeId → Lower α} {Q : α → Prop}
    (h : ∀ k t, Clears p P t (body k) Q) : Clears p P s (Action.withScope name body) Q :=
  .bind (createScope_clears fun _ _ _ => nofun) fun k _ => .enter fun t => (h k t).weaken And.left

theorem lookupIn_clears {k : ScopeId} {name : String} :
    Clears p P s (Lower.lookupIn k name) fun _ => True :=
  .get_bind (.pure fun _ => trivial)

theorem bindNewScope_clears {container : ScopeId} {name : String} {o : Origin}
    (ho : ∀ t, o.type? = some t → t.isVoidFree = true) :
    Clears p P s (Lower.bindNewScope container name o) fun _ => True :=
  .bind (createScope_clears fun _ _ t h => Option.some.inj h ▸ ho t) fun _ _ =>
    .bind (bindName_clears fun _ _ => nofun) fun _ _ => .pure fun _ => trivial

/-! ## Types -/

/-- What a checked type is lowered to: void only if values of the type have none, and no type of
sizes. -/
structure IsTypeOf (p : Program) (t? : Option TypeId) (ty : Ty) : Prop where
  result : ty.isResult = true
  value : (∀ t, t? = some t → p.isVoid t = false) → ty.isVoidFree = true
  unsized : ty ≠ .i32

theorem IsTypeOf.of_isVoidFree {t? : Option TypeId} {ty : Ty} (h : ty.isVoidFree = true)
    (hne : ty ≠ .i32) : IsTypeOf p t? ty := ⟨Ty.isResult_of_isVoidFree h, fun _ => h, hne⟩

theorem newRecord_clears {rec : Record} (hrec : ∀ t ∈ rec.fields, t.isVoidFree = true) :
    Clears p P s (Lower.newRecord rec) fun _ => True :=
  .get_bind (.bind (.keep rfl fun _ hs => ⟨hs.module.addRecord hrec, hs.names, hs.scopes, hs.this⟩)
    fun _ _ =>
    .pure fun _ => trivial)

theorem defineRecord_clears {rec : Record} (hrec : ∀ t ∈ rec.fields, t.isVoidFree = true) :
    Clears p P s (Lower.defineRecord rec) fun _ => True :=
  .bind (newRecord_clears hrec) fun _ _ => .bind (.aside rfl rfl rfl rfl rfl) fun _ _ =>
    .pure fun _ => trivial

theorem stringRecord_clears : Clears p P s Lower.stringRecord fun _ => True := by
  refine .get_bind ?_
  split
  · exact .pure fun _ => trivial
  · exact .bind (defineRecord_clears (by decide)) fun _ _ =>
      .bind (.aside rfl rfl rfl rfl rfl) fun _ _ =>
      .pure fun _ => trivial

theorem typeWith_clears {build : TypeId → Lower RecordId}
    (hbuild : ∀ u t, Clears p P t (build u) fun _ => True)
    {u : TypeId} : Clears p P s (Lower.typeWith p build u) (IsTypeOf p (some u)) := by
  unfold Lower.typeWith
  dsimp only
  split_ifs with hboolean hnumber hstring hobject hvoid
  · exact .pure fun _ => .of_isVoidFree (by simp [Ty.i1]) nofun
  · exact .pure fun _ => .of_isVoidFree (by simp) nofun
  · exact .bind stringRecord_clears fun _ _ => .pure fun _ => .of_isVoidFree (by simp) nofun
  · exact .bind (hbuild u s) fun _ _ => .pure fun _ => .of_isVoidFree (by simp) nofun
  · refine .pure fun _ => ⟨rfl, fun h => ?_, nofun⟩
    have := h u rfl
    simp_all [isVoid]
  · exact .refuse
  · exact .bind .answered fun _ _ => .refuse

theorem logLayout_clears {r : RecordId} : Clears p P s (Lower.logLayout r) fun _ => True := by
  refine .get_bind (.bind (.set rfl rfl rfl rfl rfl) fun _ _ => ?_)
  split <;> exact debug_clears

theorem addFields_clears {build : TypeId → Lower RecordId} {r : RecordId} {qs : List SymbolId}
    (hbuild : ∀ P u t, Clears p P t (build u) fun _ => True)
    (hqs : P → ∀ q ∈ qs, p.isVoid (Lower.propertyType p q) = false) :
    Clears p P s (Lower.addFields p build r qs) fun _ => True := by
  induction qs generalizing P s with
  | nil => exact .pure fun _ => trivial
  | cons q qs ih =>
    refine .bind (typeWith_clears (hbuild P)) fun ty _ => .bind (.keep rfl fun hP hs =>
      ⟨hs.module.addField (hP.2.value fun _ ht => Option.some.inj ht ▸
        hqs hP.1 q List.mem_cons_self), hs.names, hs.scopes,
        hs.this⟩) fun _ _ => ih fun hP q hq => hqs hP.1.1 q (List.mem_cons_of_mem _ hq)

theorem recordTo_clears (depth : Nat) {u : TypeId} {isOpaque : Bool} :
    Clears p P s (Lower.recordTo p depth u isOpaque) fun _ => True := by
  induction depth generalizing P s u isOpaque with
  | zero => exact .throw
  | succ depth ih =>
    refine .bind .answered fun name t => .get_bind ?_
    split
    · exact .pure fun _ => trivial
    refine .bind (defineRecord_clears nofun) fun r t => ?_
    have hnotes := Notes.Within.refl t.notes
    have hn : t.notes.Within { t.notes with objects := t.notes.objects ++ [(r, u)] } :=
      { hnotes with objects := List.subset_append_left _ _ }
    have rest {P' : Prop} {t : State} (hqs : P' → (isOpaque || p.isAmbient u) = false →
        ∀ q ∈ p.storedProperties u, p.isVoid (Lower.propertyType p q) = false) : Clears p P' t (do
          if isOpaque || p.isAmbient u then return r
          Lower.addFields p (fun u => Lower.recordTo p depth u false) r (p.storedProperties u)
          Lower.logLayout r
          return r) fun _ => True := by
      split
      · exact .pure fun _ => trivial
      · rename_i hvisible
        exact .bind (addFields_clears (fun _ _ _ => ih) fun hP => hqs hP (by simpa using hvisible))
          fun _ _ =>
          .bind logLayout_clears fun _ _ => .pure fun _ => trivial
    by_cases hvoid : p.isAmbient u = false ∧
      ∃ q ∈ p.storedProperties u, p.isVoid (Lower.propertyType p q) = true
    · obtain ⟨hvisible, q, hq, hvoid⟩ := hvoid
      refine (Spoils.bind (.modify hn ?_) fun _ _ => @rest False _ False.elim).clears
      exact .property r u q (List.mem_append_right _ (List.mem_singleton_self _)) hvisible hq hvoid
    · refine .bind (.noting hn fun _ hs => ⟨hs.module, hs.names, hs.scopes, hs.this⟩) fun _ _ =>
        rest fun _ hvisible q hq => ?_
      simp only [Bool.or_eq_false_iff] at hvisible
      simpa using fun h => hvoid ⟨hvisible.2, q, hq, h⟩

theorem record_clears {u : TypeId} {isOpaque : Bool} :
    Clears p P s (Lower.record p u isOpaque) fun _ => True :=
  recordTo_clears _

theorem type_clears {u? : Option TypeId} : Clears p P s (Lower.type p u?) (IsTypeOf p u?) := by
  cases u? with
  | none => exact .refuse
  | some u => exact typeWith_clears fun _ _ => record_clears

theorem isString_clears {ty : Ty} : Clears p P s (Lower.isString ty) fun b => b = true →
    ∃ r, ty = .record r := by
  refine .get_bind ?_
  split
  · exact .pure fun _ _ => ⟨_, rfl⟩
  · exact .pure fun _ h => by cases h

theorem isValueType_clears {ty : Ty} : Clears p P s (Lower.isValueType ty) fun b => b = true →
    ty ≠ .i32 := by
  unfold Lower.isValueType
  split
  · refine .pure fun _ h he => ?_
    obtain rfl := Ty.int.inj he
    cases h
  · exact .pure fun _ _ => nofun
  · exact .pure fun _ _ => nofun
  · exact isString_clears.mono fun _ _ _ => nofun
  · exact .pure fun _ => nofun

/-! ## Runtime functions -/

theorem builtinType_clears {name : String} (hne : name ≠ "void") :
    Clears p P s (Lower.builtinType name) fun t => t.isVoidFree = true := by
  unfold Lower.builtinType
  split
  · exact (hne rfl).elim
  · exact .pure fun _ => by simp [Ty.i32]
  · exact .pure fun _ => by simp [Ty.bytes, Ty.i8]
  · exact .bind stringRecord_clears fun _ _ => .pure fun _ => by simp
  · exact .refuse

theorem builtin_types {name : String} {b : Builtin} (h : Builtin.find? name = some b) :
    b.returns ≠ "void" ∧ ∀ q ∈ b.params, q.type ≠ "void" := by
  have hall : ∀ b ∈ Builtin.all, b.returns ≠ "void" ∧ ∀ q ∈ b.params, q.type ≠ "void" := by decide
  exact hall b (List.mem_of_find?_eq_some h)

theorem builtin_clears {name : String} : Clears p P s (Lower.builtin name) fun _ => True := by
  refine .get_bind ?_
  split
  · exact .pure fun _ => trivial
  split
  · exact .refuse
  · rename_i b hb
    obtain ⟨hreturns, hparams⟩ := builtin_types hb
    refine .bind (builtinType_clears hreturns) fun returns _ =>
      .bind (Q := fun params => ∀ q ∈ params, q.2.isVoidFree = true)
      (.mapM fun q hq _ => .bind (builtinType_clears (hparams q hq)) fun _ _ => .pure fun hP =>
        hP.2) fun params _ =>
      .bind (newFunc_clears (fun hP => Ty.isResult_of_isVoidFree hP.1.2) (fun hP => hP.2)
        fun hP _ => hP.1.2) fun _ _ =>
      .bind (.aside rfl rfl rfl rfl rfl) fun _ _ => .pure fun _ => trivial

theorem byteSize_clears {ty : Ty} : Clears p P s (Lower.byteSize ty) fun _ => True := by
  refine .get_bind (.bind (.set rfl rfl rfl rfl rfl) fun _ _ => ?_)
  split
  · exact .pure fun _ => trivial
  · exact .refuse

theorem sizedCall_clears {f : FuncId} {n : Int} {ty : Ty} (hty : P → ty.isVoidFree = true) :
    Clears p P s (do
      let raw ← Lower.call f [.const (.int 32 n)]
      Lower.emit (.bitcast raw (.pointer ty)) (.pointer ty)) fun v => v.type = .pointer ty := by
  have hsize : ∀ v ∈ [Value.const (.int 32 n)], v.type.isResult = true := fun v hv => by
    rw [List.mem_singleton.1 hv]
    exact Ty.isResult_of_isVoidFree Ty.isVoidFree_int
  unfold Lower.call Lower.funcValue
  rw [bind_assoc, bind_assoc]
  refine .bind_gives func_clears fun fn t hfn => ?_
  rw [pure_bind, bind_assoc]
  refine .bind_gives func_clears fun fn' u hfn' => ?_
  obtain ⟨hf, rfl⟩ := hfn.func
  obtain ⟨hf', rfl⟩ := hfn'.func
  obtain rfl := Option.some.inj (hf.symm.trans hf')
  refine emit_then_clears (fun hP => Op.isClear_call hP.2 hsize) fun v hv hP => ?_
  by_cases hparam : .i32 ∈ fn.paramTypes
  · refine .inl (Op.isClear_of_operands rfl ?_ ?_)
    · exact fun _ h => List.mem_singleton.1 h ▸ Ty.isVoidFree_pointer.trans (hty hP.1.1)
    · exact fun _ h => List.mem_singleton.1 h ▸ hv ▸ hP.2.sized hparam
  · refine .inr (@Op.isRefused_call _ fn.returns _ _ ?_ hparam)
    rw [Value.type, Func.signature, hP.2.isVariadic]
    rfl

theorem allocate_clears {ty : Ty} (hty : P → ty.isVoidFree = true) :
    Clears p P s (Lower.allocate ty) fun v => v.type = .pointer ty := by
  have rest {P' : Prop} {t : State} (hP : P' → P) : Clears p P' t (do
      let size ← Lower.byteSize ty
      let f ← Lower.builtin Builtin.gcAllocate.name
      let raw ← Lower.call f [.const (.int 32 size.toInt)]
      Lower.emit (.bitcast raw (.pointer ty)) (.pointer ty)) fun v => v.type = .pointer ty :=
    .bind byteSize_clears fun _ _ => .bind builtin_clears fun _ _ => sizedCall_clears fun h =>
      hty (hP h.1.1)
  refine .bind isValueType_clears fun isValue _ => ?_
  split
  · exact .bind typeText_clears fun _ _ => .bind (Q := fun _ => False) .refuse fun _ _ =>
      rest fun h => h.2.elim
  · exact rest And.left

/-! ## Values -/

theorem stringGlobal_clears {text : String} :
    Clears p P s (Lower.stringGlobal text) fun _ => True := by
  refine .get_bind ?_
  dsimp only
  split
  · exact .pure fun _ => trivial
  · exact .get_bind (.bind (.aside rfl rfl rfl rfl rfl) fun _ _ => .pure fun _ => trivial)

theorem stringConstant_clears {text : String} :
    Clears p P s (Lower.stringConstant text) fun c => c.type.isResult = true :=
  .bind stringGlobal_clears fun _ _ => .bind stringRecord_clears fun _ _ =>
    .bind (.aside rfl rfl rfl rfl rfl) fun _ _ =>
    .pure fun _ => Ty.isResult_of_isVoidFree Ty.isVoidFree_record

theorem localValue_clears {name : String} {v : Value} (hv : P → v.type.isResult = true) :
    Clears p P s (Lower.localValue name v) fun v => v.type.isResult = true := by
  refine .get_bind ?_
  split
  · exact .pure hv
  · exact .refuse

theorem lookupValue_clears {name : String} {span : Span} :
    Clears p P s (Lower.lookupValue name span) fun v => v.type.isResult = true := by
  refine .orAt
    (.clear (.get_bind
      (.bind (.ofCause (Q := fun v? => ∀ v, v? = some v → v.type.isResult = true) ?_) fun v? _ =>
    .bind (.orCrash fun v hv hP => hP.2 v hv) fun v _ => localValue_clears fun hP => hP.2)))
  rintro v? hv? ⟨-, hs⟩ v rfl
  rw [Viewpoint.active_getValue, Environment.getValue] at hv?
  cases hget : s.env.get name with
  | error c =>
    rw [hget] at hv?
    cases hv?
  | ok b =>
    obtain ⟨k, n, hk⟩ := exists_lookupIn_of_get hget
    rw [hget] at hv?
    cases b <;> cases hv?
    exact hs.names k n v hk

theorem loaded_clears {v : Value} (hv : P → v.type.isResult = true) :
    Clears p P s (Lower.loaded v) fun v => v.type.isResult = true := by
  unfold Lower.loaded
  split
  · rename_i elem helem
    refine .bind isValueType_clears fun isValue t => ?_
    have hfree (h : P) : elem.isVoidFree = true := Ty.isVoidFree_of_pointer (hv h) helem
    split
    · refine emit_clears (fun hP => Op.isClear_of_operands rfl ?_ ?_) fun hP =>
        Ty.isResult_of_isVoidFree (hfree hP.1)
      · exact fun _ h => List.mem_singleton.1 h ▸ hfree hP.1
      · intro _ h
        rw [List.mem_singleton.1 h, helem]
        exact Ty.isVoidFree_pointer.trans (hfree hP.1)
    · exact .pure fun hP => hv hP.1
  · exact .pure hv

theorem nameResult_clears {v : Value} {name : String} :
    Clears p P s (Lower.nameResult v name) fun _ => True := by
  unfold Lower.nameResult
  split
  · refine .get_bind ?_
    split
    · exact .pure fun _ => trivial
    · exact .bind (.aside rfl rfl rfl rfl rfl) fun _ _ =>
        .get_bind (.bind localName_clears fun _ _ => renameInst_clears)
  all_goals exact .pure fun _ => trivial

theorem scopeOf?_clears (e : Expr) : Clears p P s (Lower.scopeOf? e) fun _ => True := by
  induction e using Lower.scopeOf?.induct generalizing P s with
  | case1 i name =>
    refine .get_bind ?_
    split <;> exact .pure fun _ => trivial
  | case2 i object name ih =>
    refine .bind ih fun k? _ => ?_
    split
    · exact .pure fun _ => trivial
    · exact .get_bind (.pure fun _ => trivial)
  | case3 e hident hmember =>
    unfold Lower.scopeOf?
    split
    · exact (hident _ _ rfl).elim
    · exact (hmember _ _ _ rfl).elim
    · exact .pure fun _ => trivial

/-! ## Scopes of declarations -/

theorem classScope_clears {decl : Node} {isAmbient : Bool} {owner : TypeId} {container : ScopeId} :
    Clears p P s (Lower.classScope p decl isAmbient owner container) fun _ => True := by
  refine .bind .answered fun _ _ => .bind lookupIn_clears fun b? _ => ?_
  split
  · exact .pure fun _ => trivial
  · exact .bind record_clears fun _ _ =>
      .bind (.discard (bindNewScope_clears fun _ h => Option.some.inj h ▸ Ty.isVoidFree_record))
      fun _ _ => .pure fun _ => trivial

theorem interfaceScope_clears {decl : Node} {name : String} {container : ScopeId} :
    Clears p P s (Lower.interfaceScope decl name container) fun _ => True := by
  refine .bind lookupIn_clears fun b? _ => ?_
  split
  · exact .pure fun _ => trivial
  · refine .bind (.discard (bindNewScope_clears fun _ => nofun)) fun _ _ =>
      .bind lookupIn_clears fun _ _ => ?_
    split
    · exact .bind stringRecord_clears fun _ _ =>
        .discard (bindNewScope_clears fun _ h => Option.some.inj h ▸ Ty.isVoidFree_record)
    · exact .pure fun _ => trivial

theorem namespaceScope_clears {path : List String} :
    Clears p P s (Lower.namespaceScope path) fun _ => True := by
  unfold Lower.namespaceScope
  split
  · exact .pure fun _ => trivial
  · exact .get_bind (.ofCause fun _ _ _ => trivial)

theorem namespaceOf_clears {decl : Node} {name : String} {container : ScopeId} :
    Clears p P s (Lower.namespaceOf decl name container) fun _ => True := by
  refine .bind lookupIn_clears fun b? _ => ?_
  split
  · exact .pure fun _ => trivial
  · exact bindNewScope_clears fun _ => nofun

theorem ownerScope_clears {decl : Place} {owner : TypeId} :
    Clears p P s (Lower.ownerScope p decl owner) fun _ => True := by
  refine .bind namespaceScope_clears fun container _ => .bind .answered fun name _ =>
    .bind lookupIn_clears fun b? _ => ?_
  split
  · exact .pure fun _ => trivial
  · exact .refuseAt
  dsimp only
  split
  case' h_1 => refine .bind (.discard classScope_clears) fun _ _ => ?_
  case' h_2 => refine .bind interfaceScope_clears fun _ _ => ?_
  -- once its declaration was visited, the scope is there or the owner is refused
  all_goals
    refine .bind lookupIn_clears fun b? _ => ?_
    split
    · exact .pure fun _ => trivial
    · exact .refuseAt

theorem declaringScope_clears {decl : Place} {owner? : Option TypeId} :
    Clears p P s (Lower.declaringScope p decl owner?) fun _ => True := by
  unfold Lower.declaringScope
  dsimp only
  split
  · exact .refuseAt
  · split
    · exact .pure fun _ => trivial
    · exact namespaceScope_clears
    · cases owner? with
      | none => exact .bind (.orCrash fun _ _ _ => trivial) fun _ _ => .refuseAt
      | some owner => exact ownerScope_clears
    · cases owner? with
      | none => exact .bind (.orCrash fun _ _ _ => trivial) fun _ _ => .refuseAt
      | some owner => exact ownerScope_clears
    · exact .refuseAt

theorem receiverRecord_clears {k : ScopeId} {owner : TypeId} :
    Clears p P s (Lower.receiverRecord p k owner) fun t => t.isVoidFree = true := by
  refine .clear (.get_bind ?_)
  split
  · rename_i t ht
    obtain ⟨o, ho, ht⟩ := Option.bind_eq_some_iff.1 ht
    exact .pure fun hP => hP.2.scopes k o t ho ht
  · split
    · exact .bind stringRecord_clears fun _ _ => .pure fun _ => Ty.isVoidFree_record
    · exact .bind record_clears fun _ _ => .pure fun _ => Ty.isVoidFree_record

theorem insideFrom_clears {α : Type} {body : Lower α} {Q : α → Prop}
    (hbody : ∀ t, Clears p P t body Q) (path : List String) :
    ∀ {s : State} {k : ScopeId}, Clears p P s (Lower.insideFrom k body path) Q := by
  induction path with
  | nil => exact .enter hbody
  | cons name path ih =>
    refine .enter fun t => .get_bind (.bind (.ofCause fun _ _ _ => trivial) fun b _ => ?_)
    split
    · exact ih.weaken And.left
    · exact .refuse

theorem insideNamespaces_clears {α : Type} {body : Lower α} {Q : α → Prop}
    (hbody : ∀ t, Clears p P t body Q)
    {path : List String} : Clears p P s (Lower.insideNamespaces path body) Q := by
  unfold Lower.insideNamespaces
  split
  · exact hbody s
  · exact .bind namespaceScope_clears fun _ _ => (insideFrom_clears hbody _).weaken And.left

end

end Lowering

end CheckedIR

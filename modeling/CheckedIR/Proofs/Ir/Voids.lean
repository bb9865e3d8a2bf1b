import CheckedIR.Proofs.Ir.Numbered
import CheckedIR.Proofs.Ir.Rejections

/-!
# Where void stands

Void is what a function returns that returns nothing. A module is free of void if it has that type
nowhere else. While a module is built, calls may still get arguments without a value, functions may
return one, and a block with a call that no module can have may hold anything. The module is clear
then, and verification refuses what is left.
-/

namespace CheckedIR.Ir

/-! ## Types -/

namespace Ty

mutual

def isVoidFree : Ty → Bool
  | .void => false
  | .pointer t | .array _ t | .vector _ t => t.isVoidFree
  | .func returns params _ => (returns == .void || returns.isVoidFree) && areVoidFree params
  | .label | .token | .metadata | .mmx | .int _ | .float _ | .record _ => true

def areVoidFree : List Ty → Bool
  | [] => true
  | t :: ts => t.isVoidFree && areVoidFree ts

end

def isResult (t : Ty) : Bool := t == .void || t.isVoidFree

theorem areVoidFree_iff {ts : List Ty} : areVoidFree ts = true ↔ ∀ t ∈ ts, t.isVoidFree = true := by
  induction ts with
  | nil => simp [areVoidFree]
  | cons t ts ih => simp [areVoidFree, ih]

theorem isResult_iff {t : Ty} : t.isResult = true ↔ t = .void ∨ t.isVoidFree = true := by
  simp [isResult]

theorem isResult_of_isVoidFree {t : Ty} (h : t.isVoidFree = true) : t.isResult = true :=
  isResult_iff.2 (.inr h)

theorem isVoidFree_of_isResult {t : Ty} (h : t.isResult = true) (hne : t ≠ .void) :
    t.isVoidFree = true :=
  (isResult_iff.1 h).resolve_left hne

@[simp] theorem isVoidFree_pointer {t : Ty} : (Ty.pointer t).isVoidFree = t.isVoidFree := rfl

@[simp] theorem isVoidFree_record {r : RecordId} : (Ty.record r).isVoidFree = true := rfl

@[simp] theorem isVoidFree_int {bits : Nat} : (Ty.int bits).isVoidFree = true := rfl

@[simp] theorem isVoidFree_double : Ty.double.isVoidFree = true := rfl

theorem isVoidFree_of_pointer {t elem : Ty} (h : t.isResult = true) (ht : t = .pointer elem) :
    elem.isVoidFree = true := by
  subst ht
  simpa using isVoidFree_of_isResult h (by simp)

theorem isVoidFree_func {returns : Ty} {params : List Ty} {isVariadic : Bool} :
    (Ty.func returns params isVariadic).isVoidFree = true ↔
      returns.isResult = true ∧ ∀ t ∈ params, t.isVoidFree = true := by
  rw [isVoidFree, Bool.and_eq_true, areVoidFree_iff]
  rfl

/-! Void matches void only. -/

theorem eq_void_of_isMatch {rs : Records} {t : Ty} (h : Ty.void.isMatch rs t = true) :
    t = .void := by
  simp only [isMatch, matchesWith, beq_iff_eq] at h
  exact h.symm

theorem eq_void_of_isMatch_void {rs : Records} {t : Ty} (h : t.isMatch rs .void = true) :
    t = .void := by
  cases t <;> simp_all [isMatch, matchesWith]

end Ty

theorem Func.isVoidFree_signature {fn : Func} :
    fn.signature.isVoidFree = true ↔ fn.returns.isResult = true ∧
    ∀ t ∈ fn.paramTypes, t.isVoidFree = true :=
  Ty.isVoidFree_func

/-! ## Modules without void -/

def Op.types : Op → List Ty
  | .alloca t | .load t _ | .bitcast _ t | .field t _ _ | .toFloat _ t => [t]
  | .store .. | .arith .. | .compare .. | .call .. | .extract .. => []

structure Op.IsVoidFree (op : Op) : Prop where
  types : ∀ t ∈ op.types, t.isVoidFree = true
  operands : ∀ v ∈ op.operands, v.type.isVoidFree = true

structure Func.IsVoidFree (fn : Func) : Prop where
  returns : fn.returns.isResult = true
  params : ∀ t ∈ fn.paramTypes, t.isVoidFree = true
  code : ∀ i ∈ fn.insts, i.op.IsVoidFree
  ends : ∀ b ∈ fn.blocks, ∀ t, b.term? = some t → ∀ v ∈ t.operands, v.type.isVoidFree = true

/-- Void occurs in the module as what functions return and nowhere else. -/
structure Module.IsVoidFree (m : Module) : Prop where
  records : ∀ rec ∈ m.records, ∀ t ∈ rec.fields, t.isVoidFree = true
  funcs : ∀ fn ∈ m.funcs, fn.IsVoidFree

instance (op : Op) : Decidable op.IsVoidFree :=
  decidable_of_iff ((∀ t ∈ op.types, t.isVoidFree = true) ∧
    ∀ v ∈ op.operands, v.type.isVoidFree = true)
    ⟨fun ⟨htypes, hoperands⟩ => ⟨htypes, hoperands⟩, fun h => ⟨h.types, h.operands⟩⟩

instance (fn : Func) : Decidable fn.IsVoidFree :=
  decidable_of_iff (fn.returns.isResult = true ∧ (∀ t ∈ fn.paramTypes, t.isVoidFree = true) ∧
    (∀ i ∈ fn.insts, i.op.IsVoidFree) ∧ ∀ b ∈ fn.blocks, ∀ t ∈ b.term?, ∀ v ∈ t.operands,
      v.type.isVoidFree = true)
    ⟨fun ⟨hreturns, hparams, hcode, hends⟩ => ⟨hreturns, hparams, hcode, hends⟩,
      fun h => ⟨h.returns, h.params, h.code, h.ends⟩⟩

instance (m : Module) : Decidable m.IsVoidFree :=
  decidable_of_iff ((∀ rec ∈ m.records, ∀ t ∈ rec.fields, t.isVoidFree = true) ∧
    ∀ fn ∈ m.funcs, fn.IsVoidFree)
    ⟨fun ⟨hrecords, hfuncs⟩ => ⟨hrecords, hfuncs⟩, fun h => ⟨h.records, h.funcs⟩⟩

/-! ## Clear modules -/

/-- The instruction has no void, unless it is a call that gets an argument without a value. -/
structure Op.IsClear (op : Op) : Prop where
  types : ∀ t ∈ op.types, t.isVoidFree = true
  operands : op.isCall = false → ∀ v ∈ op.operands, v.type.isVoidFree = true
  call : ∀ callee args, op = .call callee args →
    (∃ returns params, callee.type = .pointer (.func returns params false)) ∧
    callee.type.isVoidFree = true ∧ ∀ v ∈ args, v.type.isResult = true

def Op.IsRefused (op : Op) : Prop := ∀ m : Module, m.opDefect? op ≠ none

structure Block.IsClear (b : Block) : Prop where
  code : (∃ c ∈ b.code, c.2.IsRefused) ∨ ∀ c ∈ b.code, c.2.IsClear
  ending : ∀ t, b.term? = some t → ∀ v ∈ t.operands, v.type.isResult = true

structure Func.IsClear (fn : Func) : Prop where
  signature : fn.signature.isVoidFree = true
  sized : .i32 ∈ fn.paramTypes → fn.returns.isVoidFree = true
  isVariadic : fn.isVariadic = false
  blocks : ∀ b ∈ fn.blocks, b.IsClear

structure Module.IsClear (m : Module) : Prop where
  records : ∀ rec ∈ m.records, ∀ t ∈ rec.fields, t.isVoidFree = true
  funcs : ∀ fn ∈ m.funcs, fn.IsClear

theorem Op.isClear_of_operands {op : Op} (hcall : op.isCall = false)
    (htypes : ∀ t ∈ op.types, t.isVoidFree = true)
    (h : ∀ v ∈ op.operands, v.type.isVoidFree = true) : op.IsClear where
  types := htypes
  operands _ := h
  call callee args he := by
    subst he
    cases hcall

theorem Op.isClear_call {f : FuncId} {fn : Func} {args : List Value} (hfn : fn.IsClear)
    (hargs : ∀ v ∈ args, v.type.isResult = true) :
    (Op.call (.func f (.pointer fn.signature)) args).IsClear where
  types := nofun
  operands := nofun
  call callee args' he := by
    cases he
    refine ⟨⟨fn.returns, fn.paramTypes, ?_⟩, by simpa [Value.type] using hfn.signature, hargs⟩
    rw [Value.type, Func.signature, hfn.isVariadic]
    rfl

theorem Op.isRefused_call {callee : Value} {returns : Ty} {params : List Ty} {n : Int}
    (ht : callee.type = .pointer (.func returns params false)) (hno : .i32 ∉ params) :
    (Op.call callee [.const (.int 32 n)]).IsRefused := by
  intro m h
  simp only [Module.opDefect?, Module.callDefect?, ht] at h
  split at h
  · rename_i hlen
    obtain ⟨t, rfl⟩ : ∃ t, params = [t] := by
      obtain hlen : 1 = params.length := by simpa using hlen
      exact List.length_eq_one_iff.1 hlen.symm
    have hne : (Ty.int 32 == t) = false := by
      simpa [Ty.i32] using hno
    simp [Module.argumentDefect?, Module.isMatch, Value.type, Const.type, Ty.isMatch,
      Ty.matchesWith, hne] at h
  · cases h

namespace Block.IsClear

variable {b b' : Block}

theorem extend (h : b.IsClear) (hsub : b.code ⊆ b'.code)
    (hnew : (∃ c ∈ b'.code, c.2.IsRefused) ∨ ∀ c ∈ b'.code, c ∈ b.code ∨ c.2.IsClear)
    (hterm : b'.term? = b.term?) : b'.IsClear where
  code := by
    rcases h.code with ⟨c, hc, href⟩ | hall
    · exact .inl ⟨c, hsub hc, href⟩
    · exact hnew.imp_right fun hnew c hc => (hnew c hc).elim (hall c) id
  ending := hterm ▸ h.ending

theorem append (h : b.IsClear) {i : Inst} (hi : i.op.IsClear) :
    Block.IsClear { b with insts := b.insts ++ [i] } := by
  refine extend h ?_ (.inr fun c hc => ?_) rfl
  · simp [Block.code]
  · rw [Block.code, List.map_append, List.mem_append] at hc
    refine hc.imp_right fun hc => ?_
    rw [List.mem_singleton.1 hc]
    exact hi

theorem cons (h : b.IsClear) {i : Inst} (hi : i.op.IsClear) :
    Block.IsClear { b with insts := i :: b.insts } := by
  refine extend h ?_ (.inr fun c hc => ?_) rfl
  · simp [Block.code]
  · rcases List.mem_cons.1 hc with rfl | hc
    · exact .inr hi
    · exact .inl hc

theorem append_refused (h : b.IsClear) {i j : Inst} (hi : i.op.IsRefused) :
    Block.IsClear { b with insts := b.insts ++ [i] ++ [j] } := by
  refine extend h ?_ (.inl ⟨i.core, ?_, hi⟩) rfl
  · simp [Block.code]
  · simp [Block.code]

end Block.IsClear

theorem Block.IsClear.of_outline {b b' : Block} (h : b.IsClear) (ho : b'.outline = b.outline) :
    b'.IsClear := by
  obtain ⟨-, hc, ht⟩ : b'.name = b.name ∧ b'.code = b.code ∧
    b'.term? = b.term? := by simpa [outline] using ho
  exact ⟨hc ▸ h.code, ht ▸ h.ending⟩

theorem Func.IsClear.of_outline {fn fn' : Func} (h : fn.IsClear) (ho : fn'.outline = fn.outline) :
    fn'.IsClear := by
  obtain ⟨-, hs, hb⟩ := Func.outline_eq ho
  obtain ⟨hreturns, hparams⟩ := Func.signature_inj hs
  refine ⟨hs ▸ h.signature, by rw [hreturns, hparams]; exact h.sized, ?_, fun b' hb' => ?_⟩
  · unfold Func.signature at hs
    injection hs with _ _ hv
    exact hv.trans h.isVariadic
  · obtain ⟨b, hmem, hob⟩ :=
      List.mem_map.1 (hb ▸ List.mem_map_of_mem hb' : b'.outline ∈ fn.blocks.map Block.outline)
    exact (h.blocks b hmem).of_outline hob.symm

theorem Module.modifyBlock_twice (m : Module) (f : FuncId) (i : Nat) (k k' : Block → Block) :
    (m.modifyFunc f fun g => { g with blocks := g.blocks.modify i k }).modifyFunc f
      (fun g => { g with blocks := g.blocks.modify i k' }) =
    m.modifyFunc f fun g => { g with blocks := g.blocks.modify i (k' ∘ k) } := by
  simp only [Module.modifyFunc, List.modify_modify_eq, Function.comp_def]

namespace Module.IsClear

variable {m m' : Module}

theorem of_sameCode (h : m.IsClear) (hm : m.SameCode m') : m'.IsClear where
  records := hm.records ▸ h.records
  funcs fn' hfn' := by
    obtain ⟨f, hf⟩ := List.getElem?_of_mem hfn'
    obtain ⟨fn, hfn, ho⟩ := hm.symm.func? hf
    exact (h.funcs fn (List.mem_of_getElem? hfn)).of_outline ho.symm

theorem func? (h : m.IsClear) {f : FuncId} {fn : Func} (hf : m.func? f = some fn) : fn.IsClear :=
  h.funcs fn (List.mem_of_getElem? hf)

theorem modifyFunc (h : m.IsClear) {f : FuncId} {k : Func → Func}
    (hk : ∀ fn, fn.IsClear → (k fn).IsClear) : (m.modifyFunc f k).IsClear where
  records := h.records
  funcs fn' hfn' := by
    obtain ⟨g, hg⟩ := List.getElem?_of_mem hfn'
    have hg' : (m.modifyFunc f k).func? g = some fn' := hg
    rw [func?_modifyFunc] at hg'
    split at hg'
    · obtain ⟨fn, hfn, rfl⟩ := Option.map_eq_some_iff.1 hg'
      exact hk fn (h.func? hfn)
    · exact h.func? hg'

theorem modifyBlock (h : m.IsClear) {f : FuncId} {i : Nat} {k : Block → Block}
    (hk : ∀ b, b.IsClear → (k b).IsClear) :
    (m.modifyFunc f fun g => { g with blocks := g.blocks.modify i k }).IsClear := by
  refine h.modifyFunc fun fn hfn => ⟨hfn.signature, hfn.sized, hfn.isVariadic, fun b hb => ?_⟩
  obtain ⟨j, hj⟩ := List.getElem?_of_mem hb
  rw [List.getElem?_modify] at hj
  obtain ⟨old, hold, rfl⟩ := Option.map_eq_some_iff.1 hj
  have hclear := hfn.blocks old (List.mem_of_getElem? hold)
  split
  · exact hk old hclear
  · exact hclear

theorem snoc (h : m.IsClear) {fn : Func} (hfn : fn.IsClear) :
    Module.IsClear { m with funcs := m.funcs ++ [fn] } where
  records := h.records
  funcs g hg := by
    rcases List.mem_append.1 hg with hg | hg
    · exact h.funcs g hg
    · exact List.mem_singleton.1 hg ▸ hfn

theorem addRecord (h : m.IsClear) {rec : Record} (hrec : ∀ t ∈ rec.fields, t.isVoidFree = true) :
    Module.IsClear { m with records := m.records ++ [rec] } where
  records rec' hrec' := by
    rcases List.mem_append.1 hrec' with hrec' | hrec'
    · exact h.records rec' hrec'
    · exact List.mem_singleton.1 hrec' ▸ hrec
  funcs := h.funcs

theorem addField (h : m.IsClear) {r : RecordId} {t : Ty} (ht : t.isVoidFree = true) :
    (m.modifyRecord r fun rec => { rec with fields := rec.fields ++ [t] }).IsClear where
  records rec' hrec' := by
    obtain ⟨q, hq⟩ := List.getElem?_of_mem hrec'
    rw [show (m.modifyRecord r fun rec => { rec with fields := rec.fields ++ [t] }).records =
      m.records.modify r fun rec => { rec with fields := rec.fields ++ [t] } from rfl,
        List.getElem?_modify] at hq
    obtain ⟨rec, hrec, rfl⟩ := Option.map_eq_some_iff.1 hq
    have hold := h.records rec (List.mem_of_getElem? hrec)
    split
    · intro u hu
      rcases List.mem_append.1 hu with hu | hu
      · exact hold u hu
      · exact List.mem_singleton.1 hu ▸ ht
    · exact hold
  funcs := h.funcs

theorem field (h : m.IsClear) {r : RecordId} {k : Nat} {t : Ty}
    (ht : (m.records.get r).fields[k]? = some t) : t.isVoidFree = true := by
  unfold Records.get at ht
  cases hr : m.records[r]? with
  | none =>
    rw [hr] at ht
    cases ht
  | some rec =>
    rw [hr] at ht
    exact h.records rec (List.mem_of_getElem? hr) t (List.mem_of_getElem? ht)

end Module.IsClear

/-! ## Verification -/

namespace Module

variable {m : Module}

theorem isVoidFree_of_argumentDefect? {callee : Value} {i : Nat} {ts : List Ty} {vs : List Value}
    (h : m.argumentDefect? callee i ts vs = none) (hlen : vs.length = ts.length)
    (hts : ∀ t ∈ ts, t.isVoidFree = true)
    (hvs : ∀ v ∈ vs, v.type.isResult = true) : ∀ v ∈ vs, v.type.isVoidFree = true := by
  induction vs generalizing i ts with
  | nil => nofun
  | cons v vs ih =>
    cases ts with
    | nil => cases hlen
    | cons t ts =>
      rw [argumentDefect?] at h
      split at h
      · rename_i hmatch
        have hne : v.type ≠ .void := fun hv => by
          have ht := hts t List.mem_cons_self
          rw [isMatch, hv] at hmatch
          rw [Ty.eq_void_of_isMatch hmatch, Ty.isVoidFree] at ht
          cases ht
        exact List.forall_mem_cons.2 ⟨Ty.isVoidFree_of_isResult (hvs v List.mem_cons_self) hne,
          ih h (by simpa using hlen) (fun t ht => hts t (List.mem_cons_of_mem _ ht)) fun v hv =>
            hvs v (List.mem_cons_of_mem _ hv)⟩
      · cases h

theorem isVoidFree_of_opDefect? {op : Op} (hop : op.IsClear) (h : m.opDefect? op = none) :
    op.IsVoidFree := by
  refine ⟨hop.types, ?_⟩
  cases hcall : op.isCall with
  | false => exact hop.operands hcall
  | true =>
    cases op with
    | call callee args =>
      obtain ⟨⟨returns, params, htype⟩, hfree, hargs⟩ := hop.call callee args rfl
      refine List.forall_mem_cons.2 ⟨hfree, ?_⟩
      have hparams : ∀ t ∈ params, t.isVoidFree = true := by
        rw [htype, Ty.isVoidFree_pointer] at hfree
        exact (Ty.isVoidFree_func.1 hfree).2
      simp only [opDefect?, callDefect?, htype] at h
      split at h
      · rename_i hlen
        exact isVoidFree_of_argumentDefect? h (by simpa using hlen) hparams hargs
      · cases h
    | _ => cases hcall

theorem isVoidFree_of_returnDefect? {returns : Ty} {t : Terminator}
    (ht : ∀ v ∈ t.operands, v.type.isResult = true)
    (h : m.returnDefect? returns t = none) : ∀ v ∈ t.operands, v.type.isVoidFree = true := by
  intro v hv
  refine Ty.isVoidFree_of_isResult (ht v hv) fun hvoid => ?_
  obtain rfl : t = .ret (some v) := by
    cases t with
    | unreachable => cases hv
    | ret w? =>
      cases w? with
      | none => cases hv
      | some w => rw [List.mem_singleton.1 hv]
  cases hreturns : m.isMatch returns .void with
  | true => simp [returnDefect?, hreturns] at h
  | false =>
    simp only [returnDefect?, hreturns] at h
    split at h
    · rename_i hmatch
      rw [isMatch, hvoid] at hmatch
      rw [Ty.eq_void_of_isMatch hmatch] at hreturns
      cases hreturns
    · cases h

/-- **Clear modules that are accepted have no void.** -/
theorem IsClear.isVoidFree (h : m.IsClear) (hok : m.rejection? = none) : m.IsVoidFree where
  records := h.records
  funcs fn hfn := by
    obtain ⟨f, hf⟩ := List.getElem?_of_mem hfn
    have hclear := h.funcs fn hfn
    obtain ⟨hreturns, hparams⟩ := Func.isVoidFree_signature.1 hclear.signature
    refine ⟨hreturns, hparams, fun i hi => ?_, fun b hb t ht => ?_⟩
    · obtain ⟨b, hb, hi⟩ := List.mem_flatMap.1 hi
      obtain ⟨t, -, hops, -⟩ := block_accepted hok hf hb
      rcases (hclear.blocks b hb).code with ⟨c, hc, hrefused⟩ | hcode
      · obtain ⟨j, hj, rfl⟩ := List.mem_map.1 hc
        exact (hrefused m (hops j hj)).elim
      · exact isVoidFree_of_opDefect? (hcode i.core (List.mem_map_of_mem hi)) (hops i hi)
    · obtain ⟨t', ht', -, hreturn⟩ := block_accepted hok hf hb
      obtain rfl := Option.some.inj (ht.symm.trans ht')
      exact isVoidFree_of_returnDefect? ((hclear.blocks b hb).ending t ht) hreturn

end Module

end CheckedIR.Ir

import CheckedIR.Proofs.Lowering.Objects

/-!
# Allocations

The first call of a function stays its first call. That of a constructor asks for as many bytes as
the record of its object takes, which does not change once the record is complete.
-/

namespace CheckedIR.Ir

def Module.firstCall? (m : Module) (f : FuncId) : Option Op :=
  (m.func? f).bind fun fn => (fn.insts.map Inst.op).find? Op.isCall

namespace Module

variable {m : Module} {f g : FuncId} {fn : Func} {b : Block} {op : Op}

theorem firstCall?_of_body (hf : m.func? f = some fn) (hb : fn.IsBody b) :
    m.firstCall? f = (b.insts.map Inst.op).find? Op.isCall := by
  unfold firstCall?
  rw [hf, Option.bind_some, Func.insts_of_body hb]

theorem firstCall?_setBody (hf : m.func? f = some fn) (b : Block) :
    (m.setBody f b).firstCall? f = (b.insts.map Inst.op).find? Op.isCall :=
  firstCall?_of_body (func?_setBody hf) rfl

theorem firstCall?_setBody_of_ne (h : f ≠ g) : (m.setBody f b).firstCall? g = m.firstCall? g := by
  unfold firstCall?
  rw [func?_setBody_of_ne h]

theorem SameCode.firstCall? {m' : Module} (h : m.SameCode m') (hg : m.firstCall? g = some op) :
    m'.firstCall? g = some op := by
  obtain ⟨fn, hf, hop⟩ := Option.bind_eq_some_iff.1 hg
  obtain ⟨fn', hf', ho⟩ := h.func? hf
  have hcode := congrArg (List.map Prod.snd) (Func.code_of_outline ho)
  rw [List.map_map, List.map_map] at hcode
  unfold Module.firstCall?
  rw [hf', Option.bind_some, show fn'.insts.map Inst.op = fn.insts.map Inst.op from hcode]
  exact hop

end Module

end CheckedIR.Ir

namespace CheckedIR.Lowering

open CheckedIR.Ir CheckedIR.Program

section
variable {p : Program} {s t : State} {g : FuncId} {op : Op}

/-- A body whose code begins with that of the old one, up to slots, has the same first call. -/
theorem firstCall?_extended {f : FuncId} {fn : Func} {b b' : Ir.Block}
    (hf : s.module.func? f = some fn) (hb : fn.IsBody b) (hg : s.module.firstCall? g = some op)
    (h : (b.insts.map Inst.op).find? Op.isCall = some op →
      (b'.insts.map Inst.op).find? Op.isCall = some op) :
    (s.module.setBody f b').firstCall? g = some op := by
  by_cases he : f = g
  · subst he
    rw [Module.firstCall?_of_body hf hb] at hg
    rw [Module.firstCall?_setBody hf]
    exact h hg
  · rw [Module.firstCall?_setBody_of_ne he, hg]

theorem Change.firstCall? (hc : Change p s t) (hg : s.module.firstCall? g = some op) :
    t.module.firstCall? g = some op := by
  cases hc with
  | declare fn =>
    obtain ⟨fn', hf, hop⟩ := Option.bind_eq_some_iff.1 hg
    have hlt := (List.getElem?_eq_some_iff.1 hf).1
    unfold Module.firstCall? Module.func?
    rw [List.getElem?_append_left hlt, show s.module.funcs[g]? = some fn' from hf]
    exact hop
  | «open» f fn isConstructor hf hblocks =>
    have hne : f ≠ g := by
      rintro rfl
      obtain ⟨fn', hf', hop⟩ := Option.bind_eq_some_iff.1 hg
      obtain rfl := Option.some.inj (hf.symm.trans hf')
      rw [Func.insts_of_blocks_nil hblocks] at hop
      cases hop
    rw [Module.firstCall?_setBody_of_ne hne, hg]
  | emit fn b op' hf hb =>
    refine firstCall?_extended hf hb hg fun h => ?_
    rw [List.map_append, List.find?_append, h, Option.some_or]
  | call fn callee b e r g' args hf hb =>
    refine firstCall?_extended hf hb hg fun h => ?_
    rw [List.map_append, List.find?_append, h, Option.some_or]
  | slot fn b name u hf hb => exact firstCall?_extended hf hb hg fun h => h
  | terminate fn b u hf hb => exact firstCall?_extended hf hb hg fun h => h
  | finish fn b hf hb => exact firstCall?_extended hf hb hg fun h => h
  | name f i name => exact (s.module.sameCode_rename f i _).firstCall? hg
  | number m hm => exact hm.sameCode.firstCall? hg
  | _ => exact hg

theorem Changes.firstCall? (hc : Changes p s t) (hg : s.module.firstCall? g = some op) :
    t.module.firstCall? g = some op := by
  induction hc with
  | refl => exact hg
  | tail _ hc ih => exact hc.firstCall? ih

/-! ## Constructors -/

def Request.Constructs (r : Request) : Prop :=
  ∃ fn body, r.decl.node.functionLike? = some fn ∧ fn.shape = .constructor ∧ fn.body? = some body

instance (r : Request) : Decidable r.Constructs :=
  decidable_of_iff (r.decl.node.functionLike?.any fun fn => fn.shape = .constructor &&
    fn.body?.isSome) <| by
    unfold Request.Constructs
    cases r.decl.node.functionLike? with
    | none => simp
    | some fn => simp [Option.isSome_iff_exists]

def RecordSize (s : State) (r : RecordId) (size : Int64) : Prop :=
  ∃ rec e, s.module.records[r]? = some rec ∧ rec.isOpaque = false ∧
    s.target.objectExtent? rec.fields = some e ∧ e.size = size

theorem RecordSize.mono {r : RecordId} {size : Int64} (hc : Changes p s t) (hfilled : Filled p s r)
    (h : RecordSize s r size) : RecordSize t r size := by
  obtain ⟨rec, e, hrec, hvisible, he, hsize⟩ := h
  exact ⟨rec, e, hfilled.kept_all hc hrec, hvisible, hc.remembers.target ▸ he, hsize⟩

/-- The first call of function `g` allocates an object of record `r`, which is complete. -/
def AllocatesRecord (p : Program) (g : FuncId) (r : RecordId) (s : State) : Prop :=
  Filled p s r ∧ (∃ v, (r, v) ∈ s.objects) ∧ ∃ size alloc type, RecordSize s r size ∧
    s.funcs.lookup Builtin.gcAllocate.name = some alloc ∧
    s.module.firstCall? g = some (.call (.func alloc type) [.const (.int 32 size.toInt)])

theorem AllocatesRecord.mono {r : RecordId} (hc : Changes p s t) (h : AllocatesRecord p g r s) :
    AllocatesRecord p g r t := by
  obtain ⟨hfilled, ⟨v, hv⟩, size, alloc, type, hsize, hf, hcall⟩ := h
  obtain ⟨rec, -, hrec, -⟩ := id hsize
  exact ⟨hfilled.mono hc (List.getElem?_eq_some_iff.1 hrec).1, ⟨v, hc.remembers.objects.subset hv⟩,
    size, alloc, type,
    hsize.mono hc hfilled, lookup_grown hc.remembers.funcs hf, hc.firstCall? hcall⟩

def Allocates (p : Program) (g : FuncId) (owner? : Option TypeId) (s : State) : Prop :=
  ∃ owner r, owner? = some owner ∧ HasRecord p owner r s ∧ AllocatesRecord p g r s

theorem Allocates.mono {owner? : Option TypeId} (hc : Changes p s t) (h : Allocates p g owner? s) :
    Allocates p g owner? t := by
  obtain ⟨owner, r, ho, hr, ha⟩ := h
  exact ⟨owner, r, ho, hr.mono hc, ha.mono hc⟩

end

end CheckedIR.Lowering

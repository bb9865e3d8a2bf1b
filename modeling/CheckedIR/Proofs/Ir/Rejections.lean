import CheckedIR.Proofs.Ir.StraightLine

/-!
# Why sound functions are rejected

A sound function that has ended can only be rejected for the arguments of a call or for what it
returns.
-/

namespace CheckedIR.Ir

def Defect.isMismatch : Defect → Bool
  | .argumentCount .. | .argumentType .. | .valueFromVoid _ | .voidFromValue _
  | .returnMismatch .. => true
  | _ => false

namespace Module

variable {m : Module} {f : FuncId} {fn : Func} {d : Defect}

theorem argumentDefect?_isMismatch {callee : Value} {i : Nat} {ts : List Ty} {vs : List Value}
    (h : m.argumentDefect? callee i ts vs = some d) : d.isMismatch = true := by
  induction ts generalizing i vs with
  | nil => cases h
  | cons t ts ih =>
    cases vs with
    | nil => cases h
    | cons v vs =>
      rw [argumentDefect?] at h
      split at h
      · exact ih h
      · obtain rfl := Option.some.inj h
        rfl

theorem opDefect?_isMismatch {op : Op} (ht : op.IsTyped m) (h : m.opDefect? op = some d) :
    d.isMismatch = true := by
  cases op with
  | store v a =>
    obtain ⟨elem, ha, hm⟩ := ht
    simp [opDefect?, storeDefect?, ha, isMatch, hm.isMatch] at h
  | load elem a =>
    obtain ⟨ha, hp⟩ := ht
    simp [opDefect?, loadDefect?, ha, isMatch, (Ty.Alike.refl hp).isMatch] at h
  | call callee args =>
    obtain ⟨g, fn, rfl, hf⟩ := ht
    simp only [opDefect?, callDefect?, Value.type, Func.signature] at h
    split at h
    · exact argumentDefect?_isMismatch h
    · obtain rfl := Option.some.inj h
      rfl
  | _ => cases h

theorem operandDefect?_eq_none_iff {vs : List Value} :
    operandDefect? f fn vs = none ↔ ∀ v ∈ vs, fn.hasLocal f v = true := by
  rw [operandDefect?, Option.map_eq_none_iff, List.find?_eq_none]
  simp

theorem returnDefect?_isMismatch {returns : Ty} {t : Terminator}
    (h : m.returnDefect? returns t = some d) : d.isMismatch = true := by
  cases t with
  | unreachable => cases h
  | ret v =>
    simp only [returnDefect?] at h
    split at h
    · cases h
    · obtain rfl := Option.some.inj h
      rfl
    · obtain rfl := Option.some.inj h
      rfl
    · split at h
      · cases h
      · obtain rfl := Option.some.inj h
        rfl

theorem instsDefect?_isMismatch {is : List Inst} (ht : ∀ i ∈ is, i.op.IsTyped m)
    (hu : ∀ i ∈ is, ∀ v ∈ i.op.operands, fn.hasLocal f v = true)
    (h : m.instsDefect? f fn is = some d) : d.isMismatch = true := by
  induction is with
  | nil => cases h
  | cons i is ih =>
    rw [instsDefect?, operandDefect?_eq_none_iff.2 (hu i List.mem_cons_self)] at h
    cases ho : m.opDefect? i.op with
    | some d' =>
      rw [ho] at h
      obtain rfl := Option.some.inj h
      exact opDefect?_isMismatch (ht i List.mem_cons_self) ho
    | none =>
      rw [ho] at h
      exact ih (fun j hj => ht j (List.mem_cons_of_mem i hj))
        (fun j hj => hu j (List.mem_cons_of_mem i hj)) h

theorem instsDefect?_eq_none_iff {is : List Inst} : m.instsDefect? f fn is = none ↔
    ∀ i ∈ is, m.opDefect? i.op = none ∧ ∀ v ∈ i.op.operands, fn.hasLocal f v = true := by
  induction is with
  | nil => exact ⟨fun _ => nofun, fun _ => rfl⟩
  | cons i is ih =>
    simp only [instsDefect?, Option.orElse_eq_orElse, Option.orElse_eq_or, Option.or_eq_none_iff,
      operandDefect?_eq_none_iff, ih, List.forall_mem_cons, and_assoc]

theorem blockRejection?_eq_none_iff {b : Block} :
    m.blockRejection? f fn b = none ↔ ∃ t, b.term? = some t ∧
    (∀ i ∈ b.insts, m.opDefect? i.op = none ∧ ∀ v ∈ i.op.operands, fn.hasLocal f v = true) ∧
    (∀ v ∈ t.operands, fn.hasLocal f v = true) ∧ m.returnDefect? fn.returns t = none := by
  unfold blockRejection?
  cases b.term? with
  | none => simp
  | some t =>
    simp only [Option.map_eq_none_iff, Option.orElse_eq_orElse, Option.orElse_eq_or,
      Option.or_eq_none_iff,
      instsDefect?_eq_none_iff, operandDefect?_eq_none_iff, Option.some.injEq, exists_eq_left']

theorem block_accepted {fn : Func} {b : Block} (h : m.rejection? = none) (hf : m.func? f = some fn)
    (hb : b ∈ fn.blocks) :
    ∃ t, b.term? = some t ∧ (∀ i ∈ b.insts, m.opDefect? i.op = none) ∧
      m.returnDefect? fn.returns t = none := by
  have hfunc : m.funcRejection? f = none := by
    have := List.findSome?_eq_none_iff.1 h f (List.mem_range.2 (List.getElem?_eq_some_iff.1 hf).1)
    simpa using this
  rw [funcRejection?, hf] at hfunc
  obtain ⟨t, ht, hinsts, -, hreturn⟩ :=
    blockRejection?_eq_none_iff.1 (List.findSome?_eq_none_iff.1 hfunc b hb)
  exact ⟨t, ht, fun i hi => (hinsts i hi).1, hreturn⟩

end Module

theorem Value.IsAtHand.hasLocal {f : FuncId} {fn : Func} {b : Block} {ids : List InstId} {v : Value}
    (hb : fn.IsBody b)
    (h : v.IsAtHand f fn.paramTypes ids) (hids : ids ⊆ b.ids) : fn.hasLocal f v = true := by
  cases v with
  | param g i t =>
    obtain ⟨rfl, ht⟩ := h
    have hlt : i < fn.params.length := by
      have := (List.getElem?_eq_some_iff.1 ht).1
      rwa [Func.paramTypes, List.length_map] at this
    simp [Func.hasLocal, hlt]
  | inst g i t =>
    obtain ⟨rfl, hi⟩ := h
    obtain ⟨c, hc, hci⟩ := List.mem_map.1 (hids hi)
    obtain ⟨j, hj, rfl⟩ := List.mem_map.1 hc
    have hany : fn.insts.any (·.id == i) = true := by
      rw [Func.insts_of_body hb]
      exact List.any_eq_true.2 ⟨j, hj, beq_iff_eq.2 hci⟩
    simp [Func.hasLocal, hany]
  | _ => rfl

namespace Block.Sound

variable {m : Module} {f : FuncId} {fn : Func} {params : List Ty} {b : Block}

theorem inst_typed (h : b.Sound m f params) {i : Inst} (hi : i ∈ b.insts) : i.op.IsTyped m :=
  h.typed i.core (List.mem_map_of_mem hi)

theorem inst_local (h : b.Sound m f fn.paramTypes) (hb : fn.IsBody b) {i : Inst} (hi : i ∈ b.insts)
    {v : Value} (hv : v ∈ i.op.operands) : fn.hasLocal f v = true := by
  obtain ⟨before, after, he⟩ := List.append_of_mem hi
  have hc : b.code = before.map Inst.core ++ i.core :: after.map Inst.core := by
    rw [Block.code, he, List.map_append, List.map_cons]
  refine (h.atHand _ _ _ hc v hv).hasLocal hb ?_
  rw [Block.ids, hc, List.map_append]
  exact List.subset_append_left _ _

theorem rejection {r : Rejection} (h : b.Sound m f fn.paramTypes) (hb : fn.IsBody b)
    (ht : b.term?.isSome) (hr : m.blockRejection? f fn b = some r) :
    ∃ d, r = .defective b.ident d ∧ d.isMismatch = true := by
  obtain ⟨t, ht⟩ := Option.isSome_iff_exists.1 ht
  rw [Module.blockRejection?, ht] at hr
  obtain ⟨d, hd, rfl⟩ := Option.map_eq_some_iff.1 hr
  refine ⟨d, rfl, ?_⟩
  have hending :
      ∀ v ∈ t.operands, fn.hasLocal f v = true :=
        fun v hv => (h.ending t ht v hv).hasLocal hb (List.Subset.refl _)
  rw [Module.operandDefect?_eq_none_iff.2 hending] at hd
  cases hi : m.instsDefect? f fn b.insts with
  | some d' =>
    rw [hi] at hd
    obtain rfl := Option.some.inj hd
    exact Module.instsDefect?_isMismatch (fun i hi => h.inst_typed hi)
      (fun i hi v hv => h.inst_local hb hi hv) hi
  | none =>
    rw [hi] at hd
    exact Module.returnDefect?_isMismatch hd

end Block.Sound

/-- **Rejections of sound functions.** Only a call's arguments or a return's type can be wrong. -/
theorem Module.Sound.rejection {m : Module} {f : FuncId} {fn : Func} {r : Rejection} (hs : m.Sound)
    (hf : m.func? f = some fn) (ht : fn.isTerminated = true) (hr : m.funcRejection? f = some r) :
    ∃ b d, r = .defective b d ∧ d.isMismatch = true := by
  rw [Module.funcRejection?, hf] at hr
  obtain ⟨b, hb, hr⟩ := List.exists_of_findSome?_eq_some hr
  have hsound := hs f fn hf
  rcases hsound.blocks with hn | ⟨b', hb', hs'⟩
  · simp [hn] at hb
  · rw [hb', List.mem_singleton] at hb
    subst hb
    obtain ⟨d, hd, hm⟩ :=
      hs'.rejection hb' (List.all_eq_true.1 ht b (by simp [show fn.blocks = [b] from hb'])) hr
    exact ⟨b.ident, d, hd, hm⟩

end CheckedIR.Ir

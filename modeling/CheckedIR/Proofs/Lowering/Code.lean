import CheckedIR.Proofs.Meaning.StmtLowered

/-!
# Code

What is added to the code of a function never moves or removes what is there: slots come in front of
it and instructions behind it, and code that has ended stays.
-/

namespace CheckedIR.Lowering

open CheckedIR.Ir CheckedIR.Program CheckedIR.Scope CheckedIR.Scope.Action
open CheckedIR.Meaning (codeOf codeOf_body codeOf_congr codeOf_setBody codeOf_sameCode
  endOf endOf_body)

/-! ## Code that stays -/

/-- Code stands in other code, behind further slots and before further instructions. -/
def Embeds (c c' : Meaning.Code) : Prop := ∃ slots rest, c' = slots ++ c ++ rest ∧
    ∀ x ∈ slots, x.2.isAlloca = true

namespace Embeds

variable {c c' c'' : Meaning.Code}

theorem of_eq (h : c' = c) : Embeds c c' := ⟨[], [], by simp [h], nofun⟩

theorem of_nil : Embeds [] c := ⟨[], c, rfl, nofun⟩

theorem append (rest : Meaning.Code) : Embeds c (c ++ rest) := ⟨[], rest, rfl, nofun⟩

theorem trans (h : Embeds c c') (h' : Embeds c' c'') : Embeds c c'' := by
  obtain ⟨slots, rest, rfl, hslots⟩ := h
  obtain ⟨slots', rest', rfl, hslots'⟩ := h'
  refine ⟨slots' ++ slots, rest ++ rest', by simp, fun x hx => ?_⟩
  exact (List.mem_append.1 hx).elim (hslots' x) (hslots x)

theorem sublist (h : Embeds c c') : c.Sublist c' := by
  obtain ⟨slots, rest, rfl, -⟩ := h
  exact (List.sublist_append_right slots c).trans (List.sublist_append_left _ rest)

end Embeds

section
variable {p : Program} {s t : State} {f : FuncId}

theorem embeds_setBody {g : FuncId} {fn : Func} {b b' : Ir.Block} (hg : s.module.func? g = some fn)
    (hb : fn.IsBody b) (h : Embeds b.code b'.code) (f : FuncId) :
    Embeds (codeOf s.module f) (codeOf (s.module.setBody g b') f) := by
  by_cases he : g = f
  · subst he
    rw [codeOf_body hg hb, codeOf_setBody _ hg]
    exact h
  · exact .of_eq (codeOf_congr (Module.func?_setBody_of_ne he))

theorem Change.embeds (h : Change p s t) (f : FuncId) :
    Embeds (codeOf s.module f) (codeOf t.module f) := by
  cases h with
  | declare fn =>
    cases hf : s.module.func? f with
    | none =>
      rw [show codeOf s.module f = [] by unfold codeOf; rw [hf]; rfl]
      exact .of_nil
    | some fn' =>
      refine .of_eq (codeOf_congr ?_)
      unfold Module.func? at hf ⊢
      exact List.getElem?_append_left (List.getElem?_eq_some_iff.1 hf).1
  | «open» g fn isConstructor hg hblocks =>
    by_cases he : g = f
    · subst he
      rw [show codeOf s.module g =
        [] by unfold codeOf; rw [hg]; exact congrArg _ (Func.insts_of_blocks_nil hblocks)]
      exact .of_nil
    · exact .of_eq (codeOf_congr (Module.func?_setBody_of_ne he))
  | emit fn b op hg hb =>
    exact embeds_setBody hg hb (by unfold Block.code; rw [List.map_append]; exact .append _) f
  | call fn callee b e r g args hg hb =>
    exact embeds_setBody hg hb (by unfold Block.code; rw [List.map_append]; exact .append _) f
  | slot fn b name ty hg hb =>
    refine embeds_setBody hg hb ⟨[(b.insts.length, .alloca ty)],
      [], by simp [Block.code, Inst.core], fun x hx => ?_⟩ f
    rw [List.mem_singleton.1 hx]
    rfl
  | terminate fn b e hg hb =>
    have hcode : Embeds b.code ({ b with term? := some e } : Ir.Block).code := .of_eq rfl
    exact embeds_setBody hg hb hcode f
  | finish fn b hg hb =>
    have hcode :
        Embeds b.code
        ({ b with term? := some (.ret (some (.const (.int 32 0)))) } : Ir.Block).code := .of_eq rfl
    exact embeds_setBody hg hb hcode f
  | name g i name => exact .of_eq (codeOf_sameCode (s.module.sameCode_rename g i _) f)
  | number m hm => exact .of_eq (codeOf_sameCode hm.sameCode f)
  | _ => exact .of_eq rfl

theorem Changes.embeds (h : Changes p s t) (f : FuncId) :
    Embeds (codeOf s.module f) (codeOf t.module f) := by
  induction h with
  | refl => exact .of_eq rfl
  | tail _ hc ih => exact ih.trans (hc.embeds f)

/-! ## Single steps -/

theorem emit_appends {op : Op} {ty : Ty} {v : Value} (hs : s.Sound) (hr : Ready f s)
    (hg : Gives (Lower.emit op ty) s v t) :
    ∃ k, v = .inst f k ty ∧ codeOf t.module f = codeOf s.module f ++ [(k, op)] := by
  obtain ⟨rfl, fn, b, hf, hb, -⟩ := hr
  obtain ⟨hv, rfl⟩ := Prod.mk.inj ((run_emit hs hf hb).symm.trans hg)
  refine ⟨b.insts.length, (Except.ok.inj hv).symm, ?_⟩
  rw [codeOf_setBody _ hf, codeOf_body hf hb]
  simp [Block.code, Inst.core]

theorem call_appends {g : FuncId} {callee : Func} {args : List Value} {v : Value} (hs : s.Sound)
    (hr : Ready f s)
    (hcallee : s.module.func? g = some callee) (hg : Gives (Lower.call g args) s v t) :
    ∃ k ty, v = .inst f k ty ∧
      codeOf t.module f = codeOf s.module f ++
      [(k, .call (.func g (.pointer callee.signature)) args)] := by
  obtain ⟨w, u, hw, hrest⟩ := hg.bind
  obtain ⟨rfl, rfl⟩ := hw.of_reads (funcValue_reads hcallee)
  obtain ⟨fn, u', hget, hemit⟩ := hrest.bind
  obtain ⟨hfn, rfl⟩ := hget.func
  obtain ⟨k, hv, hcode⟩ := emit_appends hs hr hemit
  exact ⟨k, _, hv, hcode⟩

theorem fieldAddress_appends {r : RecordId} {base v : Value} {i : Nat} (hs : s.Sound)
    (hr : Ready f s) (hg : Gives (Lower.fieldAddress r base i) s v t) :
    ∃ j ty, v = .inst f j (.pointer ty) ∧
      codeOf t.module f = codeOf s.module f ++ [(j, .field (.record r) base i)] := by
  obtain ⟨ty, u, hty, hemit⟩ := hg.get_bind.bind
  obtain ⟨-, rfl⟩ := hty.orCrash
  obtain ⟨j, hv, hcode⟩ := emit_appends hs hr hemit
  exact ⟨j, ty, hv, hcode⟩

theorem store_appends {v a : Value} {u : Unit} (hs : s.Sound) (hr : Ready f s)
    (hg : Gives (Lower.store v a) s u t) :
    ∃ k, codeOf t.module f = codeOf s.module f ++ [(k, .store v a)] := by
  obtain ⟨w, hemit⟩ := hg.store
  obtain ⟨k, -, hcode⟩ := emit_appends hs hr hemit
  exact ⟨k, hcode⟩

theorem terminate_ends {e : Terminator} {u : Unit} (hs : s.Sound) (hr : Ready f s)
    (hg : Gives (Lower.terminate e) s u t) : HasBody t.module f (codeOf s.module f) e := by
  obtain ⟨rfl, fn, b, hf, hb, -⟩ := hr
  obtain rfl := hg.terminate hs hf hb
  rw [codeOf_body hf hb]
  exact ⟨_, _, Module.func?_setBody hf, rfl, rfl, rfl⟩

theorem Reach.code_still {M : Manner} (h : Reach p M s t) (hM : M.still = true) (f : FuncId) :
    codeOf t.module f = codeOf s.module f :=
  codeOf_congr (by unfold Module.func?; rw [(h.still hM).1])

/-! ## Ends -/

theorem Ready.not_ended (hr : Ready f s) : ¬ Ended s.module f := by
  rintro ⟨fn, hf, hended⟩
  obtain ⟨fn', b, hf', hb, hopen⟩ := hr.isOpen
  obtain rfl := Option.some.inj (hf.symm.trans hf')
  simp [Func.isTerminated, show fn.blocks = [b] from hb, hopen] at hended

theorem HasBody.unique {m : Module} {f : FuncId} {c c' : Meaning.Code} {e e' : Terminator}
    (h : HasBody m f c e) (h' : HasBody m f c' e') : c = c' ∧ e = e' := by
  obtain ⟨fn, b, hf, hb, rfl, he⟩ := h
  obtain ⟨fn', b', hf', hb', rfl, he'⟩ := h'
  obtain rfl := Option.some.inj (hf.symm.trans hf')
  obtain rfl : b = b' := by simpa using (show fn.blocks = [b] from hb).symm.trans hb'
  exact ⟨rfl, Option.some.inj (he.symm.trans he')⟩

theorem HasBody.code {m : Module} {c : Meaning.Code} {e : Terminator} (h : HasBody m f c e) :
    codeOf m f = c := by
  obtain ⟨fn, b, hf, hb, rfl, -⟩ := h
  exact codeOf_body hf hb

theorem HasBody.terminator {m : Module} {c : Meaning.Code} {e : Terminator} (h : HasBody m f c e) :
    endOf m f = some e := by
  obtain ⟨fn, b, hf, hb, -, he⟩ := h
  exact (endOf_body hf hb).trans he

theorem exists_hasBody (hs : s.Sound) (hf : s.cursor.func = f) (hended : Ended s.module f) :
    ∃ e, HasBody s.module f (codeOf s.module f) e := by
  obtain ⟨fn, b, hfn, hb⟩ := hs.place.body
  rw [hs.frame_func, hf] at hfn
  obtain ⟨fn', hfn', hterm⟩ := hended
  obtain rfl := Option.some.inj (hfn.symm.trans hfn')
  have hsome :
      b.term?.isSome =
      true := by simpa [Func.isTerminated, show fn.blocks = [b] from hb] using hterm
  obtain ⟨e, he⟩ := Option.isSome_iff_exists.1 hsome
  exact ⟨e, fn, b, hfn, hb, (codeOf_body hfn hb).symm, he⟩

end

end CheckedIR.Lowering

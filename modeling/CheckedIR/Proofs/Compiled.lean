import CheckedIR.Proofs.Lowering.Compile

/-!
# Compiled modules

What holds of every module that compiling gives, and of every verdict for which it gives none. Every
function with a body is straight-line code in which values are made before they are used, although
emissions interrupt each other; so verification can only find a call with the wrong arguments or a
return of the wrong type.
-/

namespace CheckedIR.Ir

/-- Straight-line code: one block that ends, stack slots first, and every value is a parameter or
was made before. -/
def Func.IsStraightLine (f : FuncId) (fn : Func) : Prop :=
  ∃ b t, fn.blocks = [b] ∧ b.name = "entry" ∧ b.term? = some t ∧
    (∃ slots rest, b.insts = slots ++ rest ∧ (∀ i ∈ slots, i.op.isAlloca = true) ∧
      ∀ i ∈ rest, i.op.isAlloca = false) ∧
    (b.insts.map Inst.id).Nodup ∧
    (∀ before i after, b.insts = before ++ i :: after →
      ∀ v ∈ i.op.operands, v.IsAtHand f fn.paramTypes (before.map Inst.id)) ∧
    ∀ v ∈ t.operands, v.IsAtHand f fn.paramTypes (b.insts.map Inst.id)

theorem Block.ids_eq (b : Block) : b.ids = b.insts.map Inst.id := by
  simp [Block.ids, Block.code, Inst.core, Function.comp_def]

theorem Block.Sound.insts_slots {m : Module} {f : FuncId} {params : List Ty} {b : Block}
    (h : b.Sound m f params) :
    ∃ slots rest, b.insts = slots ++ rest ∧ (∀ i ∈ slots, i.op.isAlloca = true) ∧
      ∀ i ∈ rest, i.op.isAlloca = false := by
  obtain ⟨slots, rest, he, hs, hr⟩ := h.slots
  obtain ⟨slots', rest', hi, rfl, rfl⟩ := List.map_eq_append_iff.1 he
  exact ⟨slots', rest', hi, fun i hi => hs _ (List.mem_map_of_mem hi),
    fun i hi => hr _ (List.mem_map_of_mem hi)⟩

theorem Func.Sound.isStraightLine {m : Module} {f : FuncId} {fn : Func} (h : fn.Sound m f)
    (hended : fn.isTerminated = true) (hblocks : fn.blocks ≠ []) : fn.IsStraightLine f := by
  rcases h.blocks with hnil | ⟨b, hb, hs⟩
  · exact absurd hnil hblocks
  have hsome :
      b.term?.isSome := List.all_eq_true.1 hended b (by simp [show fn.blocks = [b] from hb])
  obtain ⟨t, ht⟩ := Option.isSome_iff_exists.1 hsome
  refine ⟨b, t, hb, hs.name, ht, hs.insts_slots, b.ids_eq ▸ hs.nodup, ?_, b.ids_eq ▸ hs.ending t ht⟩
  intro before i after he v hv
  have hcode : b.code = before.map Inst.core ++ i.core :: after.map Inst.core := by
    rw [Block.code, he, List.map_append, List.map_cons]
  have hids : (before.map Inst.core).map Prod.fst = before.map Inst.id := by
    simp [Inst.core, Function.comp_def]
  exact hids ▸ hs.atHand _ _ _ hcode v hv

end CheckedIR.Ir

namespace CheckedIR.Lowering

open CheckedIR.Ir CheckedIR.Program

/-! ## Straight-line code -/

/-- **Compiled functions are straight-line.** -/
theorem compiled_straightLine {p : Program} {o : Options} {s : State} (h : Compiles p o s)
    {f : FuncId} {fn : Func}
    (hf : s.module.func? f = some fn) (hblocks : fn.blocks ≠ []) : fn.IsStraightLine f :=
  (h.sound.funcs f fn hf).isStraightLine (h.allEnded f fn hf) hblocks

/-- A program of one file that declares function `f` of one parameter `a`, with the given body and
result, and binds the constant `x` to the answer of a call. -/
def callingProgram (returns : TypeId) (body : List Stmt) : Program :=
  let f : SymbolId := ⟨"f"⟩
  let decl : Stmt :=
    .function { NodeInfo.blank with declares? := some f, returns? := some returns } "f"
      [⟨.blank, "a", false⟩] (some (.mk .blank body))
  let call : Expr :=
    .call .blank (.ident { NodeInfo.blank with symbol? := some f } "f") [.numeric .blank .zero]
  ⟨[⟨.blank, "sample", [decl, .variableDecl .blank true [⟨.blank, "x", some call⟩]]⟩], intrinsics,
    [(f, ⟨"f", [.func]⟩)]⟩

def slotBody : List Stmt :=
  [.variableDecl .blank false [⟨.blank, "b", some (.ident .blank "a")⟩],
    .ret .blank (some (.ident .blank "b"))]

def defaultOptions : Options := ⟨"", "", "", ""⟩

theorem straightLine_slotBody :
    ∃ s fn, Compiles (callingProgram numberType slotBody) defaultOptions s ∧
    s.module.func? 1 = some fn ∧ fn.blocks ≠ [] ∧ fn.IsStraightLine 1 := by
  have hs := compiles_finalState (p := callingProgram numberType slotBody) (o := defaultOptions)
    (by decide +kernel)
  have hblocks :
      ((finalState (callingProgram numberType slotBody) defaultOptions).module.func? 1).any
      (! ·.blocks.isEmpty) = true := by decide +kernel
  obtain ⟨fn, hf, hne⟩ := (Option.any_eq_true _ _).1 hblocks
  have hne' : fn.blocks ≠ [] := by simpa using hne
  exact ⟨_, fn, hs, hf, hne', compiled_straightLine hs hf hne'⟩

/-! ## Verdicts -/

/-- **Verification finds mismatches only.** When compiling fails because a function or the module
does not verify, the reason is a call with the wrong number or types of arguments or a return of the
wrong type; no block lacks its end, and nothing else is wrong with the operands of an instruction.
-/
theorem verdict_mismatch {p : Program} {o : Options} {f : Fault} {s : State}
    (h : CompileFails p o f s) :
    (∀ name reason, f.cause? = some (.invalidFunction name reason) → Mismatch s.module reason) ∧
    ∀ reason, f.cause? = some (.invalidModule reason) →
      ∃ name text, reason = name ++ ": " ++ text ∧ Mismatch s.module text :=
  ⟨h.verdict.function, h.verdict.module⟩

theorem verdict_mismatch_ret :
    ∃ f s reason, CompileFails (callingProgram voidType slotBody) defaultOptions f s ∧
    f.cause? = some (.invalidFunction "f" reason) ∧ Mismatch s.module reason := by
  obtain ⟨f, s, hf, hc⟩ :=
    exists_compileFails (p := callingProgram voidType slotBody) (o := defaultOptions)
      (c := .invalidFunction "f" "block %entry: ret double in void function") (by decide +kernel)
  exact ⟨f, s, _, hf, hc, (verdict_mismatch hf).1 _ _ hc⟩

end CheckedIR.Lowering

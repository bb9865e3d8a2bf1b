import CheckedIR.Ir.Printing
import CheckedIR.Proofs.Ir.Numbered
import CheckedIR.Proofs.Program.Acyclic

/-!
# Modules that can be written

A module has a text if nothing in it has a number yet, every block has ended, every callee is a
function and no truth value is strange. Numbering keeps all of that but the numbers.
-/

namespace CheckedIR.Ir

open CheckedIR.Program (exists_mapM)

def Const.IsWritable : Const → Prop
  | .int bits i => bits = 1 → i = 0 ∨ i = 1
  | _ => True

def Value.IsWritable : Value → Prop
  | .const c => c.IsWritable
  | _ => True

structure Op.IsWritable (op : Op) : Prop where
  operands : ∀ v ∈ op.operands, v.IsWritable
  callee : ∀ callee args, op = .call callee args → ∃ signature, callee.signature? = some signature

def Terminator.IsWritable (t : Terminator) : Prop := ∀ v ∈ t.operands, v.IsWritable

structure Block.IsTidy (b : Block) : Prop where
  number : b.number = 0
  insts : ∀ i ∈ b.insts, i.number = 0 ∧ i.op.IsWritable
  ending : ∀ t, b.term? = some t → t.IsWritable

structure Func.IsTidy (fn : Func) : Prop where
  params : ∀ q ∈ fn.params, q.number = 0
  blocks : ∀ b ∈ fn.blocks, b.IsTidy

def Module.IsTidy (m : Module) : Prop := ∀ fn ∈ m.funcs, fn.number = 0 ∧ fn.IsTidy

/-! ## Texts -/

theorem exists_intText {bits : Nat} {i : Int} (h : bits = 1 → i = 0 ∨ i = 1) :
    ∃ text, intText bits i = some text := by
  unfold intText
  split
  · rename_i hbits
    rcases h hbits with rfl | rfl <;> simp
  · split <;> exact ⟨_, rfl⟩

theorem Const.IsWritable.exists_ident {c : Const} (h : c.IsWritable) (global : GlobalId → String) :
    ∃ text, c.identWith global = some text := by
  cases c with
  | int bits i => exact exists_intText h
  | text r g length =>
    obtain ⟨text, ht⟩ : ∃ text, intText 32 length = some text :=
      exists_intText fun h => absurd h (by decide)
    exact ⟨_, by simp only [Const.identWith, ht]; rfl⟩
  | _ => exact ⟨_, rfl⟩

namespace Module

variable {m : Module}

theorem exists_ident {v : Value} (h : v.IsWritable) : ∃ text, m.ident v = some text := by
  cases v with
  | const c => exact Const.IsWritable.exists_ident h _
  | _ => exact ⟨_, rfl⟩

theorem exists_valueText {v : Value} (h : v.IsWritable) : ∃ text, m.valueText v = some text := by
  obtain ⟨text, ht⟩ := m.exists_ident h
  exact ⟨_, by simp only [valueText, ht]; rfl⟩

theorem exists_opText {op : Op} (h : op.IsWritable) : ∃ text, m.opText op = some text := by
  have text {v : Value} (hv : v ∈ op.operands) : ∃ text, m.valueText v = some text :=
    m.exists_valueText (h.operands v hv)
  have name {v : Value} (hv : v ∈ op.operands) :
      ∃ text, m.ident v = some text := m.exists_ident (h.operands v hv)
  cases op with
  | alloca t => exact ⟨_, rfl⟩
  | store v a =>
    obtain ⟨x, hx⟩ := text (v := v) (by simp [Op.operands])
    obtain ⟨y, hy⟩ := text (v := a) (by simp [Op.operands])
    exact ⟨_, by simp only [opText, hx, hy]; rfl⟩
  | load _ x | bitcast x _ | extract x _ | toFloat x _ =>
    obtain ⟨x, hx⟩ := text (v := x) (by simp [Op.operands])
    exact ⟨_, by simp only [opText, hx]; rfl⟩
  | field t x i =>
    obtain ⟨x, hx⟩ := text (v := x) (by simp [Op.operands])
    obtain ⟨y, hy⟩ : ∃ text, intText 32 i = some text :=
      exists_intText fun h => absurd h (by decide)
    exact ⟨_, by simp only [opText, hx, hy]; rfl⟩
  | arith _ x y | compare _ x y =>
    obtain ⟨x, hx⟩ := text (v := x) (by simp [Op.operands])
    obtain ⟨y, hy⟩ := name (v := y) (by simp [Op.operands])
    exact ⟨_, by simp only [opText, hx, hy]; rfl⟩
  | call callee args =>
    obtain ⟨⟨returns, params, isVariadic⟩, hsignature⟩ := h.callee callee args rfl
    obtain ⟨name, hname⟩ := name (v := callee) List.mem_cons_self
    obtain ⟨texts, htexts⟩ := exists_mapM (f := m.valueText) (l := args) fun v hv =>
      text (List.mem_cons_of_mem _ hv)
    exact ⟨_, by simp only [opText, hsignature, hname, htexts]; rfl⟩

theorem exists_termText {t : Terminator} (h : t.IsWritable) : ∃ text, m.termText t = some text := by
  cases t with
  | unreachable => exact ⟨_, rfl⟩
  | ret v =>
    cases v with
    | none => exact ⟨_, rfl⟩
    | some v =>
      obtain ⟨x, hx⟩ := m.exists_valueText (h v List.mem_cons_self)
      exact ⟨_, by simp only [termText, hx]; rfl⟩

end Module

structure Block.IsWritable (b : Block) : Prop where
  code : ∀ c ∈ b.code, c.2.IsWritable
  ending : ∃ t, b.term? = some t ∧ t.IsWritable

theorem Block.IsTidy.writable {b : Block} (h : b.IsTidy) (ht : b.term?.isSome) : b.IsWritable where
  code c hc := by
    obtain ⟨i, hi, rfl⟩ := List.mem_map.1 hc
    exact (h.insts i hi).2
  ending := by
    obtain ⟨t, ht⟩ := Option.isSome_iff_exists.1 ht
    exact ⟨t, ht, h.ending t ht⟩

theorem Block.IsWritable.of_outline {b b' : Block} (h : b.IsWritable)
    (ho : b'.outline = b.outline) : b'.IsWritable := by
  obtain ⟨-, hc, ht⟩ : b'.name = b.name ∧ b'.code = b.code ∧
    b'.term? = b.term? := by simpa [outline] using ho
  exact ⟨hc ▸ h.code, ht ▸ h.ending⟩

def Func.IsWritable (fn : Func) : Prop := ∀ b ∈ fn.blocks, b.IsWritable

theorem Func.IsTidy.writable {fn : Func} (h : fn.IsTidy) (ht : fn.isTerminated = true) :
    fn.IsWritable :=
  fun b hb => (h.blocks b hb).writable (List.all_eq_true.1 ht b hb)

theorem Func.IsWritable.of_unnumbered {fn fn' : Func} (h : fn.IsWritable)
    (hu : fn'.unnumbered = fn.unnumbered) : fn'.IsWritable := by
  have ho : fn'.blocks.map Block.outline = fn.blocks.map Block.outline := congrArg (·.1.2.2) hu
  intro b' hb'
  have hmem : b'.outline ∈ fn.blocks.map Block.outline := ho ▸ List.mem_map_of_mem hb'
  obtain ⟨b, hb, hout⟩ := List.mem_map.1 hmem
  exact (h b hb).of_outline hout.symm

namespace Module

variable {m : Module}

theorem exists_blockText {b : Block} (h : b.IsWritable) : ∃ text, m.blockText b = some text := by
  obtain ⟨t, ht, hwritable⟩ := h.ending
  obtain ⟨term, hterm⟩ := m.exists_termText hwritable
  have inst {i : Inst} (hi : i ∈ b.insts) :
      ∃ text, (do return "\t" ++ (← m.instText i) ++ "\n") = some text := by
    obtain ⟨text, htext⟩ := m.exists_opText (h.code _ (List.mem_map_of_mem (f := Inst.core) hi))
    exact ⟨_, by simp only [instText, Inst.core] at htext ⊢; rw [htext]; rfl⟩
  obtain ⟨insts, hinsts⟩ := exists_mapM fun i hi => inst hi
  refine ⟨spelled b.name b.number ++ ":\n" ++ String.join insts ++ "\t" ++ term, ?_⟩
  unfold blockText
  rw [hinsts, ht]
  change (m.termText t).bind _ = _
  rw [hterm]
  rfl

theorem exists_funcText {fn : Func} (h : fn.IsWritable) : ∃ text, m.funcText fn = some text := by
  obtain ⟨blocks, hblocks⟩ := exists_mapM fun b hb => m.exists_blockText (h b hb)
  unfold funcText
  dsimp only
  split
  · exact ⟨_, rfl⟩
  · exact ⟨_, by rw [hblocks]; rfl⟩

end Module

/-! ## Numbers -/

namespace Numbers

def Succeeds {α : Type} (x : Numbers α) : Prop := ∀ n, ∃ r, x.run n = some r

variable {α β : Type} {x : Numbers α}

theorem Succeeds.pure {a : α} : Succeeds (pure a) := fun n => ⟨(a, n), rfl⟩

theorem Succeeds.bind {f : α → Numbers β} (h : Succeeds x) (hf : ∀ a, Succeeds (f a)) :
    Succeeds (x >>= f) := by
  intro n
  obtain ⟨⟨a, n'⟩, hx⟩ := h n
  obtain ⟨r, hr⟩ := hf a n'
  exact ⟨r, by rw [StateT.run_bind, hx]; exact hr⟩

theorem Succeeds.mapM {f : α → Numbers β} {as : List α} (h : ∀ a ∈ as, Succeeds (f a)) :
    Succeeds (as.mapM f) := by
  induction as with
  | nil => exact .pure
  | cons a as ih =>
    rw [List.mapM_cons]
    exact (h a List.mem_cons_self).bind fun _ =>
      (ih fun b hb => h b (List.mem_cons_of_mem a hb)).bind fun _ => .pure

end Numbers

open Numbers (Succeeds)

theorem takeNumber_succeeds {name : String} {number : Nat} (h : number = 0) :
    Succeeds (takeNumber name number) := by
  subst h
  intro n
  unfold takeNumber
  split
  · exact ⟨(n, n + 1), rfl⟩
  · exact ⟨(0, n), rfl⟩

theorem Inst.numbered_succeeds {i : Inst} (hn : i.number = 0) (hw : i.op.IsWritable) :
    Succeeds i.numbered := by
  unfold numbered
  split
  · exact .pure
  · rename_i callee args hop
    obtain ⟨signature, hs⟩ := hw.callee callee args hop
    rw [hs]
    split
    · rename_i hnone
      cases hnone
    · exact .pure
    · exact (takeNumber_succeeds hn).bind fun _ => .pure
  · exact (takeNumber_succeeds hn).bind fun _ => .pure

theorem Block.IsTidy.numbered_succeeds {b : Block} (h : b.IsTidy) : Succeeds b.numbered := by
  refine (takeNumber_succeeds h.number).bind fun _ => .bind (.mapM fun i hi => ?_) fun _ => .pure
  exact Inst.numbered_succeeds (h.insts i hi).1 (h.insts i hi).2

theorem Func.IsTidy.exists_numbered {fn : Func} (h : fn.IsTidy) :
    ∃ fn', fn.numbered = some fn' := by
  unfold Func.numbered
  split
  · exact ⟨fn, rfl⟩
  · have hsucceeds : Succeeds (do
        let params ← fn.params.mapM fun p =>
            return { p with number := ← takeNumber p.name p.number }
        return { fn with params, blocks := ← fn.blocks.mapM Block.numbered }) :=
      .bind (.mapM fun q hq => (takeNumber_succeeds (h.params q hq)).bind fun _ => .pure) fun _ =>
        .bind (.mapM fun b hb => (h.blocks b hb).numbered_succeeds) fun _ => .pure
    obtain ⟨⟨fn', n⟩, hr⟩ := hsucceeds 0
    exact ⟨fn', by simp only [hr]; rfl⟩

namespace Module

variable {m : Module}

theorem inside_of_named {fns fns' : List Func} {n n' : Nat}
    (h : (fns.mapM fun f => return { f with number := ← takeNumber f.name f.number } : Numbers
      (List Func)).run n = some (fns', n')) :
    fns'.map (fun fn => (fn.params, fn.blocks)) = fns.map fun fn => (fn.params, fn.blocks) := by
  refine Numbers.mapM_keeps (fun fn i fn' i' hf => ?_) h
  simp only [StateT.run_bind, StateT.run_pure, Option.bind_eq_bind, Option.bind_eq_some_iff,
    Prod.exists] at hf
  obtain ⟨j, j', -, hf⟩ := hf
  obtain ⟨rfl, -⟩ : { fn with number := j } = fn' ∧ j' = i' := by simpa using hf
  rfl

theorem IsTidy.exists_numbered (h : m.IsTidy) : ∃ m', m.numbered = some m' := by
  let named : Numbers (List Func) :=
    m.funcs.mapM fun f => return { f with number := ← takeNumber f.name f.number }
  have hsucceeds :
      Succeeds named := .mapM fun fn hfn => (takeNumber_succeeds (h fn hfn).1).bind fun _ => .pure
  obtain ⟨⟨fns, n⟩, hr⟩ := hsucceeds 0
  have htidy {fn : Func} (hfn : fn ∈ fns) : fn.IsTidy := by
    have hmem : (fn.params, fn.blocks) ∈ m.funcs.map fun fn => (fn.params, fn.blocks) :=
      inside_of_named hr ▸ List.mem_map_of_mem hfn
    obtain ⟨old, hold, he⟩ := List.mem_map.1 hmem
    obtain ⟨hparams, hblocks⟩ := Prod.mk.inj he
    exact ⟨hparams ▸ (h old hold).2.params, hblocks ▸ (h old hold).2.blocks⟩
  obtain ⟨fns', hfns'⟩ := exists_mapM fun fn hfn => (htidy hfn).exists_numbered
  exact ⟨{ m with funcs := fns' }, by simp only [numbered, named] at hr ⊢; rw [hr]; simp [hfns']⟩

/-- **Finished modules can be written.** -/
theorem IsTidy.exists_print (h : m.IsTidy) (hended : ∀ fn ∈ m.funcs, fn.isTerminated = true) :
    ∃ shown, m.print = some shown := by
  obtain ⟨m', hm'⟩ := h.exists_numbered
  have hfuncs := (eqUpToNumbers_numbered hm').funcs
  obtain ⟨texts, htexts⟩ :=
    exists_mapM (f := fun fn => return (← m'.funcText fn) ++ "\n") (l := m'.funcs)
      fun fn' hfn' => by
      obtain ⟨fn, hfn, hu⟩ :=
        List.mem_map.1 (hfuncs ▸ List.mem_map_of_mem hfn' : fn'.unnumbered ∈
          m.funcs.map Func.unnumbered)
      obtain ⟨text, ht⟩ :=
        m'.exists_funcText (((h fn hfn).2.writable (hended fn hfn)).of_unnumbered hu.symm)
      exact ⟨_, by rw [ht]; rfl⟩
  have hwritten :
      ∃ text, m'.numberedText = some text := ⟨_, by unfold numberedText; rw [htexts]; rfl⟩
  obtain ⟨text, ht⟩ := hwritten
  exact ⟨(text, m'), by unfold print; rw [hm']; simp [ht]⟩

theorem IsTidy.exists_printFunc (h : m.IsTidy) {f : FuncId} {fn : Func} (hf : m.func? f = some fn)
    (hended : fn.isTerminated = true) : ∃ shown, m.printFunc f = some shown := by
  have hfn := (h fn (List.mem_of_getElem? hf)).2
  obtain ⟨fn', hn⟩ := hfn.exists_numbered
  obtain ⟨text, ht⟩ := (m.modifyFunc f fun _ => fn').exists_funcText
    ((hfn.writable hended).of_unnumbered (Func.unnumbered_numbered hn))
  exact ⟨(text, m.modifyFunc f fun _ => fn'), by unfold printFunc; rw [hf]; simp [hn, ht]⟩

end Module

end CheckedIR.Ir

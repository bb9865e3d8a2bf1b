import CheckedIR.Ir.Verification

/-!
# Growing modules

While a module is built, functions get instructions and records get fields, but nothing is taken
away. A value that a module knows stays known in every module that it grows into. The type of a
value is plain: it is a scalar, a pointer, or a record with a name.
-/

namespace CheckedIR.Ir

def Op.isAlloca : Op → Bool
  | .alloca _ => true
  | _ => false

def Op.isCall : Op → Bool
  | .call .. => true
  | _ => false

def Inst.core (i : Inst) : InstId × Op := (i.id, i.op)

def Block.code (b : Block) : List (InstId × Op) := b.insts.map Inst.core

def Block.ids (b : Block) : List InstId := b.code.map Prod.fst

def Func.paramTypes (fn : Func) : List Ty := fn.params.map Param.type

def Func.IsBody (fn : Func) (b : Block) : Prop := fn.blocks = [b]

theorem Func.insts_of_body {fn : Func} {b : Block} (h : fn.IsBody b) : fn.insts = b.insts := by
  unfold Func.insts
  rw [h]
  simp

theorem Func.insts_of_blocks_nil {fn : Func} (h : fn.blocks = []) : fn.insts = [] := by
  unfold Func.insts
  rw [h]
  rfl

/-! ## Plain types -/

namespace Ty

def IsHeld (rs : Records) : Ty → Prop
  | .pointer t => t.IsHeld rs
  | .record r => r < rs.length
  | _ => True

/-- The types that values have. Only records with a name are passed as they are. -/
def IsPlain (rs : Records) : Ty → Prop
  | .void | .int _ | .float _ => True
  | .record r => ∃ rec, rs[r]? = some rec ∧ rec.name ≠ ""
  | .pointer t => t.IsHeld rs
  | _ => False

def IsField (rs : Records) : Ty → Prop
  | .pointer (.record r) => r < rs.length
  | .pointer (.int 8) => True
  | .pointer _ => False
  | t => t.IsPlain rs

theorem IsField.plain {rs : Records} {t : Ty} (h : t.IsField rs) : t.IsPlain rs := by
  unfold IsField at h
  split at h
  · exact h
  · trivial
  · exact h.elim
  · exact h

theorem IsPlain.held {rs : Records} {t : Ty} (h : t.IsPlain rs) : t.IsHeld rs := by
  cases t with
  | record r =>
    obtain ⟨rec, hr, -⟩ := h
    exact (List.getElem?_eq_some_iff.mp hr).1
  | pointer t => exact h
  | _ => trivial

theorem IsPlain.pointer {rs : Records} {t : Ty} (h : t.IsPlain rs) : (Ty.pointer t).IsPlain rs :=
  h.held

end Ty

/-! ## Growth -/

structure Record.Grows (rec rec' : Record) : Prop where
  name : rec'.name = rec.name
  isPacked : rec'.isPacked = rec.isPacked
  isOpaque : rec'.isOpaque = rec.isOpaque
  fields : ∃ more, rec'.fields = rec.fields ++ more

theorem Record.Grows.refl (rec : Record) : rec.Grows rec := ⟨rfl, rfl, rfl, [], by simp⟩

theorem Record.Grows.trans {rec rec' rec'' : Record} (h : rec.Grows rec') (h' : rec'.Grows rec'') :
    rec.Grows rec'' := by
  obtain ⟨more, hf⟩ := h.fields
  obtain ⟨more', hf'⟩ := h'.fields
  refine ⟨h'.name.trans h.name, h'.isPacked.trans h.isPacked, h'.isOpaque.trans h.isOpaque,
    more ++ more', ?_⟩
  rw [hf', hf, List.append_assoc]

def Records.Grow (rs rs' : Records) : Prop :=
  ∀ (r : RecordId) (rec : Record), rs[r]? = some rec → ∃ rec', rs'[r]? = some rec' ∧ rec.Grows rec'

namespace Records.Grow

theorem refl (rs : Records) : rs.Grow rs := fun _ rec h => ⟨rec, h, .refl rec⟩

theorem trans {rs rs' rs'' : Records} (h : rs.Grow rs') (h' : rs'.Grow rs'') : rs.Grow rs'' := by
  intro r rec hr
  obtain ⟨rec', hr', hg⟩ := h r rec hr
  obtain ⟨rec'', hr'', hg'⟩ := h' r rec' hr'
  exact ⟨rec'', hr'', hg.trans hg'⟩

theorem append (rs more : Records) : rs.Grow (rs ++ more) := by
  intro r rec hr
  have hlt := (List.getElem?_eq_some_iff.mp hr).1
  exact ⟨rec, by rw [List.getElem?_append_left hlt, hr], .refl rec⟩

theorem addField (rs : Records) (r : RecordId) (t : Ty) :
    rs.Grow (rs.modify r fun rec => { rec with fields := rec.fields ++ [t] }) := by
  intro q rec hq
  rw [List.getElem?_modify, hq]
  by_cases h : r = q
  · refine ⟨{ rec with fields := rec.fields ++ [t] }, by simp [h], rfl, rfl, rfl, [t], rfl⟩
  · exact ⟨rec, by simp [h], .refl rec⟩

theorem length_le {rs rs' : Records} (h : rs.Grow rs') : rs.length ≤ rs'.length := by
  rcases Nat.lt_or_ge rs'.length rs.length with hlt | hle
  · obtain ⟨rec', hr, -⟩ := h rs'.length _ (List.getElem?_eq_getElem hlt)
    simp at hr
  · exact hle

theorem held {rs rs' : Records} (h : rs.Grow rs') {t : Ty} : t.IsHeld rs → t.IsHeld rs' := by
  fun_induction Ty.IsHeld rs t with
  | case1 t ih => exact ih
  | case2 r => exact fun hr => Nat.lt_of_lt_of_le hr h.length_le
  | case3 t hp hr => intro; cases t <;> simp_all [Ty.IsHeld]

theorem plain {rs rs' : Records} (h : rs.Grow rs') {t : Ty} (ht : t.IsPlain rs) :
    t.IsPlain rs' := by
  cases t with
  | record r =>
    obtain ⟨rec, hr, hn⟩ := ht
    obtain ⟨rec', hr', hg⟩ := h _ rec hr
    exact ⟨rec', hr', hg.name ▸ hn⟩
  | pointer t => exact h.held ht
  | void | int | float => trivial
  | _ => exact ht.elim

theorem field {rs rs' : Records} (h : rs.Grow rs') {t : Ty} (ht : t.IsField rs) :
    t.IsField rs' := by
  unfold Ty.IsField at *
  split at ht
  · exact Nat.lt_of_lt_of_le ht h.length_le
  · trivial
  · exact ht.elim
  · exact h.plain ht

end Records.Grow

structure Func.Grows (fn fn' : Func) : Prop where
  name : fn'.name = fn.name
  signature : fn'.signature = fn.signature
  body : ∀ b, fn.IsBody b → ∃ b', fn'.IsBody b'
  core : ∀ i ∈ fn.insts, ∃ j ∈ fn'.insts, j.core = i.core

namespace Func.Grows

theorem refl (fn : Func) : fn.Grows fn := ⟨rfl, rfl, fun b hb => ⟨b, hb⟩, fun i hi => ⟨i, hi, rfl⟩⟩

theorem trans {fn fn' fn'' : Func} (h : fn.Grows fn') (h' : fn'.Grows fn'') : fn.Grows fn'' where
  name := h'.name.trans h.name
  signature := h'.signature.trans h.signature
  body b hb := by
    obtain ⟨b', hb'⟩ := h.body b hb
    exact h'.body b' hb'
  core i hi := by
    obtain ⟨j, hj, he⟩ := h.core i hi
    obtain ⟨k, hk, he'⟩ := h'.core j hj
    exact ⟨k, hk, he'.trans he⟩

theorem paramTypes {fn fn' : Func} (h : fn.Grows fn') : fn'.paramTypes = fn.paramTypes := by
  have := h.signature
  unfold Func.signature at this
  injection this

theorem returns {fn fn' : Func} (h : fn.Grows fn') : fn'.returns = fn.returns := by
  have := h.signature
  unfold Func.signature at this
  injection this

end Func.Grows

structure Module.Grows (m m' : Module) : Prop where
  funcs : ∀ f fn, m.func? f = some fn → ∃ fn', m'.func? f = some fn' ∧ fn.Grows fn'
  records : m.records.Grow m'.records

namespace Module.Grows

theorem refl (m : Module) : m.Grows m := ⟨fun _ fn h => ⟨fn, h, .refl fn⟩, .refl _⟩

theorem trans {m m' m'' : Module} (h : m.Grows m') (h' : m'.Grows m'') : m.Grows m'' where
  funcs f fn hf := by
    obtain ⟨fn', hf', hg⟩ := h.funcs f fn hf
    obtain ⟨fn'', hf'', hg'⟩ := h'.funcs f fn' hf'
    exact ⟨fn'', hf'', hg.trans hg'⟩
  records := h.records.trans h'.records

theorem of_eq {m m' : Module} (hf : m'.funcs = m.funcs) (hr : m'.records = m.records) :
    m.Grows m' where
  funcs f fn h := ⟨fn, by unfold Module.func? at *; rwa [hf], .refl fn⟩
  records := hr ▸ .refl _

theorem length_le {m m' : Module} (h : m.Grows m') : m.funcs.length ≤ m'.funcs.length := by
  rcases Nat.lt_or_ge m'.funcs.length m.funcs.length with hlt | hle
  · obtain ⟨fn', hf, -⟩ := h.funcs m'.funcs.length _ (List.getElem?_eq_getElem hlt)
    simp [Module.func?] at hf
  · exact hle

end Module.Grows

/-! ## Known values -/

def Value.IsKnownIn (m : Module) : Value → Prop
  | .param f i t => ∃ fn, m.func? f = some fn ∧ fn.paramTypes[i]? = some t
  | .inst f i _ => ∃ fn, m.func? f = some fn ∧ ∃ j ∈ fn.insts, j.id = i
  | .func f t => ∃ fn, m.func? f = some fn ∧ t = .pointer fn.signature
  | .const _ => True

theorem Value.IsKnownIn.mono {m m' : Module} {v : Value} (h : m.Grows m') (hv : v.IsKnownIn m) :
    v.IsKnownIn m' := by
  cases v with
  | param f i t =>
    obtain ⟨fn, hf, ht⟩ := hv
    obtain ⟨fn', hf', hg⟩ := h.funcs f fn hf
    exact ⟨fn', hf', by rw [hg.paramTypes, ht]⟩
  | inst f i t =>
    obtain ⟨fn, hf, j, hj, rfl⟩ := hv
    obtain ⟨fn', hf', hg⟩ := h.funcs f fn hf
    obtain ⟨k, hk, he⟩ := hg.core j hj
    exact ⟨fn', hf', k, hk, congrArg Prod.fst he⟩
  | func f t =>
    obtain ⟨fn, hf, rfl⟩ := hv
    obtain ⟨fn', hf', hg⟩ := h.funcs f fn hf
    exact ⟨fn', hf', by rw [hg.signature]⟩
  | const c => trivial

structure Value.IsFit (m : Module) (v : Value) : Prop where
  known : v.IsKnownIn m
  plain : v.type.IsPlain m.records

theorem Value.IsFit.mono {m m' : Module} {v : Value} (h : m.Grows m') (hv : v.IsFit m) :
    v.IsFit m' :=
  ⟨hv.known.mono h, h.records.plain hv.plain⟩

end CheckedIR.Ir

import CheckedIR.Proofs.Ir.Matching

/-!
# Straight-line functions

A function under construction is declared or has one block. In the block the stack slots come first,
every result is made by one instruction, and what an instruction uses is a parameter or was made
before it. Loads, stores and calls fit the types of their operands for as long as the module grows.
-/

namespace CheckedIR.Ir

def Value.IsAtHand (f : FuncId) (params : List Ty) (ids : List InstId) : Value → Prop
  | .param g i t => g = f ∧ params[i]? = some t
  | .inst g i _ => g = f ∧ i ∈ ids
  | .func .. | .const _ => True

theorem Value.IsAtHand.mono {f : FuncId} {params : List Ty} {ids ids' : List InstId} {v : Value}
    (h : v.IsAtHand f params ids) (hsub : ids ⊆ ids') : v.IsAtHand f params ids' := by
  cases v with
  | inst g i t => exact ⟨h.1, hsub h.2⟩
  | _ => exact h

theorem Value.IsKnownIn.atHand {m : Module} {f : FuncId} {fn : Func} {b : Block} {v : Value}
    (hf : m.func? f = some fn) (hb : fn.IsBody b) (hk : v.IsKnownIn m)
    (hu : v.isUsableIn f = true) : v.IsAtHand f fn.paramTypes b.ids := by
  cases v with
  | param g i t =>
    obtain rfl : f = g := by simpa [Value.isUsableIn, Value.home?] using hu
    obtain ⟨fn', hf', ht⟩ := hk
    obtain rfl := Option.some.inj (hf.symm.trans hf')
    exact ⟨rfl, ht⟩
  | inst g i t =>
    obtain rfl : f = g := by simpa [Value.isUsableIn, Value.home?] using hu
    obtain ⟨fn', hf', j, hj, rfl⟩ := hk
    obtain rfl := Option.some.inj (hf.symm.trans hf')
    rw [Func.insts_of_body hb] at hj
    refine ⟨rfl, ?_⟩
    simp only [Block.ids, Block.code, List.map_map, List.mem_map]
    exact ⟨j, hj, rfl⟩
  | _ => trivial

/-- The operands of an instruction have fitting types. The arguments of calls are not meant. -/
def Op.IsTyped (m : Module) : Op → Prop
  | .load elem a => a.type = .pointer elem ∧ elem.IsPlain m.records
  | .store v a => ∃ elem, a.type = .pointer elem ∧ Ty.Alike m.records elem v.type
  | .call callee _ => ∃ g fn, callee = .func g (.pointer fn.signature) ∧ m.func? g = some fn
  | _ => True

theorem Op.IsTyped.mono {m m' : Module} {op : Op} (hg : m.Grows m') (h : op.IsTyped m) :
    op.IsTyped m' := by
  cases op with
  | load elem a => exact ⟨h.1, hg.records.plain h.2⟩
  | store v a =>
    obtain ⟨elem, ha, hm⟩ := h
    exact ⟨elem, ha, hm.mono hg.records⟩
  | call callee args =>
    obtain ⟨g, fn, rfl, hf⟩ := h
    obtain ⟨fn', hf', hg'⟩ := hg.funcs g fn hf
    exact ⟨g, fn', by rw [hg'.signature], hf'⟩
  | _ => trivial

/-! ## Blocks -/

structure Block.Sound (m : Module) (f : FuncId) (params : List Ty) (b : Block) : Prop where
  name : b.name = "entry"
  nodup : b.ids.Nodup
  below : ∀ i ∈ b.ids, i < b.insts.length
  slots : ∃ slots rest, b.code = slots ++ rest ∧ (∀ c ∈ slots, c.2.isAlloca = true) ∧
    ∀ c ∈ rest, c.2.isAlloca = false
  atHand : ∀ before c after, b.code = before ++ c :: after →
    ∀ v ∈ c.2.operands, v.IsAtHand f params (before.map Prod.fst)
  typed : ∀ c ∈ b.code, c.2.IsTyped m
  ending : ∀ t, b.term? = some t → ∀ v ∈ t.operands, v.IsAtHand f params b.ids

namespace Block

def outline (b : Block) : String × List (InstId × Op) × Option Terminator :=
  (b.name, b.code, b.term?)

theorem length_code (b : Block) : b.code.length = b.insts.length := List.length_map _

theorem sound_fresh (m : Module) (f : FuncId) (params : List Ty) :
    Sound m f params ⟨"entry", 0, [], none⟩ where
  name := rfl
  nodup := List.nodup_nil
  below i hi := absurd hi List.not_mem_nil
  slots := ⟨[], [], rfl, by simp, by simp⟩
  atHand before c after h := by cases before <;> cases h
  typed c hc := absurd hc List.not_mem_nil
  ending t ht := by cases ht

namespace Sound

variable {m : Module} {f : FuncId} {params : List Ty} {b : Block}

theorem mono {m' : Module} (h : b.Sound m f params) (hg : m.Grows m') : b.Sound m' f params :=
  { h with typed := fun c hc => (h.typed c hc).mono hg }

theorem of_outline {b' : Block} (h : b.Sound m f params) (ho : b'.outline = b.outline) :
    b'.Sound m f params := by
  obtain ⟨hn, hc, ht⟩ : b'.name = b.name ∧ b'.code = b.code ∧ b'.term? = b.term? := by
    simpa [outline] using ho
  have hids : b'.ids = b.ids := congrArg (List.map Prod.fst) hc
  have hlen : b'.insts.length = b.insts.length := by rw [← length_code, hc, length_code]
  exact {
    name := hn.trans h.name
    nodup := hids ▸ h.nodup
    below := hids ▸ hlen ▸ h.below
    slots := hc ▸ h.slots
    atHand := hc ▸ h.atHand
    typed := hc ▸ h.typed
    ending := ht ▸ hids ▸ h.ending }

theorem fresh (h : b.Sound m f params) : b.insts.length ∉ b.ids :=
  fun hm => Nat.lt_irrefl _ (h.below _ hm)

theorem append (h : b.Sound m f params) {op : Op} (hop : op.isAlloca = false) (ht : op.IsTyped m)
    (hv : ∀ v ∈ op.operands, v.IsAtHand f params b.ids) (hopen : b.term? = none) :
    Sound m f params { b with insts := b.insts ++ [⟨b.insts.length, "", 0, op⟩] } where
  name := h.name
  nodup := by
    simp only [ids, code, List.map_append, List.map_cons, List.map_nil, Inst.core]
    refine List.nodup_append.2 ⟨h.nodup, by simp, ?_⟩
    intro i hi j hj
    obtain rfl := List.mem_singleton.1 hj
    rintro rfl
    exact h.fresh hi
  below i hi := by
    simp only [ids, code, List.map_append, List.map_cons, List.map_nil, Inst.core, List.mem_append,
      List.mem_singleton, List.length_append, List.length_singleton] at hi ⊢
    rcases hi with hi | rfl
    · exact Nat.lt_succ_of_lt (h.below i hi)
    · exact Nat.lt_succ_self _
  slots := by
    obtain ⟨slots, rest, he, hs, hr⟩ := h.slots
    refine ⟨slots, rest ++ [(b.insts.length, op)], ?_, hs, ?_⟩
    · simp only [code, List.map_append, List.map_cons, List.map_nil, Inst.core] at he ⊢
      rw [he, List.append_assoc]
    · intro c hc
      rcases List.mem_append.1 hc with hc | hc
      · exact hr c hc
      · rw [List.mem_singleton.1 hc]
        exact hop
  atHand before c after he := by
    have he' : b.code ++ [(b.insts.length, op)] = before ++ c :: after := by
      simpa [code, Inst.core] using he
    rcases List.eq_nil_or_concat after with rfl | ⟨after', d, rfl⟩
    · obtain ⟨rfl, hc⟩ := List.append_inj' he' rfl
      obtain rfl : (b.insts.length, op) = c := by simpa using hc
      exact hv
    · have he'' : b.code ++ [(b.insts.length, op)] = (before ++ c :: after') ++ [d] := by
        simpa using he'
      exact h.atHand before c after' (List.append_inj' he'' rfl).1
  typed c hc := by
    have hc' : c ∈ b.code ++ [(b.insts.length, op)] := by simpa [code, Inst.core] using hc
    rcases List.mem_append.1 hc' with hc' | hc'
    · exact h.typed c hc'
    · rw [List.mem_singleton.1 hc']
      exact ht
  ending t ht := by simp [hopen] at ht

theorem slot (h : b.Sound m f params) (name : String) (t : Ty) :
    Sound m f params { b with insts := ⟨b.insts.length, name, 0, .alloca t⟩ :: b.insts } where
  name := h.name
  nodup := List.nodup_cons.2 ⟨h.fresh, h.nodup⟩
  below i hi := by
    rcases List.mem_cons.1 hi with rfl | hi
    · exact Nat.lt_succ_self _
    · exact Nat.lt_succ_of_lt (h.below i hi)
  slots := by
    obtain ⟨slots, rest, he, hs, hr⟩ := h.slots
    refine ⟨(b.insts.length, .alloca t) :: slots, rest, congrArg _ he, ?_, hr⟩
    intro c hc
    rcases List.mem_cons.1 hc with rfl | hc
    · rfl
    · exact hs c hc
  atHand before c after he v hv := by
    cases before with
    | nil =>
      obtain ⟨rfl, -⟩ := List.cons_eq_cons.1 he
      cases hv
    | cons d before =>
      exact (h.atHand before c after (List.cons_eq_cons.1 he).2 v hv).mono
        (List.subset_cons_self _ _)
  typed c hc := by
    rcases List.mem_cons.1 hc with rfl | hc
    · trivial
    · exact h.typed c hc
  ending t ht v hv := (h.ending t ht v hv).mono (List.subset_cons_self _ _)

theorem finish (h : b.Sound m f params) {t : Terminator}
    (hv : ∀ v ∈ t.operands, v.IsAtHand f params b.ids) :
    Sound m f params { b with term? := some t } :=
  { h with ending := fun t' ht' => by cases ht'; exact hv }

end Sound

end Block

/-! ## Functions -/

structure Func.Sound (m : Module) (f : FuncId) (fn : Func) : Prop where
  returns : fn.returns.IsPlain m.records
  params : ∀ t ∈ fn.paramTypes, t.IsPlain m.records
  blocks : fn.blocks = [] ∨ ∃ b, fn.IsBody b ∧ b.Sound m f fn.paramTypes

namespace Func

def outline (fn : Func) : String × Ty × List (String × List (InstId × Op) × Option Terminator) :=
  (fn.name, fn.signature, fn.blocks.map Block.outline)

theorem signature_inj {fn fn' : Func} (h : fn'.signature = fn.signature) :
    fn'.returns = fn.returns ∧ fn'.paramTypes = fn.paramTypes := by
  unfold Func.signature at h
  injection h with hr hp
  exact ⟨hr, hp⟩

theorem outline_eq {fn fn' : Func} (h : fn'.outline = fn.outline) :
    fn'.name = fn.name ∧ fn'.signature = fn.signature ∧
      fn'.blocks.map Block.outline = fn.blocks.map Block.outline := by
  simpa [outline] using h

theorem body_of_outline {fn fn' : Func} {b : Block} (h : fn'.outline = fn.outline)
    (hb : fn.IsBody b) : ∃ b', fn'.IsBody b' ∧ b'.outline = b.outline := by
  obtain ⟨-, -, hm⟩ := outline_eq h
  rw [hb] at hm
  obtain ⟨b', hb', ho⟩ := List.map_eq_singleton_iff.1 hm
  exact ⟨b', hb', ho⟩

theorem code_of_outline {fn fn' : Func} (h : fn'.outline = fn.outline) :
    fn'.insts.map Inst.core = fn.insts.map Inst.core := by
  obtain ⟨-, -, hm⟩ := outline_eq h
  have hcode (g : Func) :
      g.insts.map Inst.core = (g.blocks.map Block.outline).flatMap fun o => o.2.1 := by
    simp only [insts, List.map_flatMap, List.flatMap_map]
    rfl
  rw [hcode, hcode, hm]

theorem grows_of_outline {fn fn' : Func} (h : fn'.outline = fn.outline) : fn.Grows fn' where
  name := (outline_eq h).1
  signature := (outline_eq h).2.1
  body b hb := by
    obtain ⟨b', hb', -⟩ := body_of_outline h hb
    exact ⟨b', hb'⟩
  core i hi := by
    have : i.core ∈ fn'.insts.map Inst.core := by
      rw [code_of_outline h]
      exact List.mem_map_of_mem hi
    exact List.mem_map.1 this

namespace Sound

variable {m : Module} {f : FuncId} {fn : Func}

theorem mono {m' : Module} (h : fn.Sound m f) (hg : m.Grows m') : fn.Sound m' f where
  returns := hg.records.plain h.returns
  params t ht := hg.records.plain (h.params t ht)
  blocks := h.blocks.imp_right fun ⟨b, hb, hs⟩ => ⟨b, hb, hs.mono hg⟩

theorem of_outline {fn' : Func} (h : fn.Sound m f) (ho : fn'.outline = fn.outline) :
    fn'.Sound m f := by
  obtain ⟨-, hsig, hm⟩ := outline_eq ho
  obtain ⟨hr, hp⟩ := signature_inj hsig
  refine ⟨hr ▸ h.returns, hp ▸ h.params, ?_⟩
  rcases h.blocks with hb | ⟨b, hb, hs⟩
  · rw [hb] at hm
    exact .inl (List.map_eq_nil_iff.1 hm)
  · obtain ⟨b', hb', hob⟩ := body_of_outline ho hb
    exact .inr ⟨b', hb', hp ▸ hs.of_outline hob⟩

theorem body (h : fn.Sound m f) {b : Block} (hb : fn.IsBody b) : b.Sound m f fn.paramTypes := by
  rcases h.blocks with hn | ⟨b', hb', hs⟩
  · rw [hb] at hn
    cases hn
  · obtain rfl : b = b' := by simpa using hb.symm.trans hb'
    exact hs

end Sound

end Func

/-! ## Modules -/

namespace Module

def Sound (m : Module) : Prop := ∀ f fn, m.func? f = some fn → fn.Sound m f

def IsOpen (m : Module) (f : FuncId) : Prop := ∃ fn b, m.func? f = some fn ∧ fn.IsBody b ∧
    b.term? = none

variable {m m' : Module} {f : FuncId} {fn fn' : Func}

theorem func?_modifyFunc (f g : FuncId) (k : Func → Func) :
    (m.modifyFunc f k).func? g = if f = g then (m.func? g).map k else m.func? g := by
  simp only [func?, modifyFunc, List.getElem?_modify]
  split <;> simp

theorem func?_modifyFunc_self (k : Func → Func) (h : m.func? f = some fn) :
    (m.modifyFunc f k).func? f = some (k fn) := by
  rw [func?_modifyFunc, if_pos rfl, h]
  rfl

theorem func?_modifyFunc_of_ne {g : FuncId} (k : Func → Func) (h : f ≠ g) :
    (m.modifyFunc f k).func? g = m.func? g := by
  rw [func?_modifyFunc, if_neg h]

theorem length_modifyFunc (f : FuncId) (k : Func → Func) :
    (m.modifyFunc f k).funcs.length = m.funcs.length := List.length_modify _ _ _

theorem grows_modifyFunc {k : Func → Func} (h : m.func? f = some fn) (hg : fn.Grows (k fn)) :
    m.Grows (m.modifyFunc f k) where
  funcs g fn' hf := by
    by_cases he : f = g
    · subst he
      obtain rfl := Option.some.inj (h.symm.trans hf)
      exact ⟨k fn, func?_modifyFunc_self k h, hg⟩
    · exact ⟨fn', by rw [func?_modifyFunc_of_ne k he, hf], .refl fn'⟩
  records := .refl _

theorem Sound.modifyFunc {k : Func → Func} (hs : m.Sound) (h : m.func? f = some fn)
    (hg : fn.Grows (k fn)) (hk : (k fn).Sound m f) : (m.modifyFunc f k).Sound := by
  have hgrow := grows_modifyFunc h hg
  intro g fn' hf
  by_cases he : f = g
  · subst he
    obtain rfl := Option.some.inj ((func?_modifyFunc_self k h).symm.trans hf)
    exact hk.mono hgrow
  · rw [func?_modifyFunc_of_ne k he] at hf
    exact (hs g fn' hf).mono hgrow

theorem modifyFunc_congr {k k' : Func → Func} (h : m.func? f = some fn) (he : k fn = k' fn) :
    m.modifyFunc f k = m.modifyFunc f k' := by
  have : m.funcs.modify f k = m.funcs.modify f k' := by
    refine List.ext_getElem? fun g => ?_
    rw [List.getElem?_modify, List.getElem?_modify]
    by_cases hg : f = g
    · subst hg
      simp only [func?] at h
      simp [h, he]
    · simp [hg]
  simp only [modifyFunc, this]

def setBody (m : Module) (f : FuncId) (b : Block) : Module :=
  m.modifyFunc f fun g => { g with blocks := [b] }

theorem func?_setBody {b : Block} (h : m.func? f = some fn) :
    (m.setBody f b).func? f = some { fn with blocks := [b] } := func?_modifyFunc_self _ h

theorem func?_setBody_of_ne {g : FuncId} {b : Block} (h : f ≠ g) :
    (m.setBody f b).func? g = m.func? g :=
  func?_modifyFunc_of_ne _ h

theorem length_setBody (f : FuncId) (b : Block) : (m.setBody f b).funcs.length = m.funcs.length :=
  length_modifyFunc _ _

def IsExtension (fn : Func) (b : Block) : Prop := ∀ i ∈ fn.insts, ∃ j ∈ b.insts, j.core = i.core

theorem IsExtension.grows {b : Block} (h : IsExtension fn b) :
    fn.Grows { fn with blocks := [b] } where
  name := rfl
  signature := rfl
  body _ _ := ⟨b, rfl⟩
  core i hi := by
    obtain ⟨j, hj, he⟩ := h i hi
    have hb : Func.IsBody { fn with blocks := [b] } b := rfl
    exact ⟨j, by rwa [Func.insts_of_body hb], he⟩

theorem IsExtension.of_subset {b b' : Block} (hb : fn.IsBody b) (h : b.insts ⊆ b'.insts) :
    IsExtension fn b' :=
  fun i hi => ⟨i, h (Func.insts_of_body hb ▸ hi), rfl⟩

theorem IsExtension.ended {b : Block} (hb : fn.IsBody b) (t : Terminator) :
    IsExtension fn { b with term? := some t } :=
  .of_subset hb (List.Subset.refl _)

theorem Sound.setBody {b : Block} (hs : m.Sound) (hf : m.func? f = some fn) (he : IsExtension fn b)
    (hb : b.Sound m f fn.paramTypes) : (m.setBody f b).Sound :=
  have hfn := hs f fn hf
  hs.modifyFunc hf he.grows ⟨hfn.returns, hfn.params, .inr ⟨b, rfl, hb⟩⟩

theorem grows_append (more : List Func) : m.Grows { m with funcs := m.funcs ++ more } where
  funcs f fn hf := by
    refine ⟨fn, ?_, .refl fn⟩
    have hlt := (List.getElem?_eq_some_iff.1 hf).1
    simp only [func?] at hf ⊢
    rw [List.getElem?_append_left hlt, hf]
  records := .refl _

structure SameCode (m m' : Module) : Prop where
  records : m'.records = m.records
  funcs : m'.funcs.map Func.outline = m.funcs.map Func.outline

namespace SameCode

theorem func? (h : m.SameCode m') (hf : m.func? f = some fn) :
    ∃ fn', m'.func? f = some fn' ∧ fn'.outline = fn.outline := by
  have := congrArg (·[f]?) h.funcs
  simp only [List.getElem?_map] at this
  simp only [Module.func?] at hf ⊢
  rw [hf] at this
  exact Option.map_eq_some_iff.1 this

theorem symm (h : m.SameCode m') : m'.SameCode m := ⟨h.records.symm, h.funcs.symm⟩

theorem grows (h : m.SameCode m') : m.Grows m' where
  funcs f fn hf := by
    obtain ⟨fn', hf', ho⟩ := h.func? hf
    exact ⟨fn', hf', Func.grows_of_outline ho⟩
  records := h.records ▸ .refl _

theorem length_eq (h : m.SameCode m') : m'.funcs.length = m.funcs.length := by
  simpa using congrArg List.length h.funcs

theorem sound (h : m.SameCode m') (hs : m.Sound) : m'.Sound := by
  intro f fn' hf'
  obtain ⟨fn, hf, ho⟩ := h.symm.func? hf'
  exact ((hs f fn hf).mono h.grows).of_outline ho.symm

theorem isOpen (h : m.SameCode m') (ho : m.IsOpen f) : m'.IsOpen f := by
  obtain ⟨fn, b, hf, hb, ht⟩ := ho
  obtain ⟨fn', hf', hof⟩ := h.func? hf
  obtain ⟨b', hb', hob⟩ := Func.body_of_outline hof hb
  refine ⟨fn', b', hf', hb', ?_⟩
  have : b'.term? = b.term? := congrArg (·.2.2) hob
  rw [this, ht]

end SameCode

end Module

end CheckedIR.Ir

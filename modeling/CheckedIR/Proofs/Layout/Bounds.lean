import CheckedIR.Layout.Fields
import CheckedIR.Proofs.Layout.Extents
import Mathlib.Tactic.NormNum
import Mathlib.Tactic.Positivity

/-!
# Bounds of records

On the supported targets no field is larger than a string and none is aligned to more than eight
bytes. So a record of `n` fields takes at most `16 * n` bytes, and all its fields lie inside it,
unless there are so many that the sums of their sizes wrap around.
-/

namespace CheckedIR.Layout

open CheckedIR.Ir

/-! ## Alignment -/

theorem and_high_bits {x m : BitVec 64} {k : Nat} (hm : ∀ i : Fin 64, m[i.1] = !decide (i.1 < k)) :
    x &&& m = (x >>> k) <<< k := by
  ext i hi
  have := hm ⟨i, hi⟩
  simp only at this
  rw [BitVec.getElem_and, this, BitVec.getElem_shiftLeft]
  by_cases h : i < k
  · simp [h]
  · simp [h, Nat.add_sub_cancel' (Nat.le_of_not_lt h), BitVec.getLsbD_eq_getElem hi]

theorem toNat_and_high_bits {x m : BitVec 64} {k : Nat}
    (hm : ∀ i : Fin 64, m[i.1] = !decide (i.1 < k)) :
    (x &&& m).toNat = x.toNat / 2 ^ k * 2 ^ k := by
  rw [and_high_bits hm, BitVec.toNat_shiftLeft, BitVec.toNat_ushiftRight, Nat.shiftLeft_eq,
    Nat.shiftRight_eq_div_pow]
  have := x.isLt
  have h : x.toNat / 2 ^ k * 2 ^ k ≤ x.toNat := Nat.div_mul_le_self _ _
  exact Nat.mod_eq_of_lt (by omega)

theorem toNat_toBitVec {v : Int64} (h : 0 ≤ v.toInt) : (v.toBitVec.toNat : Int) = v.toInt := by
  have := v.toBitVec.isLt
  rw [Int64.toInt, BitVec.toInt_eq_toNat_cond] at h ⊢
  split at h <;> rename_i hlt
  · rw [if_pos hlt]
  · omega

theorem toNat_toBitVec_sub_one {a : Int64} (h : 0 < a.toInt) :
    (a.toBitVec - 1#64).toNat = a.toBitVec.toNat - 1 := by
  have ha := toNat_toBitVec (Int.le_of_lt h)
  have hlt := a.toBitVec.isLt
  rw [BitVec.toNat_sub, BitVec.toNat_ofNat]
  omega

theorem mask_bits {a : Int64} {k : Nat} (ha : a.toInt = 2 ^ k) (i : Fin 64) :
    (~~~(a.toBitVec - 1#64))[i.1] = !decide (i.1 < k) := by
  have hpos : 0 < a.toInt := by
    rw [ha]
    exact pow_pos (by decide) k
  have hnat : a.toBitVec.toNat = 2 ^ k := by
    have := toNat_toBitVec (Int.le_of_lt hpos)
    rw [ha] at this
    exact_mod_cast this
  rw [BitVec.getElem_not, BitVec.getElem_eq_testBit_toNat, toNat_toBitVec_sub_one hpos, hnat,
    Nat.testBit_two_pow_sub_one]

theorem alignUp_toInt {v a : Int64} {k : Nat} (ha : a.toInt = 2 ^ k) (hk : 0 < k) (hv : 0 ≤ v.toInt)
    (hlt : v.toInt + a.toInt ≤ 2 ^ 63) :
    (alignUp v a).toInt = (v.toInt + a.toInt - 1) / a.toInt * a.toInt := by
  have hone : 1 < a.toInt := by
    rw [ha]
    exact_mod_cast Nat.one_lt_two_pow (Nat.ne_of_gt hk)
  have hle : ¬a ≤ 1 := by
    rw [Int64.le_iff_toInt_le]
    exact Int.not_le.2 hone
  have hvn := toNat_toBitVec hv
  have han := toNat_toBitVec (v := a) (by omega)
  -- the mask clears what is left over of the sum, as division would
  have hbits :
      (alignUp v a).toBitVec = (v.toBitVec + a.toBitVec - 1#64) &&& ~~~(a.toBitVec - 1#64) := by
    rw [alignUp, if_neg hle]
    rfl
  have hsum : (v.toBitVec + a.toBitVec - 1#64).toNat = v.toBitVec.toNat + a.toBitVec.toNat - 1 := by
    rw [BitVec.toNat_sub, BitVec.toNat_add, BitVec.toNat_ofNat]
    omega
  have hnat : (alignUp v a).toBitVec.toNat =
      (v.toBitVec.toNat + a.toBitVec.toNat - 1) / a.toBitVec.toNat * a.toBitVec.toNat := by
    have hpow : 2 ^ k = a.toBitVec.toNat := by
      have : ((2 ^ k : Nat) : Int) = a.toBitVec.toNat := by rw [han, ha]; simp
      exact_mod_cast this
    rw [hbits, toNat_and_high_bits (mask_bits ha), hsum, hpow]
  have hround := Nat.div_mul_le_self (v.toBitVec.toNat + a.toBitVec.toNat - 1) a.toBitVec.toNat
  rw [Int64.toInt, BitVec.toInt_eq_toNat_of_lt (by omega), hnat, ← hvn, ← han]
  push_cast
  rw [Nat.cast_sub (by omega)]
  push_cast
  rfl

def IsAlignment (a : Int64) : Prop := a = 1 ∨ a = 2 ∨ a = 4 ∨ a = 8

theorem alignUp_bounds {v a : Int64} (ha : IsAlignment a) (hv : 0 ≤ v.toInt)
    (hlt : v.toInt < 2 ^ 62) :
    v.toInt ≤ (alignUp v a).toInt ∧ ∀ n : Int, v.toInt ≤ 16 * n → (alignUp v a).toInt ≤ 16 * n := by
  rcases ha with rfl | rfl | rfl | rfl
  · exact ⟨Int.le_refl _, fun _ => id⟩
  · have h2 : (2 : Int64).toInt = 2 := by decide
    have := alignUp_toInt (v := v) (a := 2) (k := 1) (by decide) (by decide) hv (by omega)
    rw [this, h2]
    exact ⟨by omega, fun n hn => by omega⟩
  · have h4 : (4 : Int64).toInt = 4 := by decide
    have := alignUp_toInt (v := v) (a := 4) (k := 2) (by decide) (by decide) hv (by omega)
    rw [this, h4]
    exact ⟨by omega, fun n hn => by omega⟩
  · have h8 : (8 : Int64).toInt = 8 := by decide
    have := alignUp_toInt (v := v) (a := 8) (k := 3) (by decide) (by decide) hv (by omega)
    rw [this, h8]
    exact ⟨by omega, fun n hn => by omega⟩

theorem toInt_add {v w : Int64} (hv : 0 ≤ v.toInt) (hw : 0 ≤ w.toInt)
    (h : v.toInt + w.toInt < 2 ^ 63) : (v + w).toInt = v.toInt + w.toInt := by
  rw [Int64.toInt_add, Int.bmod_eq_of_le (by omega) (by omega)]

/-! ## Placing fields -/

structure Extent.IsSmall (e : Extent) : Prop where
  pos : 0 < e.size.toInt
  le : e.size.toInt ≤ 16
  alignment : IsAlignment e.alignment

def AreInside (fs : List PlacedField) (size : Int) : Prop :=
  ∀ f ∈ fs, 0 ≤ f.offset.toInt ∧ 0 < f.size.toInt ∧ f.offset.toInt + f.size.toInt ≤ size

theorem AreInside.mono {fs : List PlacedField} {n m : Int} (h : AreInside fs n) (hnm : n ≤ m) :
    AreInside fs m :=
  fun f hf => ⟨(h f hf).1, (h f hf).2.1, Int.le_trans (h f hf).2.2 hnm⟩

section
variable {t : Target} {name : String}

theorem fieldAlignment_small {f : Field} (hmax : t.maxAlignment = 16)
    (hf : IsAlignment f.alignment) : t.fieldAlignment f = .ok f.alignment := by
  unfold Target.fieldAlignment
  rw [hmax]
  rcases hf with h | h | h | h <;> rw [h] <;> rfl

theorem isAlignment_max {a b : Int64} (ha : IsAlignment a) (hb : IsAlignment b) :
    IsAlignment (max a b) := by
  rcases ha with rfl | rfl | rfl | rfl <;> rcases hb with rfl | rfl | rfl | rfl <;>
    unfold IsAlignment <;> decide

/-- Sixteen bytes for each field are enough. -/
theorem place_bounds {placed : List PlacedField} {padding : List Padding} {offset alignment : Int64}
    {fs : List Field}
    {l : RecordLayout} {n : Nat} (hmax : t.maxAlignment = 16) (hfs : ∀ f ∈ fs, f.extent.IsSmall)
    (halign : IsAlignment alignment) (hoffset : 0 ≤ offset.toInt) (hn : offset.toInt ≤ 16 * n)
    (hplaced : AreInside placed offset.toInt) (hcount : n + fs.length < 2 ^ 58)
    (h : t.place name placed padding offset alignment fs = .ok l) :
    l.fields.length = placed.length + fs.length ∧ 0 ≤ l.size.toInt ∧
    l.size.toInt ≤ 16 * (n + fs.length : Nat) ∧
      AreInside l.fields l.size.toInt := by
  induction fs generalizing placed padding offset alignment n with
  | nil =>
    obtain rfl := Except.ok.inj h
    obtain ⟨hle, hround⟩ := alignUp_bounds halign hoffset (by simp at hcount; omega)
    exact ⟨rfl, Int.le_trans hoffset hle, hround _ hn, hplaced.mono hle⟩
  | cons f fs ih =>
    obtain ⟨hpos, hle, hf⟩ := hfs f List.mem_cons_self
    simp only [Field.extent] at hpos hle hf
    have hsize : ¬f.size ≤ 0 := by
      rw [Int64.le_iff_toInt_le]
      exact Int.not_le.2 hpos
    rw [List.length_cons] at hcount
    obtain ⟨hstart, hround⟩ := alignUp_bounds hf hoffset (by omega)
    have hstart' := hround n hn
    have hend := toInt_add (v := alignUp offset f.alignment) (w := f.size) (by omega)
      (by omega) (by omega)
    rw [Target.place] at h
    simp only [hsize, if_false, fieldAlignment_small hmax hf] at h
    have := ih (n := n + 1) (fun g hg => hfs g (List.mem_cons_of_mem f hg))
      (isAlignment_max halign hf) (by omega) (by push_cast; omega) ?_ (by omega) h
    · simp only [List.length_append, List.length_cons, List.length_nil] at this ⊢
      refine ⟨by omega, this.2.1, ?_, this.2.2.2⟩
      have := this.2.2.1
      push_cast at this ⊢
      omega
    · intro g hg
      rcases List.mem_append.1 hg with hg | hg
      · exact (hplaced.mono (by omega)) g hg
      · rw [List.mem_singleton.1 hg]
        exact ⟨Int.le_trans hoffset hstart, hpos, Int.le_of_eq hend.symm⟩

/-! ## Records -/

structure Target.IsUsual (t : Target) : Prop where
  pointerSize : t.pointerSize = 4 ∨ t.pointerSize = 8
  doubleAlignment : t.doubleAlignment = 4 ∨ t.doubleAlignment = 8
  maxAlignment : t.maxAlignment = 16

theorem Target.isUsual_default : Target.default.IsUsual := ⟨.inr rfl, .inr rfl, rfl⟩

theorem Target.isUsual_ofTriple {triple : String} (h : ofTriple triple = .ok t) : t.IsUsual := by
  unfold ofTriple at h
  dsimp only at h
  split at h
  · obtain rfl := Except.ok.inj h
    exact isUsual_default
  split at h
  · obtain rfl := Except.ok.inj h
    exact ⟨.inl rfl, .inr rfl, rfl⟩
  split at h
  · split at h
    · obtain rfl := Except.ok.inj h
      exact ⟨.inl rfl, .inr rfl, rfl⟩
    · obtain rfl := Except.ok.inj h
      exact ⟨.inl rfl, .inl rfl, rfl⟩
  · cases h

theorem pointerExtent_isSmall (ht : t.IsUsual) : Extent.IsSmall ⟨t.pointerSize, t.pointerSize⟩ := by
  rcases ht.pointerSize with h | h <;> rw [h] <;>
    exact ⟨by decide, by decide, by unfold IsAlignment; decide⟩

theorem doubleExtent_isSmall (ht : t.IsUsual) : (t.floatExtent .double).IsSmall := by
  unfold Target.floatExtent
  rcases ht.doubleAlignment with h | h <;> rw [h] <;>
    exact ⟨by decide, by decide, by unfold IsAlignment; decide⟩

theorem intExtent_one_isSmall : (intExtent 1).IsSmall :=
  ⟨by decide, by decide, by unfold IsAlignment; decide⟩

theorem stringExtent_isSmall (ht : t.IsUsual) {e : Extent} (he : t.stringExtent? = some e) :
    e.IsSmall := by
  have hstring : t.stringExtent? = Target.stringExtent? ⟨t.pointerSize, 8, 16⟩ := by
    rw [show t = ⟨t.pointerSize, t.doubleAlignment, 16⟩ by rw [← ht.maxAlignment]]
    rfl
  rw [hstring] at he
  rcases ht.pointerSize with h | h <;> rw [h] at he
  · rw [show Target.stringExtent? ⟨4, 8, 16⟩ = some ⟨8, 4⟩ by decide] at he
    obtain rfl := Option.some.inj he
    exact ⟨by decide, by decide, by unfold IsAlignment; decide⟩
  · rw [show Target.stringExtent? ⟨8, 8, 16⟩ = some ⟨16, 8⟩ by decide] at he
    obtain rfl := Option.some.inj he
    exact ⟨by decide, by decide, by unfold IsAlignment; decide⟩

def IsStored : Ty → Prop
  | .void | .int 1 | .float .double | .pointer _ | .record _ => True
  | _ => False

theorem fieldExtent_isSmall (ht : t.IsUsual) {u : Ty} {e : Extent} (hu : IsStored u)
    (he : t.fieldExtent? u = some e) : e.IsSmall := by
  unfold IsStored at hu
  split at hu
  · cases he
  · obtain rfl := Option.some.inj he
    exact intExtent_one_isSmall
  · obtain rfl := Option.some.inj he
    exact doubleExtent_isSmall ht
  · obtain rfl := Option.some.inj he
    exact pointerExtent_isSmall ht
  · exact stringExtent_isSmall ht he
  · exact hu.elim

theorem mapM_fieldExtent {us : List Ty} {es : List Extent} (h : us.mapM t.fieldExtent? = some es) :
    es.length = us.length ∧ ∀ e ∈ es, ∃ u ∈ us, t.fieldExtent? u = some e := by
  induction us generalizing es with
  | nil =>
    obtain rfl : [] = es := by simpa using h
    exact ⟨rfl, nofun⟩
  | cons u us ih =>
    simp only [List.mapM_cons, Option.bind_eq_bind, Option.bind_eq_some_iff] at h
    obtain ⟨e, he, es', hes, hcons⟩ := h
    obtain rfl := Option.some.inj hcons
    obtain ⟨hlen, hall⟩ := ih hes
    refine ⟨by simp [hlen], fun e' he' => ?_⟩
    rcases List.mem_cons.1 he' with rfl | he'
    · exact ⟨u, List.mem_cons_self, he⟩
    · obtain ⟨v, hv, hve⟩ := hall e' he'
      exact ⟨v, List.mem_cons_of_mem u hv, hve⟩

structure RecordLayout.IsTight (l : RecordLayout) (n : Nat) : Prop where
  count : l.fields.length = n
  inside : AreInside l.fields l.size.toInt
  pos : 1 ≤ l.size.toInt
  le : l.size.toInt ≤ 16 * (max n 1 : Nat)

theorem RecordLayout.IsOf.isTight {rec : Record} {l : RecordLayout} (ht : t.IsUsual)
    (hfields : ∀ u ∈ rec.fields, IsStored u) (hcount : rec.fields.length < 2 ^ 58)
    (h : l.IsOf t rec) : l.IsTight rec.fields.length := by
  obtain ⟨fs, placed, hfs, hplaced, rfl⟩ := h
  obtain ⟨hlen, hall⟩ := mapM_fieldExtent hfs
  rw [List.length_map] at hlen
  have hsmall (f : Field) (hf : f ∈ fs) : f.extent.IsSmall := by
    obtain ⟨u, hu, hue⟩ := hall _ (List.mem_map_of_mem hf)
    exact fieldExtent_isSmall ht (hfields u hu) hue
  have hzero : (0 : Int64).toInt = 0 := by decide
  obtain ⟨hcounted, hsize, hbound, hinside⟩ :=
    place_bounds (n := 0) ht.maxAlignment hsmall (.inl rfl)
      (Int.le_of_eq hzero.symm) (Int.le_of_eq hzero) (fun f hf => by cases hf) (by omega) hplaced
  simp only [List.length_nil, Nat.zero_add, hlen] at hcounted hbound
  unfold RecordLayout.nonempty
  split
  · rename_i hzero
    have hone : (1 : Int64).toInt = 1 := by decide
    refine ⟨hcounted, ?_, Int.le_of_eq hone.symm, ?_⟩
    · rw [hzero] at hinside
      exact hinside.mono (show (0 : Int64).toInt ≤ (1 : Int64).toInt by decide)
    · change (1 : Int64).toInt ≤ _
      omega
  · rename_i hne
    have hne' : placed.size.toInt ≠ 0 := fun h => hne (Int64.toInt_inj.1 h)
    exact ⟨hcounted, hinside, by omega, by omega⟩

end

end CheckedIR.Layout

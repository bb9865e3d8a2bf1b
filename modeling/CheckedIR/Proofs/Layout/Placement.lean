import CheckedIR.Proofs.Layout.Bounds
import Mathlib.Order.Bounds.Basic
import Mathlib.Tactic.Ring

/-!
# Placement of fields

On a target whose greatest alignment is a power of two, a record is laid out exactly when each field
takes at least a byte and asks for no alignment other than a power of two. If the sums do not wrap
around, each field starts at the next multiple of its alignment, the record ends at the next
multiple of the largest one, and every byte of the record lies in one field or one gap.
-/

namespace CheckedIR.Layout

/-! ## Rounding up -/

def roundUp (n a : Int) : Int := (n + a - 1) / a * a

theorem dvd_roundUp (n a : Int) : a ∣ roundUp n a := Int.dvd_mul_left _ _

theorem le_roundUp {n a : Int} (ha : 0 < a) : n ≤ roundUp n a := by
  have hlt := Int.lt_ediv_add_one_mul_self (n + a - 1) ha
  unfold roundUp
  rw [Int.add_mul] at hlt
  omega

theorem roundUp_le {n a m : Int} (ha : 0 < a) (hm : a ∣ m) (hn : n ≤ m) : roundUp n a ≤ m := by
  obtain ⟨k, rfl⟩ := hm
  have hk : (n + a - 1) / a < k + 1 := by
    apply Int.ediv_lt_of_lt_mul ha
    rw [Int.add_mul, Int.mul_comm k]
    omega
  unfold roundUp
  rw [Int.mul_comm a k]
  exact Int.mul_le_mul_of_nonneg_right (by omega) (Int.le_of_lt ha)

theorem roundUp_lt {n a : Int} (ha : 0 < a) : roundUp n a < n + a := by
  have := Int.ediv_mul_le (n + a - 1) (Int.ne_of_gt ha)
  unfold roundUp
  omega

theorem isLeast_roundUp {n a : Int} (ha : 0 < a) : IsLeast {m | a ∣ m ∧ n ≤ m} (roundUp n a) :=
  ⟨⟨dvd_roundUp n a, le_roundUp ha⟩, fun _ hm => roundUp_le ha hm.1 hm.2⟩

theorem roundUp_one (n : Int) : roundUp n 1 = n := by
  unfold roundUp
  omega

/-! ## Powers of two -/

def IsPower (a : Int64) : Prop := ∃ k : Nat, a.toInt = 2 ^ k

theorem IsPower.one_le {a : Int64} (h : IsPower a) : 1 ≤ a.toInt := by
  obtain ⟨k, hk⟩ := h
  rw [hk]
  exact pow_pos (by decide : (0 : Int) < 2) k

theorem isPower_one : IsPower 1 := ⟨0, by decide⟩

theorem toInt_min (a b : Int64) : (min a b).toInt = min a.toInt b.toInt := by
  change (if a ≤ b then a else b).toInt = _
  split <;> rename_i h <;> rw [Int64.le_iff_toInt_le] at h <;> omega

theorem toInt_max (a b : Int64) : (max a b).toInt = max a.toInt b.toInt := by
  change (if a ≤ b then b else a).toInt = _
  split <;> rename_i h <;> rw [Int64.le_iff_toInt_le] at h <;> omega

theorem IsPower.min {a b : Int64} (ha : IsPower a) (hb : IsPower b) : IsPower (min a b) := by
  change IsPower (if a ≤ b then a else b)
  split
  · exact ha
  · exact hb

theorem IsPower.max {a b : Int64} (ha : IsPower a) (hb : IsPower b) : IsPower (max a b) := by
  change IsPower (if a ≤ b then b else a)
  split
  · exact hb
  · exact ha

/-- A word without common bits with its predecessor is a power of two. -/
theorem isPowerOfTwo_iff {a : Int64} : isPowerOfTwo a = true ↔ IsPower a := by
  have hzero : (0 : Int64).toInt = 0 := by decide
  unfold isPowerOfTwo
  by_cases hpos : 0 < a.toInt
  · have ha := toNat_toBitVec (Int.le_of_lt hpos)
    have hbits : a &&& (a - 1) = 0 ↔ a.toBitVec.toNat &&& (a.toBitVec.toNat - 1) = 0 := by
      rw [← toNat_toBitVec_sub_one
        hpos, ← BitVec.toNat_and, ← Int64.toBitVec_inj, ← BitVec.toNat_inj]
      rfl
    have hlt : 0 < a := by
      rw [Int64.lt_iff_toInt_lt, hzero]
      exact hpos
    simp only [hlt, decide_true, Bool.true_and, beq_iff_eq]
    rw [hbits, Nat.and_sub_one_eq_zero_iff_isPowerOfTwo (by omega)]
    constructor
    · rintro ⟨k, hk⟩
      refine ⟨k, ?_⟩
      rw [← ha, hk]
      simp
    · rintro ⟨k, hk⟩
      refine ⟨k, ?_⟩
      rw [← ha] at hk
      exact_mod_cast hk
  · have hlt : ¬0 < a := by
      rw [Int64.lt_iff_toInt_lt, hzero]
      exact hpos
    simp only [hlt, decide_false, Bool.false_and, Bool.false_eq_true, false_iff]
    intro h
    have := h.one_le
    omega

instance (a : Int64) : Decidable (IsPower a) := decidable_of_iff _ isPowerOfTwo_iff

theorem roundUp_add_le {n : Int} {k : Nat} (hk : k ≤ 63) (h : roundUp n (2 ^ k) < 2 ^ 63) :
    n + 2 ^ k ≤ 2 ^ 63 := by
  have hpos : (0 : Int) < 2 ^ k := pow_pos (by decide) k
  have hle := le_roundUp (n := n) hpos
  have hdvd : (2 : Int) ^ k ∣ 2 ^ 63 := pow_dvd_pow 2 hk
  obtain ⟨c, hc⟩ := Int.dvd_sub hdvd (dvd_roundUp n (2 ^ k))
  have hc1 : 1 ≤ c := by
    by_contra hlt
    have : (2 : Int) ^ k * c ≤ 0 :=
      Int.mul_nonpos_of_nonneg_of_nonpos (Int.le_of_lt hpos) (by omega)
    omega
  have := Int.mul_le_mul_of_nonneg_left hc1 (Int.le_of_lt hpos)
  omega

theorem alignUp_eq_roundUp {v a : Int64} (ha : IsPower a) (hv : 0 ≤ v.toInt)
    (h : roundUp v.toInt a.toInt < 2 ^ 63) : (alignUp v a).toInt = roundUp v.toInt a.toInt := by
  obtain ⟨k, hk⟩ := ha
  rcases Nat.eq_zero_or_pos k with rfl | hpos
  · have hone : a.toInt = 1 := by rw [hk]; rfl
    have hle : a ≤ 1 := by
      rw [Int64.le_iff_toInt_le, hone]
      decide
    rw [alignUp, if_pos hle, hone, roundUp_one]
  · have hlt : k ≤ 63 := by
      by_contra hge
      have h63 : (2 : Int) ^ 63 ≤ 2 ^ k := by
        exact_mod_cast Nat.pow_le_pow_right (by decide : 0 < 2) (by omega : 63 ≤ k)
      have := a.toInt_lt
      omega
    apply alignUp_toInt hk hpos hv
    rw [hk] at h ⊢
    exact roundUp_add_le hlt h

/-! ## Fields -/

def Field.IsMisfit (f : Field) : Prop := f.size ≤ 0 ∨ 0 < f.alignment ∧ ¬IsPower f.alignment

instance (f : Field) : Decidable f.IsMisfit := inferInstanceAs (Decidable (_ ∨ _))

def Target.alignmentOf (t : Target) (f : Field) : Int :=
  min (max f.alignment.toInt 1) t.maxAlignment.toInt

structure Target.Keeps (t : Target) (f : Field) (p : PlacedField) : Prop where
  name : p.name = f.name
  type : p.type = f.type
  size : p.size = f.size
  alignment : p.alignment.toInt = t.alignmentOf f

section
variable {t : Target} {name : String} {f : Field} {fs : List Field} {placed : List PlacedField}
  {padding : List Padding} {offset alignment : Int64}

theorem alignmentOf_pos (hmax : IsPower t.maxAlignment) : 0 < t.alignmentOf f := by
  have := hmax.one_le
  unfold Target.alignmentOf
  omega

theorem fieldAlignment_ok (hmax : IsPower t.maxAlignment) (h : ¬f.IsMisfit) :
    ∃ a, t.fieldAlignment f = .ok a ∧ IsPower a ∧ a.toInt = t.alignmentOf f := by
  have hzero : (0 : Int64).toInt = 0 := by decide
  have hone : (1 : Int64).toInt = 1 := by decide
  obtain ⟨-, halign⟩ := not_or.1 h
  obtain ⟨b, hb, hpower, hint⟩ : ∃ b, (if f.alignment ≤ 0 then 1 else f.alignment) = b ∧ IsPower b ∧
      b.toInt = max f.alignment.toInt 1 := by
    by_cases hle : f.alignment ≤ 0
    · refine ⟨1, if_pos hle, isPower_one, ?_⟩
      rw [Int64.le_iff_toInt_le] at hle
      omega
    · have hpos : 0 < f.alignment := Int64.not_le.1 hle
      have hpower : IsPower f.alignment := by
        by_contra hnot
        exact halign ⟨hpos, hnot⟩
      have := hpower.one_le
      exact ⟨f.alignment, if_neg hle, hpower, by omega⟩
  refine ⟨min b t.maxAlignment, ?_, hpower.min hmax, ?_⟩
  · unfold Target.fieldAlignment
    simp only [hb, isPowerOfTwo_iff.2 hpower]
    rfl
  · rw [toInt_min, hint]
    rfl

theorem fieldAlignment_error (hpos : 0 < f.alignment) (h : ¬IsPower f.alignment) :
    t.fieldAlignment f = .error (.invalidAlignment f.name f.alignment) := by
  have hle : ¬f.alignment ≤ 0 := Int64.not_le.2 hpos
  have hpower : isPowerOfTwo f.alignment = false := by
    rw [Bool.eq_false_iff]
    intro htrue
    exact h (isPowerOfTwo_iff.1 htrue)
  unfold Target.fieldAlignment
  simp only [if_neg hle, hpower]
  rfl

theorem place_misfit (h : f.IsMisfit) :
    ∃ e, t.place name placed padding offset alignment (f :: fs) = .error e := by
  rw [Target.place]
  by_cases hsize : f.size ≤ 0
  · exact ⟨_, by rw [if_pos hsize]; rfl⟩
  · rcases h with h | ⟨hpos, hpower⟩
    · exact absurd h hsize
    · refine ⟨.invalidAlignment f.name f.alignment, ?_⟩
      rw [if_neg hsize, fieldAlignment_error hpos hpower]
      rfl

theorem place_cons (name : String) (fs : List Field) (placed : List PlacedField)
    (padding : List Padding)
    (offset alignment : Int64) (hmax : IsPower t.maxAlignment) (h : ¬f.IsMisfit) :
    ∃ a, IsPower a ∧ a.toInt = t.alignmentOf f ∧
    t.place name placed padding offset alignment (f :: fs) =
      t.place name (placed ++ [{ f with alignment := a, offset := alignUp offset a }])
        (padding ++ gap offset (alignUp offset a) (.field f.name)) (alignUp offset a + f.size)
        (max alignment a) fs := by
  obtain ⟨a, ha, hpower, hint⟩ := fieldAlignment_ok hmax h
  refine ⟨a, hpower, hint, ?_⟩
  rw [Target.place, if_neg (not_or.1 h).1, ha]
  rfl

theorem place_error_iff (hmax : IsPower t.maxAlignment) :
    (∃ e, t.place name placed padding offset alignment fs = .error e) ↔ ∃ f ∈ fs, f.IsMisfit := by
  induction fs generalizing placed padding offset alignment with
  | nil =>
    constructor
    · rintro ⟨e, he⟩
      cases he
    · rintro ⟨f, hf, -⟩
      cases hf
  | cons f fs ih =>
    by_cases hf : f.IsMisfit
    · exact ⟨fun _ => ⟨f, List.mem_cons_self, hf⟩, fun _ => place_misfit hf⟩
    · obtain ⟨a, -, -, heq⟩ := place_cons name fs placed padding offset alignment hmax hf
      rw [heq, ih, List.exists_mem_cons_iff, or_iff_right hf]

end

/-! ## Bytes -/

def IsWithin (x : Int) (offset size : Int64) : Prop :=
  offset.toInt ≤ x ∧ x < offset.toInt + size.toInt

instance (x : Int) (offset size : Int64) : Decidable (IsWithin x offset size) :=
  inferInstanceAs (Decidable (_ ∧ _))

def covering (fs : List PlacedField) (ps : List Padding) (x : Int) : Nat :=
  fs.countP (fun f => IsWithin x f.offset f.size) + ps.countP (fun p => IsWithin x p.offset p.size)

/-- The fields and gaps cover the first `stop` bytes, each once. -/
structure Tiles (fs : List PlacedField) (ps : List Padding) (stop : Int) : Prop where
  once (x : Int) : covering fs ps x = if 0 ≤ x ∧ x < stop then 1 else 0
  fields (f : PlacedField) : f ∈ fs → 0 < f.size.toInt
  gaps (p : Padding) : p ∈ ps → 0 < p.size.toInt
  sum : (ps.map (·.size.toInt)).sum + (fs.map (·.size.toInt)).sum = stop

section
variable {fs : List PlacedField} {ps : List Padding} {stop : Int}

theorem tiles_nil : Tiles [] [] 0 where
  once x := by
    rw [if_neg (by omega)]
    rfl
  fields f hf := by cases hf
  gaps p hp := by cases hp
  sum := rfl

theorem Tiles.append_field {f : PlacedField} (h : Tiles fs ps stop) (hstop : 0 ≤ stop)
    (hf : f.offset.toInt = stop)
    (hpos : 0 < f.size.toInt) : Tiles (fs ++ [f]) ps (stop + f.size.toInt) where
  once x := by
    have hx := h.once x
    unfold covering at hx ⊢
    rw [List.countP_append, List.countP_singleton]
    simp only [decide_eq_true_eq, IsWithin, hf] at hx ⊢
    split at hx <;> split <;> split <;> omega
  fields g hg := by
    rcases List.mem_append.1 hg with hg | hg
    · exact h.fields g hg
    · rw [List.mem_singleton.1 hg]
      exact hpos
  gaps := h.gaps
  sum := by
    rw [List.map_append, List.sum_append, List.map_singleton, List.sum_singleton, ← h.sum]
    omega

theorem toInt_sub {v w : Int64} (hv : 0 ≤ v.toInt) (h : v.toInt ≤ w.toInt) :
    (w - v).toInt = w.toInt - v.toInt := by
  have := w.toInt_lt
  rw [Int64.toInt_sub, Int.bmod_eq_of_le (by omega) (by omega)]

theorem Tiles.append_gap {start next : Int64} {reason : PaddingReason} (h : Tiles fs ps start.toInt)
    (hstart : 0 ≤ start.toInt) (hle : start.toInt ≤ next.toInt) :
    Tiles fs (ps ++ gap start next reason) next.toInt := by
  unfold gap
  by_cases hlt : start < next
  · rw [if_pos hlt]
    rw [Int64.lt_iff_toInt_lt] at hlt
    have hsub := toInt_sub hstart hle
    constructor
    · intro x
      have hx := h.once x
      unfold covering at hx ⊢
      rw [List.countP_append, List.countP_singleton]
      simp only [decide_eq_true_eq, IsWithin, hsub] at hx ⊢
      split at hx <;> split <;> split <;> omega
    · exact h.fields
    · intro p hp
      rcases List.mem_append.1 hp with hp | hp
      · exact h.gaps p hp
      · rw [List.mem_singleton.1 hp, hsub]
        omega
    · have := h.sum
      rw [List.map_append, List.sum_append, List.map_singleton, List.sum_singleton, hsub]
      omega
  · rw [if_neg hlt, List.append_nil]
    rw [Int64.lt_iff_toInt_lt] at hlt
    rwa [show next.toInt = start.toInt by omega]

theorem sum_nonneg {α : Type} {xs : List α} {size : α → Int} (h : ∀ x ∈ xs, 0 < size x) :
    0 ≤ (xs.map size).sum := by
  apply List.sum_nonneg
  intro n hn
  obtain ⟨x, hx, rfl⟩ := List.mem_map.1 hn
  exact Int.le_of_lt (h x hx)

theorem foldl_size {n : Int64} (hpos : ∀ p ∈ ps, 0 < p.size.toInt) (hn : 0 ≤ n.toInt)
    (hlt : n.toInt + (ps.map (·.size.toInt)).sum < 2 ^ 63) :
    (ps.foldl (fun n p => n + p.size) n).toInt = n.toInt + (ps.map (·.size.toInt)).sum := by
  induction ps generalizing n with
  | nil => simp
  | cons p ps ih =>
    have hp := hpos p List.mem_cons_self
    have hps : ∀ q ∈ ps, 0 < q.size.toInt := fun q hq => hpos q (List.mem_cons_of_mem p hq)
    have hsum := sum_nonneg hps
    rw [List.map_cons, List.sum_cons] at hlt ⊢
    have hadd := toInt_add (v := n) (w := p.size) hn (by omega) (by omega)
    rw [List.foldl_cons, ih hps (by omega) (by omega), hadd]
    omega

end

/-! ## Records -/

def endOf (fs : List PlacedField) : Int := fs.getLast?.elim 0 fun f => f.offset.toInt + f.size.toInt

/-- Each field starts at the least multiple of its alignment that is not before the end of the field
in front. -/
def AreLeast (fs : List PlacedField) : Prop := ∀ before f after, fs = before ++ f :: after →
  IsLeast {m | f.alignment.toInt ∣ m ∧ endOf before ≤ m} f.offset.toInt

def largestAlignment (fs : List PlacedField) : Int := (fs.map (·.alignment.toInt)).foldl max 1

structure RecordLayout.IsPacked (l : RecordLayout) : Prop where
  offsets : AreLeast l.fields
  alignment : l.alignment.toInt = largestAlignment l.fields
  size : IsLeast {m | l.alignment.toInt ∣ m ∧ endOf l.fields ≤ m} l.size.toInt
  tiles : Tiles l.fields l.padding l.size.toInt
  paddingBytes : l.paddingBytes.toInt = l.size.toInt - (l.fields.map (·.size.toInt)).sum

structure Packing (placed : List PlacedField) (padding : List Padding) (offset alignment : Int64) :
    Prop where
  nonneg : 0 ≤ offset.toInt
  stop : endOf placed = offset.toInt
  least : AreLeast placed
  largest : alignment.toInt = largestAlignment placed
  power : IsPower alignment
  tiles : Tiles placed padding offset.toInt

section
variable {placed : List PlacedField} {padding : List Padding} {offset alignment : Int64}

theorem endOf_append (fs : List PlacedField) (f : PlacedField) :
    endOf (fs ++ [f]) = f.offset.toInt + f.size.toInt := by
  unfold endOf
  rw [List.getLast?_concat]
  rfl

theorem AreLeast.append {f : PlacedField} (h : AreLeast placed)
    (hf : IsLeast {m | f.alignment.toInt ∣ m ∧ endOf placed ≤ m} f.offset.toInt) :
    AreLeast (placed ++ [f]) := by
  intro before g after heq
  rcases List.eq_nil_or_concat after with rfl | ⟨after, z, rfl⟩
  · obtain ⟨rfl, hg⟩ := List.append_inj' heq rfl
    obtain rfl := List.singleton_inj.1 hg
    exact hf
  · rw [List.concat_eq_append, ← List.cons_append, ← List.append_assoc] at heq
    exact h before g after (List.append_inj' heq rfl).1

theorem packing_nil : Packing [] [] 0 1 where
  nonneg := by decide
  stop := rfl
  least := by
    intro before f after heq
    cases before <;> cases heq
  largest := rfl
  power := isPower_one
  tiles := tiles_nil

theorem Packing.append {f : Field} {a : Int64} (h : Packing placed padding offset alignment)
    (ha : IsPower a)
    (hpos : 0 < f.size.toInt) (hlt : roundUp offset.toInt a.toInt + f.size.toInt < 2 ^ 63) :
    Packing (placed ++ [{ f with alignment := a, offset := alignUp offset a }])
      (padding ++ gap offset (alignUp offset a) (.field f.name)) (alignUp offset a + f.size)
      (max alignment a) := by
  have hone := ha.one_le
  have hle := le_roundUp (n := offset.toInt) (a := a.toInt) (by omega)
  have hstart := alignUp_eq_roundUp ha h.nonneg (by omega)
  have hnonneg := h.nonneg
  have hstop := toInt_add (v := alignUp offset a) (w := f.size) (by omega) (by omega) (by omega)
  refine ⟨by omega, ?_, h.least.append ?_, ?_, h.power.max ha, ?_⟩
  · rw [endOf_append, hstop]
  · rw [h.stop]
    change IsLeast _ (alignUp offset a).toInt
    rw [hstart]
    exact isLeast_roundUp (Int.lt_of_lt_of_le Int.zero_lt_one hone)
  · unfold largestAlignment
    rw [List.map_append, List.foldl_append, toInt_max, h.largest]
    rfl
  · rw [hstop]
    exact (h.tiles.append_gap hnonneg (by omega)).append_field (by omega) rfl hpos

theorem Packing.isPacked {name : String} (h : Packing placed padding offset alignment)
    (hlt : roundUp offset.toInt alignment.toInt < 2 ^ 63) :
    RecordLayout.IsPacked ⟨name, placed, alignUp offset alignment, alignment,
      padding ++ gap offset (alignUp offset alignment) .record⟩ := by
  have hone := h.power.one_le
  have hnonneg := h.nonneg
  have hle := le_roundUp (n := offset.toInt) (a := alignment.toInt) (by omega)
  have hsize := alignUp_eq_roundUp h.power h.nonneg hlt
  have htiles :
      Tiles placed (padding ++ gap offset (alignUp offset alignment) .record)
      (alignUp offset alignment).toInt :=
    h.tiles.append_gap hnonneg (by omega)
  refine ⟨h.least, h.largest, ?_, htiles, ?_⟩
  · change IsLeast _ (alignUp offset alignment).toInt
    rw [hsize, h.stop]
    exact isLeast_roundUp (Int.lt_of_lt_of_le Int.zero_lt_one hone)
  · have hsum := htiles.sum
    have hzero : (0 : Int64).toInt = 0 := by decide
    have hfields := sum_nonneg htiles.fields
    have hbytes := foldl_size (n := 0) htiles.gaps (Int.le_refl _) (by omega)
    unfold RecordLayout.paddingBytes
    dsimp only
    omega

end

def Target.exactEnd (t : Target) : Int → List Field → Int
  | n, [] => n
  | n, f :: fs => t.exactEnd (roundUp n (t.alignmentOf f) + f.size.toInt) fs

def Target.exactSize (t : Target) (fs : List Field) : Int :=
  roundUp (t.exactEnd 0 fs) ((fs.map t.alignmentOf).foldl max 1)

section
variable {t : Target} {name : String} {f : Field} {fs : List Field} {placed : List PlacedField}
  {padding : List Padding} {offset alignment : Int64}

theorem size_pos (h : ¬f.IsMisfit) : 0 < f.size.toInt := by
  have hsize := (not_or.1 h).1
  rw [Int64.le_iff_toInt_le] at hsize
  exact Int.not_le.1 hsize

theorem le_exactEnd (hmax : IsPower t.maxAlignment) (hfs : ∀ f ∈ fs, ¬f.IsMisfit) (n : Int) :
    n ≤ t.exactEnd n fs := by
  induction fs generalizing n with
  | nil => exact Int.le_refl n
  | cons f fs ih =>
    have hround := le_roundUp (n := n) (alignmentOf_pos (f := f) hmax)
    have hpos := size_pos (hfs f List.mem_cons_self)
    have := ih (fun g hg => hfs g (List.mem_cons_of_mem f hg))
      (roundUp n (t.alignmentOf f) + f.size.toInt)
    rw [Target.exactEnd]
    omega

theorem one_le_foldl_max {xs : List Int} {n : Int} (h : 1 ≤ n) : 1 ≤ xs.foldl max n := by
  induction xs generalizing n with
  | nil => exact h
  | cons x xs ih => exact ih (by omega)

theorem place_isPacked (name : String) (hmax : IsPower t.maxAlignment) (hfs : ∀ f ∈ fs, ¬f.IsMisfit)
    (h : Packing placed padding offset alignment)
    (hlt : roundUp (t.exactEnd offset.toInt fs) ((fs.map t.alignmentOf).foldl max alignment.toInt) <
      2 ^ 63) :
    ∃ l new, t.place name placed padding offset alignment fs = .ok l ∧ l.name = name ∧
      l.fields = placed ++ new ∧
      List.Forall₂ t.Keeps fs new ∧ l.IsPacked ∧
      l.size.toInt =
      roundUp (t.exactEnd offset.toInt fs) ((fs.map t.alignmentOf).foldl max alignment.toInt) := by
  induction fs generalizing placed padding offset alignment with
  | nil =>
    exact ⟨_, [], rfl, rfl, (List.append_nil _).symm, .nil, h.isPacked hlt,
      alignUp_eq_roundUp h.power h.nonneg hlt⟩
  | cons f fs ih =>
    have hf := hfs f List.mem_cons_self
    have hrest : ∀ g ∈ fs, ¬g.IsMisfit := fun g hg => hfs g (List.mem_cons_of_mem f hg)
    obtain ⟨a, ha, hint, hplace⟩ := place_cons name fs placed padding offset alignment hmax hf
    have hpos := size_pos hf
    rw [Target.exactEnd, List.map_cons, List.foldl_cons, ← hint] at hlt ⊢
    -- everything up to the end of this field fits, for the whole record does
    have hend := le_exactEnd hmax hrest (roundUp offset.toInt a.toInt + f.size.toInt)
    have hsize := le_roundUp (n := t.exactEnd (roundUp offset.toInt a.toInt + f.size.toInt) fs)
      (a := (fs.map t.alignmentOf).foldl max (max alignment.toInt a.toInt))
      (Int.lt_of_lt_of_le Int.zero_lt_one
        (one_le_foldl_max (Int.le_trans h.power.one_le (Int.le_max_left _ _))))
    have hround := le_roundUp (n := offset.toInt) (a := a.toInt)
      (Int.lt_of_lt_of_le Int.zero_lt_one ha.one_le)
    have hnonneg := h.nonneg
    have hstart := alignUp_eq_roundUp ha h.nonneg (by omega)
    have hstop := toInt_add (v := alignUp offset a) (w := f.size) (by omega) (by omega) (by omega)
    have hkeeps : t.Keeps f { f with alignment := a, offset := alignUp offset a } :=
      ⟨rfl, rfl, rfl, hint⟩
    have hpacking := h.append ha hpos (by omega)
    rw [← hstart, ← hstop, ← toInt_max] at hlt ⊢
    obtain ⟨l, new, hok, hname, hfields, hnew, hpacked, htotal⟩ := ih hrest hpacking hlt
    refine ⟨l, _, hplace.trans hok, hname, ?_, .cons hkeeps hnew, hpacked, htotal⟩
    rw [hfields, List.append_assoc, List.singleton_append]

/-- **Records are laid out exactly.** If the greatest alignment of the target is a power of two, a
record has a layout unless a field takes no byte or asks for an alignment that is not a power of
two. If the size of the record fits into a word, its layout keeps the fields, gives each its
alignment and packs them: each field starts at the next multiple of its alignment, the record ends
at the next multiple of the largest one, and its fields and gaps cover it without an overlap. -/
theorem recordLayout_exact (hmax : IsPower t.maxAlignment) (name : String) (fs : List Field) :
    ((∃ e, t.recordLayout name fs = .error e) ↔ ∃ f ∈ fs, f.IsMisfit) ∧
      ((∀ f ∈ fs, ¬f.IsMisfit) → t.exactSize fs < 2 ^ 63 → ∃ l, t.recordLayout name fs = .ok l ∧
        l.name = name ∧
        List.Forall₂ t.Keeps fs l.fields ∧ l.IsPacked ∧ l.size.toInt = t.exactSize fs) := by
  refine ⟨place_error_iff hmax, fun hfs hlt => ?_⟩
  obtain ⟨l, new, hok, hname, hfields, hnew, hpacked, hsize⟩ :=
    place_isPacked name hmax hfs packing_nil hlt
  rw [List.nil_append] at hfields
  exact ⟨l, hok, hname, hfields ▸ hnew, hpacked, hsize⟩

/-- A flag, a number and a string without an alignment of its own take 32 bytes: seven are left free
after the flag, and seven after the string. -/
theorem recordLayout_flag_number_text : ∃ l,
    Target.default.recordLayout "Entry" [⟨"flag", "i1", 1, 1⟩, ⟨"number", "double", 8, 8⟩,
      ⟨"text", "%string", 9, 0⟩] =
      .ok l ∧ l.IsPacked ∧ l.size.toInt = 32 := by
  obtain ⟨l, hok, -, -, hpacked, hsize⟩ :=
    (recordLayout_exact (t := Target.default) (by decide) "Entry"
      [⟨"flag", "i1", 1, 1⟩, ⟨"number", "double", 8, 8⟩, ⟨"text", "%string", 9, 0⟩]).2 (by decide)
        (by decide)
  exact ⟨l, hok, hpacked, hsize⟩

end

end CheckedIR.Layout

import CheckedIR.Proofs.Depth
import CheckedIR.Proofs.Layout.Placement

/-!
# Measures of types

How many bytes a value takes and what it is aligned to if there is no bound to words. Elements of
arrays and fields of records lie in the value itself; what a pointer leads to does not. A type has
at most one measure; the alignment is a power of two and the size a multiple of it.
-/

namespace CheckedIR.Layout

open CheckedIR.Ir

/-! ## Parts -/

/-- Values of type `v` lie in values of type `u`, as elements or as a field. -/
inductive IsPart (rs : Records) : Ty → Ty → Prop
  | elem {length : Nat} {elem : Ty} : IsPart rs (.array length elem) elem
  | field {id : RecordId} {v : Ty} (hvisible : (rs.get id).isOpaque = false)
      (hv : v ∈ (rs.get id).fields) :
    IsPart rs (.record id) v

def Holds (rs : Records) : Ty → Ty → Prop := Relation.ReflTransGen (IsPart rs)

def partsOf (rs : Records) : Ty → List Ty
  | .array _ elem => [elem]
  | .record id => if (rs.get id).isOpaque then [] else (rs.get id).fields
  | _ => []

def IsUnsized (rs : Records) : Ty → Prop
  | .void | .label | .token | .metadata | .mmx | .vector .. | .func .. => True
  | .int _ | .float _ | .pointer _ | .array .. => False
  | .record id => (rs.get id).isOpaque = true

/-! ## Measures -/

structure Measure where
  size : Int
  alignment : Int

def Extent.measure (e : Extent) : Measure := ⟨e.size.toInt, e.alignment.toInt⟩

namespace Measure

def int (bits : Nat) : Measure :=
  let bytes : Int := (bits + 7) / 8
  let alignment := if bytes ≤ 1 then 1 else if bytes ≤ 2 then 2 else if bytes ≤ 4 then 4 else 8
  ⟨roundUp bytes alignment, alignment⟩

def inRecord (isPacked : Bool) (m : Measure) : Measure :=
  if isPacked then { m with alignment := 1 } else m

def stop : Int → List Measure → Int
  | n, [] => n
  | n, m :: ms => stop (roundUp n m.alignment + m.size) ms

def largest (ms : List Measure) : Int := (ms.map alignment).foldl max 1

/-- The measure of a record of fields with the given measures; it takes at least a byte. -/
def record (ms : List Measure) : Measure :=
  let size := roundUp (stop 0 ms) (largest ms)
  ⟨if size = 0 then 1 else size, largest ms⟩

end Measure

inductive Target.Takes (t : Target) (rs : Records) : Ty → Measure → Prop
  | int (bits : Nat) : Takes t rs (.int bits) (.int bits)
  | float (kind : FloatKind) : Takes t rs (.float kind) (t.floatExtent kind).measure
  | pointer (elem : Ty) : Takes t rs (.pointer elem) ⟨t.pointerSize.toInt, t.pointerSize.toInt⟩
  | array {elem : Ty} {m : Measure} (length : Nat) (h : Takes t rs elem m) :
    Takes t rs (.array length elem) { m with size := m.size * length }
  | record {id : RecordId} {ms : List Measure} (hvisible : (rs.get id).isOpaque = false)
    (hlength : (rs.get id).fields.length = ms.length)
    (h : ∀ v m, (v, m) ∈ (rs.get id).fields.zip ms → Takes t rs v m)
    (hpos : ∀ m ∈ ms, 0 < m.size) :
    Takes t rs (.record id) (.record (ms.map (.inRecord (rs.get id).isPacked)))

structure Target.IsStorable (t : Target) (rs : Records) (u : Ty) : Prop where
  sized {v : Ty} : Holds rs u v → ¬IsUnsized rs v
  nonempty {id : RecordId} {v : Ty} {alignment : Int} :
    Holds rs u (.record id) → IsPart rs (.record id) v → ¬t.Takes rs v ⟨0, alignment⟩

/-- The exact sizes of a type and of all that lies in it are within words. -/
structure Target.Fits (t : Target) (rs : Records) (u : Ty) : Prop where
  bits {bits : Nat} : Holds rs u (.int bits) → bits + 7 < 2 ^ 63
  size {v : Ty} {m : Measure} : Holds rs u v → t.Takes rs v m → m.size < 2 ^ 63

section
variable {t : Target} {rs : Records} {u v : Ty} {id : RecordId} {m m' : Measure} {ms : List Measure}

theorem IsPart.mem_partsOf (h : IsPart rs u v) : v ∈ partsOf rs u := by
  cases h with
  | elem => exact List.mem_singleton_self _
  | field hvisible hv =>
    rw [partsOf, if_neg (Bool.eq_false_iff.1 hvisible)]
    exact hv

theorem Holds.mem {parts : List Ty} (h : Holds rs u v)
    (hparts : ∀ b ∈ parts, ∀ c ∈ partsOf rs b, c ∈ parts) (hu : u ∈ parts) : v ∈ parts := by
  induction h with
  | refl => exact hu
  | tail _ hc ih => exact hparts _ ih _ hc.mem_partsOf

theorem Target.IsStorable.holds (h : t.IsStorable rs u) (hv : Holds rs u v) : t.IsStorable rs v :=
  ⟨fun hw => h.sized (hv.trans hw), fun hid => h.nonempty (hv.trans hid)⟩

theorem Target.IsStorable.part (h : t.IsStorable rs u) (hv : IsPart rs u v) : t.IsStorable rs v :=
  h.holds (.single hv)

theorem Target.Fits.holds (h : t.Fits rs u) (hv : Holds rs u v) : t.Fits rs v :=
  ⟨fun hw => h.bits (hv.trans hw), fun hw => h.size (hv.trans hw)⟩

theorem Target.Fits.part (h : t.Fits rs u) (hv : IsPart rs u v) : t.Fits rs v :=
  h.holds (.single hv)

theorem Target.Takes.of_fields (hvisible : (rs.get id).isOpaque = false)
    (h : List.Forall₂ (t.Takes rs) (rs.get id).fields ms) (hpos : ∀ m ∈ ms, 0 < m.size) :
    t.Takes rs (.record id) (.record (ms.map (.inRecord (rs.get id).isPacked))) := by
  obtain ⟨hlength, hzip⟩ := List.forall₂_iff_zip.1 h
  exact .record hvisible hlength (fun v m hm => hzip hm) hpos

theorem eq_of_zip {vs : List Ty} {ms ms' : List Measure} (hlength : vs.length = ms.length)
    (hlength' : vs.length = ms'.length)
    (h : ∀ v m m', (v, m) ∈ vs.zip ms → (v, m') ∈ vs.zip ms' → m = m') : ms = ms' := by
  induction vs generalizing ms ms' with
  | nil =>
    rw [List.eq_nil_of_length_eq_zero hlength.symm, List.eq_nil_of_length_eq_zero hlength'.symm]
  | cons v vs ih =>
    cases ms with
    | nil => cases hlength
    | cons m ms =>
      cases ms' with
      | nil => cases hlength'
      | cons m' ms' =>
        obtain rfl := h v m m' List.mem_cons_self List.mem_cons_self
        rw [ih (Nat.succ.inj hlength) (Nat.succ.inj hlength')
          fun w n n' hn hn' => h w n n' (List.mem_cons_of_mem _ hn) (List.mem_cons_of_mem _ hn')]

theorem Target.Takes.functional (h : t.Takes rs u m) (h' : t.Takes rs u m') : m = m' := by
  induction h generalizing m' with
  | int | float | pointer =>
    cases h'
    rfl
  | array length _ ih =>
    cases h' with
    | array _ h' => rw [ih h']
  | record hvisible hlength _ _ ih =>
    cases h' with
    | record _ hlength' h' _ =>
      rw [eq_of_zip hlength hlength' fun v m m' hm hm' => ih v m hm (h' v m' hm')]

theorem Target.Takes.part (h : t.Takes rs u m) (hv : IsPart rs u v) :
    ∃ m', t.Takes rs v m' ∧ ∀ id, u = .record id → 0 < m'.size := by
  cases h with
  | int | float | pointer => cases hv
  | array length h =>
    cases hv
    exact ⟨_, h, nofun⟩
  | @record id ms hvisible hlength h hpos =>
    cases hv with
    | field _ hv =>
      rw [← List.map_fst_zip (Nat.le_of_eq hlength)] at hv
      obtain ⟨⟨v, m⟩, hvm, rfl⟩ := List.mem_map.1 hv
      exact ⟨m, h v m hvm, fun _ _ => hpos m (List.of_mem_zip hvm).2⟩

theorem Target.Takes.holds (h : t.Takes rs u m) (hv : Holds rs u v) : ∃ m', t.Takes rs v m' := by
  induction hv with
  | refl => exact ⟨m, h⟩
  | tail _ hv ih =>
    obtain ⟨m', h'⟩ := ih
    obtain ⟨m'', h'', -⟩ := h'.part hv
    exact ⟨m'', h''⟩

theorem Target.Takes.sized (h : t.Takes rs u m) : ¬IsUnsized rs u := by
  cases h with
  | record hvisible => exact fun h => Bool.false_ne_true (hvisible.symm.trans h)
  | _ => exact id

theorem Target.Takes.isStorable (h : t.Takes rs u m) : t.IsStorable rs u where
  sized hv := by
    obtain ⟨m', h'⟩ := h.holds hv
    exact h'.sized
  nonempty hid hv h0 := by
    obtain ⟨m', h'⟩ := h.holds hid
    obtain ⟨m'', h'', hpos⟩ := h'.part hv
    have := hpos _ rfl
    rw [h''.functional h0] at this
    exact Int.lt_irrefl _ this

end

/-! ## Powers of two up to sixteen -/

def IsSmallPower (a : Int) : Prop := ∃ k ≤ 4, a = 2 ^ k

section
variable {a b : Int} {xs : List Int}

theorem isSmallPower_iff : IsSmallPower a ↔ a = 1 ∨ a = 2 ∨ a = 4 ∨ a = 8 ∨ a = 16 := by
  constructor
  · rintro ⟨k, hk, rfl⟩
    obtain rfl | rfl | rfl | rfl | rfl : k = 0 ∨ k = 1 ∨ k = 2 ∨ k = 3 ∨ k = 4 := by omega
    all_goals decide
  · rintro (rfl | rfl | rfl | rfl | rfl)
    exacts [⟨0, by decide, rfl⟩, ⟨1, by decide, rfl⟩, ⟨2, by decide, rfl⟩, ⟨3, by decide, rfl⟩,
      ⟨4, by decide, rfl⟩]

theorem IsSmallPower.pos (h : IsSmallPower a) : 0 < a := by
  obtain ⟨k, -, rfl⟩ := h
  exact pow_pos (by decide) k

theorem IsSmallPower.dvd_of_le (ha : IsSmallPower a) (hb : IsSmallPower b) (h : a ≤ b) : a ∣ b := by
  obtain ⟨j, -, rfl⟩ := ha
  obtain ⟨k, -, rfl⟩ := hb
  exact pow_dvd_pow 2 ((pow_le_pow_iff_right₀ (by decide)).1 h)

theorem isSmallPower_foldl_max (ha : IsSmallPower a) (hxs : ∀ x ∈ xs, IsSmallPower x) :
    IsSmallPower (xs.foldl max a) := by
  induction xs generalizing a with
  | nil => exact ha
  | cons x xs ih =>
    refine ih ?_ fun y hy => hxs y (List.mem_cons_of_mem _ hy)
    rcases max_choice a x with h | h <;> rw [h]
    exacts [ha, hxs x List.mem_cons_self]

theorem le_foldl_max : a ≤ xs.foldl max a ∧ ∀ x ∈ xs, x ≤ xs.foldl max a := by
  induction xs generalizing a with
  | nil => exact ⟨Int.le_refl a, nofun⟩
  | cons x xs ih =>
    obtain ⟨hle, hxs⟩ := ih (a := max a x)
    refine ⟨Int.le_trans (Int.le_max_left a x) hle, fun y hy => ?_⟩
    rcases List.mem_cons.1 hy with rfl | hy
    · exact Int.le_trans (Int.le_max_right a y) hle
    · exact hxs y hy

end

/-! ## Sound measures -/

structure Measure.IsSound (m : Measure) : Prop where
  alignment : IsSmallPower m.alignment
  nonneg : 0 ≤ m.size
  dvd : m.alignment ∣ m.size

namespace Measure

variable {m : Measure} {ms : List Measure}

@[simp] theorem size_inRecord (isPacked : Bool) : (m.inRecord isPacked).size = m.size := by
  cases isPacked <;> rfl

theorem IsSound.inRecord (h : m.IsSound) (isPacked : Bool) : (m.inRecord isPacked).IsSound := by
  cases isPacked
  · exact h
  · exact ⟨⟨0, by decide, rfl⟩, h.nonneg, Int.one_dvd _⟩

theorem isSound_int (bits : Nat) : (int bits).IsSound := by
  have hpower : IsSmallPower (int bits).alignment := by
    rw [isSmallPower_iff]
    unfold int
    dsimp only
    split
    · exact .inl rfl
    split
    · exact .inr (.inl rfl)
    split
    · exact .inr (.inr (.inl rfl))
    · exact .inr (.inr (.inr (.inl rfl)))
  refine ⟨hpower, ?_, dvd_roundUp _ _⟩
  exact Int.le_trans (by omega) (le_roundUp hpower.pos)

theorem le_stop (hms : ∀ m ∈ ms, m.IsSound) (n : Int) : n + (ms.map size).sum ≤ stop n ms := by
  induction ms generalizing n with
  | nil => simp [stop]
  | cons m ms ih =>
    have hround := le_roundUp (n := n) (hms m List.mem_cons_self).alignment.pos
    have := ih (fun m' hm' => hms m' (List.mem_cons_of_mem _ hm')) (roundUp n m.alignment + m.size)
    rw [List.map_cons, List.sum_cons, stop]
    omega

theorem isSmallPower_largest (hms : ∀ m ∈ ms, m.IsSound) : IsSmallPower (largest ms) := by
  refine isSmallPower_foldl_max ⟨0, by decide, rfl⟩ fun a ha => ?_
  obtain ⟨m, hm, rfl⟩ := List.mem_map.1 ha
  exact (hms m hm).alignment

theorem dvd_largest (hms : ∀ m ∈ ms, m.IsSound) (hm : m ∈ ms) : m.alignment ∣ largest ms :=
  (hms m hm).alignment.dvd_of_le (isSmallPower_largest hms)
    (le_foldl_max.2 _ (List.mem_map_of_mem hm))

theorem isSound_record (hms : ∀ m ∈ ms, m.IsSound) (hpos : ∀ m ∈ ms, 0 < m.size) :
    (record ms).IsSound := by
  have hlargest := isSmallPower_largest hms
  have hstop := le_stop hms 0
  have hround := le_roundUp (n := stop 0 ms) hlargest.pos
  have hsum := sum_nonneg hpos
  refine ⟨hlargest, ?_, ?_⟩
  · unfold record
    dsimp only
    split <;> omega
  · unfold record
    dsimp only
    split
    · rename_i hzero
      cases ms with
      | nil => exact Int.one_dvd _
      | cons m ms =>
        have hm := hpos m List.mem_cons_self
        have hrest := sum_nonneg fun m' hm' => hpos m' (List.mem_cons_of_mem m hm')
        rw [List.map_cons, List.sum_cons] at hstop
        omega
    · exact dvd_roundUp _ _

end Measure

/-- **Measures are sound.** Elements of an array stay aligned one after the other. -/
theorem Target.Takes.isSound {t : Target} {rs : Records} {u : Ty} {m : Measure} (ht : t.IsUsual)
    (h : t.Takes rs u m) : m.IsSound := by
  induction h with
  | int bits => exact Measure.isSound_int bits
  | float kind =>
    unfold Target.floatExtent
    split
    · exact ⟨isSmallPower_iff.2 (by decide), by decide, by decide⟩
    · exact ⟨isSmallPower_iff.2 (by decide), by decide, by decide⟩
    · rcases ht.doubleAlignment with h | h <;> rw [h] <;>
        exact ⟨isSmallPower_iff.2 (by decide), by decide, by decide⟩
    all_goals exact ⟨isSmallPower_iff.2 (by decide), by decide, by decide⟩
  | pointer elem =>
    rcases ht.pointerSize with h | h <;> rw [h] <;>
      exact ⟨isSmallPower_iff.2 (by decide), by decide, by decide⟩
  | array length _ ih =>
    exact ⟨ih.alignment, Int.mul_nonneg ih.nonneg (Int.natCast_nonneg _),
      Dvd.dvd.mul_right ih.dvd _⟩
  | @record id ms hvisible hlength _ hpos ih =>
    have hms (m : Measure) (hm : m ∈ ms) : m.IsSound := by
      rw [← List.map_snd_zip (Nat.le_of_eq hlength.symm)] at hm
      obtain ⟨⟨v, m⟩, hvm, rfl⟩ := List.mem_map.1 hm
      exact ih v m hvm
    refine Measure.isSound_record (fun m hm => ?_) fun m hm => ?_
    all_goals obtain ⟨m', hm', rfl⟩ := List.mem_map.1 hm
    · exact (hms m' hm').inRecord _
    · rw [Measure.size_inRecord]
      exact hpos m' hm'

end CheckedIR.Layout

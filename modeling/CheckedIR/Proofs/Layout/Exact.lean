import CheckedIR.Proofs.Layout.Measures

/-!
# Exact sizes

A type whose records do not contain themselves has a size on a target if and only if nothing in it
is without a size and no field is without bytes; and then its size is the exact one, whatever was
laid out before. The exact sizes of all that lies in the type must be within words.
-/

namespace CheckedIR.Layout

open CheckedIR.Ir

/-! ## Words -/

theorem toInt_mul_ofNat {a : Int64} {n : Nat} (ha : 0 ≤ a.toInt) (h : a.toInt * n < 2 ^ 63) :
    (a * Int64.ofNat n).toInt = a.toInt * n := by
  have hnonneg := Int.mul_nonneg ha (Int.natCast_nonneg n)
  have hwords : Int64.size = 2 ^ 64 := rfl
  rw [Int64.toInt_mul, Int64.toInt_ofNat', hwords, Int.mul_bmod_bmod,
    Int.bmod_eq_of_le (by omega) (by omega)]

theorem intAlignment {bytes : Int64} {n : Int} (h : bytes.toInt = n) : ∃ a : Int64,
    (if bytes ≤ 1 then 1 else if bytes ≤ 2 then 2 else if bytes ≤ 4 then 4 else 8) = a ∧
      (if n ≤ 1 then 1 else if n ≤ 2 then 2 else if n ≤ 4 then 4 else 8) = a.toInt ∧ IsPower a ∧
      a.toInt ≤ 8 := by
  have hle (m : Int64) : bytes ≤ m ↔ n ≤ m.toInt := by rw [Int64.le_iff_toInt_le, h]
  refine ⟨_, rfl, ?_⟩
  simp only [hle, show (1 : Int64).toInt = 1 by decide, show (2 : Int64).toInt = 2 by decide,
    show (4 : Int64).toInt = 4 by decide]
  split
  · exact ⟨rfl, by decide, by decide⟩
  split
  · exact ⟨rfl, by decide, by decide⟩
  split
  · exact ⟨rfl, by decide, by decide⟩
  · exact ⟨rfl, by decide, by decide⟩

theorem intExtent_measure {bits : Nat} (h : bits + 7 < 2 ^ 63) :
    (intExtent bits).measure = .int bits := by
  have hbits : (Int64.ofNat bits).toInt = bits := Int64.toInt_ofNat_of_lt (by omega)
  have hseven : (7 : Int64).toInt = 7 := by decide
  have hsum : (Int64.ofNat bits + 7).toInt = bits + 7 := by
    rw [toInt_add (by omega) (by omega) (by omega), hbits, hseven]
  have hbytes : ((Int64.ofNat bits + 7) / 8).toInt = (bits + 7) / 8 := by
    rw [Int64.toInt_div_of_ne_right _ _ (by decide), hsum, show (8 : Int64).toInt = 8 by decide,
      Int.tdiv_eq_ediv_of_nonneg (by omega)]
  obtain ⟨a, ha, hint, hpower, hle⟩ := intAlignment hbytes
  have hlt := roundUp_lt (n := (bits + 7) / 8) (Int.lt_of_lt_of_le Int.zero_lt_one hpower.one_le)
  have hround := alignUp_eq_roundUp (v := (Int64.ofNat bits + 7) / 8) hpower (by omega)
    (by rw [hbytes]; omega)
  unfold intExtent Measure.int Extent.measure
  dsimp only
  rw [ha, hint, hround, hbytes]

/-! ## Records of sound fields -/

section
variable {t : Target} {f : Field} {fs : List Field} {name : String} {l : RecordLayout}

theorem Measure.IsSound.isPower {e : Extent} (h : e.measure.IsSound) : IsPower e.alignment := by
  obtain ⟨k, -, hk⟩ := h.alignment
  exact ⟨k, hk⟩

theorem isMisfit_iff (h : f.extent.measure.IsSound) : f.IsMisfit ↔ f.extent.measure.size = 0 := by
  have hnonneg : 0 ≤ f.size.toInt := h.nonneg
  have hsize : f.size ≤ 0 ↔ f.size.toInt = 0 := by
    rw [Int64.le_iff_toInt_le, show (0 : Int64).toInt = 0 by decide]
    omega
  rw [Field.IsMisfit, or_iff_left fun hnot => hnot.2 h.isPower, hsize]
  rfl

theorem Target.IsUsual.isPower (ht : t.IsUsual) : IsPower t.maxAlignment := by
  rw [ht.maxAlignment]
  decide

theorem alignmentOf_eq (ht : t.IsUsual) (h : f.extent.measure.IsSound) :
    t.alignmentOf f = f.extent.measure.alignment := by
  have hpower := isSmallPower_iff.1 h.alignment
  unfold Target.alignmentOf
  rw [ht.maxAlignment, show (16 : Int64).toInt = 16 by decide]
  change min (max f.extent.measure.alignment 1) 16 = _
  omega

theorem exactEnd_eq (ht : t.IsUsual) (hfs : ∀ f ∈ fs, f.extent.measure.IsSound) (n : Int) :
    t.exactEnd n fs = Measure.stop n (fs.map (·.extent.measure)) := by
  induction fs generalizing n with
  | nil => rfl
  | cons f fs ih =>
    rw [Target.exactEnd, List.map_cons, Measure.stop, alignmentOf_eq ht (hfs f List.mem_cons_self)]
    exact ih (fun g hg => hfs g (List.mem_cons_of_mem f hg)) _

theorem map_alignmentOf (ht : t.IsUsual) (hfs : ∀ f ∈ fs, f.extent.measure.IsSound) :
    fs.map t.alignmentOf = (fs.map (·.extent.measure)).map Measure.alignment := by
  rw [List.map_map]
  exact List.map_congr_left fun f hf => alignmentOf_eq ht (hfs f hf)

theorem exactSize_eq (ht : t.IsUsual) (hfs : ∀ f ∈ fs, f.extent.measure.IsSound) :
    t.exactSize fs =
      roundUp (Measure.stop 0 (fs.map (·.extent.measure))) (Measure.largest
        (fs.map (·.extent.measure))) := by
  rw [Target.exactSize, exactEnd_eq ht hfs, map_alignmentOf ht hfs]
  rfl

theorem map_alignment {ps : List PlacedField} (h : List.Forall₂ t.Keeps fs ps) :
    ps.map (·.alignment.toInt) = fs.map t.alignmentOf := by
  induction h with
  | nil => rfl
  | cons hf _ ih => rw [List.map_cons, List.map_cons, hf.alignment, ih]

def RecordLayout.Aligns (l : RecordLayout) (m : Measure) (p : PlacedField) : Prop :=
  m.alignment ∣ l.alignment.toInt ∧ m.alignment ∣ p.offset.toInt

theorem not_isMisfit_of_ok (ht : t.IsUsual) (hl : t.recordLayout name fs = .ok l) :
    ∀ f ∈ fs, ¬f.IsMisfit := by
  by_contra hnot
  push Not at hnot
  obtain ⟨e, he⟩ := (place_error_iff ht.isPower).2 hnot
  cases he.symm.trans hl

theorem largestAlignment_eq (ht : t.IsUsual) (hfs : ∀ f ∈ fs, f.extent.measure.IsSound)
    {ps : List PlacedField} (h : List.Forall₂ t.Keeps fs ps) :
    largestAlignment ps = Measure.largest (fs.map (·.extent.measure)) := by
  rw [largestAlignment, map_alignment h, map_alignmentOf ht hfs]
  rfl

theorem nonempty_measure (ht : t.IsUsual) (hfs : ∀ f ∈ fs, f.extent.measure.IsSound)
    (hsize : l.size.toInt = t.exactSize fs)
    (halignment : l.alignment.toInt = Measure.largest (fs.map (·.extent.measure))) :
    l.nonempty.extent.measure = .record (fs.map (·.extent.measure)) := by
  have hzero : l.size = 0 ↔ t.exactSize fs = 0 := by
    rw [← hsize, ← Int64.toInt_inj]
    rfl
  unfold RecordLayout.nonempty Measure.record
  dsimp only
  rw [← exactSize_eq ht hfs, ← halignment]
  simp only [hzero]
  split
  · rfl
  · unfold RecordLayout.extent Extent.measure
    dsimp only
    rw [hsize]

theorem aligns_of_isPacked (ht : t.IsUsual) (hfs : ∀ f ∈ fs, f.extent.measure.IsSound)
    (hl : l.IsPacked) (h : List.Forall₂ t.Keeps fs l.fields) :
    List.Forall₂ l.Aligns (fs.map (·.extent.measure)) l.fields := by
  have hms : ∀ m ∈ fs.map (·.extent.measure), m.IsSound := by
    rintro _ hm
    obtain ⟨f, hf, rfl⟩ := List.mem_map.1 hm
    exact hfs f hf
  obtain ⟨hlength, hzip⟩ := List.forall₂_iff_zip.1 h
  rw [List.forall₂_map_left_iff]
  refine List.forall₂_iff_zip.2 ⟨hlength, fun {f p} hfp => ⟨?_, ?_⟩⟩
  · rw [hl.alignment, largestAlignment_eq ht hfs h]
    exact Measure.dvd_largest hms (List.mem_map_of_mem (List.of_mem_zip hfp).1)
  · -- the field starts at a multiple of the alignment that it got, and that is its own
    have halign := (hzip hfp).alignment
    rw [alignmentOf_eq ht (hfs f (List.of_mem_zip hfp).1)] at halign
    obtain ⟨before, after, heq⟩ := List.append_of_mem (List.of_mem_zip hfp).2
    rw [← halign]
    exact (hl.offsets before p after heq).1.1

theorem recordLayout_measure (ht : t.IsUsual) (hfs : ∀ f ∈ fs, f.extent.measure.IsSound)
    (hfit : (Measure.record (fs.map (·.extent.measure))).size < 2 ^ 63)
    (hl : t.recordLayout name fs = .ok l) :
    l.nonempty.extent.measure = .record (fs.map (·.extent.measure)) ∧
      List.Forall₂ l.Aligns (fs.map (·.extent.measure)) l.fields := by
  have hsize : t.exactSize fs < 2 ^ 63 := by
    unfold Measure.record at hfit
    dsimp only at hfit
    rw [← exactSize_eq ht hfs] at hfit
    split at hfit <;> omega
  obtain ⟨l', new, hok, -, hfields, hkeeps, hpacked, htotal⟩ :=
    place_isPacked name ht.isPower (not_isMisfit_of_ok ht hl) packing_nil hsize
  obtain rfl := Except.ok.inj (hok.symm.trans hl)
  obtain rfl : l'.fields = new := hfields
  have halignment := hpacked.alignment.trans (largestAlignment_eq ht hfs hkeeps)
  exact ⟨nonempty_measure ht hfs htotal halignment, aligns_of_isPacked ht hfs hpacked hkeeps⟩

end

/-! ## Known layouts -/

structure RecordLayout.IsExact (t : Target) (rs : Records) (id : RecordId) (l : RecordLayout) :
    Prop where
  takes : t.Takes rs (.record id) l.extent.measure
  aligned : (rs.get id).isPacked = false →
    List.Forall₂ (fun v p => ∃ m, t.Takes rs v m ∧ l.Aligns m p) (rs.get id).fields l.fields

def Known.IsExact (t : Target) (rs : Records) (k : Known) : Prop :=
  ∀ id l, k.lookup id = some l → t.Fits rs (.record id) → l.IsExact t rs id

/-- How computing a size ends: the known layouts are exact, and there is an answer that satisfies
`Q`, or else `C` does not hold. -/
inductive Outcome {α : Type} (t : Target) (rs : Records) (C : Prop) (Q : α → Prop) :
    Except Error α × Known → Prop
  | ok {a : α} {k : Known} (hk : k.IsExact t rs) (ha : Q a) : Outcome t rs C Q (.ok a, k)
  | error {e : Error} {k : Known} (hk : k.IsExact t rs) (hC : ¬C) : Outcome t rs C Q (.error e, k)

def Sized {α : Type} (t : Target) (rs : Records) (x : Sizing α) (k : Known) (C : Prop)
    (Q : α → Prop) : Prop :=
  Outcome t rs C Q (x.run k)

section
variable {α β : Type} {t : Target} {rs : Records} {x : Sizing α} {k : Known} {C C' : Prop}
  {Q : α → Prop} {Q' : β → Prop}

theorem Sized.pure {a : α} (hk : k.IsExact t rs) (ha : Q a) : Sized t rs (pure a) k C Q := .ok hk ha

theorem Sized.throw {e : Error} (hk : k.IsExact t rs) (hC : ¬C) :
    Sized t rs (throw e : Sizing α) k C Q := .error hk hC

theorem Sized.bind {f : α → Sizing β} (h : Sized t rs x k C Q) (hC : C' → C)
    (hf : ∀ a k', k'.IsExact t rs → Q a → Sized t rs (f a) k' C' Q') :
    Sized t rs (x >>= f) k C' Q' := by
  have hrun := Sizing.run_bind x f k
  unfold Sized at h ⊢
  rw [hrun]
  generalize x.run k = r at h ⊢
  cases h with
  | ok hk ha => exact hf _ _ hk ha
  | error hk hnot => exact .error hk fun h => hnot (hC h)

theorem Sized.answer {a : α} (h : Sized t rs x k C Q) (ha : (x.run k).1 = .ok a) : Q a := by
  unfold Sized at h
  generalize x.run k = r at h ha
  cases h with
  | ok _ hQ =>
    obtain rfl := Except.ok.inj ha
    exact hQ
  | error => cases ha

theorem Sized.total (h : Sized t rs x k C Q) (hC : C) : ∃ a, (x.run k).1 = .ok a := by
  unfold Sized at h
  generalize x.run k = r at h ⊢
  cases h with
  | ok => exact ⟨_, rfl⟩
  | error _ hnot => exact absurd hC hnot

theorem Sized.isExact (h : Sized t rs x k C Q) : (x.run k).2.IsExact t rs := by
  unfold Sized at h
  generalize x.run k = r at h ⊢
  cases h <;> assumption

theorem Sized.mono (h : Sized t rs x k C Q) (hC : C' → C) : Sized t rs x k C' Q := by
  unfold Sized at h ⊢
  generalize x.run k = r at h ⊢
  cases h with
  | ok hk ha => exact .ok hk ha
  | error hk hnot => exact .error hk fun h => hnot (hC h)

theorem Sized.get_bind {f : Known → Sizing α} (h : Sized t rs (f k) k C Q) :
    Sized t rs (get >>= f) k C Q := h

theorem Sized.rethrow {h : Error → Error} (hx : Sized t rs x k C Q) :
    Sized t rs (tryCatch x fun e => MonadExcept.throw (h e)) k C Q := by
  have hrun := Sizing.run_rethrow x h k
  unfold Sized at hx ⊢
  rw [hrun]
  generalize x.run k = r at hx ⊢
  cases hx with
  | ok hk ha => exact .ok hk ha
  | error hk hnot => exact .error hk hnot

theorem Known.IsExact.insert {id : RecordId} {l : RecordLayout} (hk : k.IsExact t rs)
    (hl : t.Fits rs (.record id) → l.IsExact t rs id) : Known.IsExact t rs ((id, l) :: k) := by
  intro id' l' hlookup
  rw [List.lookup_cons] at hlookup
  split at hlookup
  · rename_i he
    obtain rfl := Option.some.inj hlookup
    obtain rfl := eq_of_beq he
    exact hl
  · exact hk id' l' hlookup

end

/-! ## Types and their fields -/

section
variable {t : Target} {rs : Records} {id : RecordId} {u : Ty} {us : List Ty} {fs : List Field}
  {k : Known} {C : RecordId → Prop} {record : RecordId → Sizing RecordLayout}

def Field.IsFor (t : Target) (rs : Records) (isPacked : Bool) (u : Ty) (f : Field) : Prop :=
  ∃ m, t.Takes rs u m ∧ f.extent.measure = m.inRecord isPacked

theorem extentWith_sized (ht : t.IsUsual) (hk : k.IsExact t rs)
    (hrecord : ∀ id k, k.IsExact t rs →
      Sized t rs (record id) k (C id) fun l => t.Fits rs (.record id) → l.IsExact t rs id) :
    Sized t rs (t.extentWith rs record u) k
      (t.Fits rs u ∧ t.IsStorable rs u ∧ ∀ id, Holds rs u (.record id) → C id)
      fun e => t.Fits rs u → t.Takes rs u e.measure := by
  induction u using Target.extentWith.induct generalizing k with
  | case1 bits =>
    refine .pure hk fun hfits => ?_
    rw [intExtent_measure (hfits.bits .refl)]
    exact .int bits
  | case2 kind => exact .pure hk fun _ => .float kind
  | case3 elem => exact .pure hk fun _ => .pointer elem
  | case4 length elem ih =>
    refine .bind (ih hk) ?_ fun e k' hk' he => .pure hk' fun hfits => ?_
    · rintro ⟨hfits, hstorable, hC⟩
      exact ⟨hfits.part .elem, hstorable.part .elem, fun id hid => hC id (.head .elem hid)⟩
    · have he := he (hfits.part .elem)
      have hsize := toInt_mul_ofNat (he.isSound ht).nonneg (hfits.size .refl (.array length he))
      have harray := Target.Takes.array length he
      unfold Extent.measure at harray ⊢
      dsimp only at harray ⊢
      rwa [hsize]
  | case5 id =>
    refine .bind (hrecord id k hk) ?_ fun l k' hk' hl => .pure hk' fun hfits => (hl hfits).takes
    exact fun ⟨_, _, hC⟩ => hC id .refl
  | case6 u hint hfloat hpointer harray hid =>
    cases u with
    | int bits => exact (hint bits rfl).elim
    | float kind => exact (hfloat kind rfl).elim
    | pointer elem => exact (hpointer elem rfl).elim
    | array length elem => exact (harray length elem rfl).elim
    | record id => exact (hid id rfl).elim
    | _ => exact .throw hk fun h => h.2.1.sized .refl trivial

theorem fieldsWith_sized (ht : t.IsUsual) (hk : k.IsExact t rs)
    (hrecord : ∀ id k, k.IsExact t rs →
      Sized t rs (record id) k (C id) fun l => t.Fits rs (.record id) → l.IsExact t rs id) (index :
      Nat) :
    Sized t rs (t.fieldsWith rs record id index us) k
      (∀ u ∈ us, t.Fits rs u ∧ t.IsStorable rs u ∧ ∀ id, Holds rs u (.record id) → C id)
      (List.Forall₂ (fun u f => t.Fits rs u → f.IsFor t rs (rs.get id).isPacked u) us) := by
  induction us generalizing k index with
  | nil => exact .pure hk .nil
  | cons u us ih =>
    rw [Target.fieldsWith]
    refine .bind (.rethrow (extentWith_sized ht hk hrecord)) (fun h => h u List.mem_cons_self)
      fun e k' hk' he => ?_
    refine .bind (ih hk' (index + 1)) (fun h v hv => h v (List.mem_cons_of_mem u hv))
      fun fs k'' hk'' hfs => ?_
    refine .pure hk'' (.cons (fun hfits => ⟨e.measure, he hfits, ?_⟩) hfs)
    cases (rs.get id).isPacked <;> rfl

/-! ## Layouts of records -/

theorem forall₂_comp {α β γ : Type} {R : α → β → Prop} {S : β → γ → Prop} {as : List α}
    {bs : List β} {cs : List γ} (hR : List.Forall₂ R as bs) (hS : List.Forall₂ S bs cs) :
    List.Forall₂ (fun a c => ∃ b, R a b ∧ S b c) as cs := by
  induction hR generalizing cs with
  | nil =>
    cases hS
    exact .nil
  | cons hab _ ih =>
    cases hS with
    | cons hbc hS => exact .cons ⟨_, hab, hbc⟩ (ih hS)

theorem exists_of_mem_right {α β : Type} {R : α → β → Prop} {as : List α} {bs : List β} {b : β}
    (h : List.Forall₂ R as bs) (hb : b ∈ bs) : ∃ a ∈ as, R a b := by
  obtain ⟨hlength, hzip⟩ := List.forall₂_iff_zip.1 h
  rw [← List.map_snd_zip (Nat.le_of_eq hlength.symm)] at hb
  obtain ⟨⟨a, b⟩, hab, rfl⟩ := List.mem_map.1 hb
  exact ⟨a, (List.of_mem_zip hab).1, hzip hab⟩

theorem exists_measures {isPacked : Bool} (h : List.Forall₂ (Field.IsFor t rs isPacked) us fs) :
    ∃ ms, List.Forall₂ (t.Takes rs) us ms ∧
      fs.map (·.extent.measure) = ms.map (.inRecord isPacked) := by
  induction h with
  | nil => exact ⟨[], .nil, rfl⟩
  | cons hf _ ih =>
    obtain ⟨m, hm, hfm⟩ := hf
    obtain ⟨ms, hms, hfs⟩ := ih
    exact ⟨m :: ms, .cons hm hms, by rw [List.map_cons, List.map_cons, hfm, hfs]⟩

variable {l : RecordLayout} {name : String}

theorem Field.IsFor.isSound {isPacked : Bool} {f : Field} (ht : t.IsUsual)
    (h : f.IsFor t rs isPacked u) : f.extent.measure.IsSound := by
  obtain ⟨m, hm, hfm⟩ := h
  rw [hfm]
  exact (hm.isSound ht).inRecord isPacked

theorem pos_of_ok {isPacked : Bool} {ms : List Measure} (ht : t.IsUsual)
    (hfs : List.Forall₂ (Field.IsFor t rs isPacked) us fs)
    (hmap : fs.map (·.extent.measure) = ms.map (.inRecord isPacked))
    (hl : t.recordLayout name fs = .ok l) : ∀ m ∈ ms, 0 < m.size := by
  intro m hm
  have hmem : m.inRecord isPacked ∈ fs.map (·.extent.measure) := hmap ▸ List.mem_map_of_mem hm
  obtain ⟨f, hf, hfm⟩ := List.mem_map.1 hmem
  obtain ⟨u, -, hfor⟩ := exists_of_mem_right hfs hf
  have hsound := hfor.isSound ht
  have hnonneg := hsound.nonneg
  have hne : f.extent.measure.size ≠ 0 :=
    fun h => not_isMisfit_of_ok ht hl f hf ((isMisfit_iff hsound).2 h)
  rw [hfm, Measure.size_inRecord] at hnonneg hne
  omega

theorem isExact_of_ok (ht : t.IsUsual) (hvisible : (rs.get id).isOpaque = false)
    (hfits : t.Fits rs (.record id))
    (hfs : List.Forall₂ (Field.IsFor t rs (rs.get id).isPacked) (rs.get id).fields fs)
    (hl : t.recordLayout name fs = .ok l) : l.nonempty.IsExact t rs id := by
  obtain ⟨ms, hms, hmap⟩ := exists_measures hfs
  have hsound : ∀ f ∈ fs, f.extent.measure.IsSound := by
    intro f hf
    obtain ⟨u, -, hfor⟩ := exists_of_mem_right hfs hf
    exact hfor.isSound ht
  have htakes := Target.Takes.of_fields hvisible hms (pos_of_ok ht hfs hmap hl)
  rw [← hmap] at htakes
  obtain ⟨hmeasure, haligns⟩ := recordLayout_measure ht hsound (hfits.size .refl htakes) hl
  refine ⟨hmeasure ▸ htakes, fun hunpacked => ?_⟩
  rw [hmap, hunpacked, List.forall₂_map_left_iff] at haligns
  rw [RecordLayout.fields_nonempty]
  refine (forall₂_comp hms haligns).imp fun u p ⟨m, hm, halign⟩ => ⟨m, hm, ?_⟩
  rw [RecordLayout.Aligns, RecordLayout.alignment_nonempty]
  exact halign

theorem exists_ok (ht : t.IsUsual) (name : String) (hvisible : (rs.get id).isOpaque = false)
    (hstorable : t.IsStorable rs (.record id))
    (hfs : List.Forall₂ (Field.IsFor t rs (rs.get id).isPacked) (rs.get id).fields fs) :
    ∃ l, t.recordLayout name fs = .ok l := by
  cases hl : t.recordLayout name fs with
  | ok l => exact ⟨l, rfl⟩
  | error e =>
    obtain ⟨f, hf, hmisfit⟩ := (place_error_iff ht.isPower).1 ⟨e, hl⟩
    obtain ⟨u, hu, hfor⟩ := exists_of_mem_right hfs hf
    have hzero := (isMisfit_iff (hfor.isSound ht)).1 hmisfit
    obtain ⟨⟨size, alignment⟩, hm, hfm⟩ := hfor
    rw [hfm, Measure.size_inRecord] at hzero
    obtain rfl : size = 0 := hzero
    exact absurd hm (hstorable.nonempty .refl (.field hvisible hu))

/-- Records that lie in records, at any depth. -/
def Nests (rs : Records) (id id' : RecordId) : Prop :=
  Relation.TransGen (IsPart rs) (.record id) (.record id')

theorem layoutTo_sized (ht : t.IsUsual) (hk : k.IsExact t rs) (depth : Nat) (id : RecordId) :
    Sized t rs (t.layoutTo rs depth id) k
      (t.Fits rs (.record id) ∧ t.IsStorable rs (.record id) ∧ IsShallow (Nests rs) depth id)
      fun l => t.Fits rs (.record id) → l.IsExact t rs id := by
  induction depth generalizing id k with
  | zero => exact .throw hk fun h => h.2.2
  | succ depth ih =>
    refine .get_bind ?_
    split
    · rename_i l hl
      exact .pure hk (hk id l hl)
    rename_i hl
    dsimp only
    split
    · rename_i hopaque
      exact .throw hk fun h => h.2.1.sized .refl hopaque
    rename_i hvisible
    rw [Bool.not_eq_true] at hvisible
    -- not known yet: the records in the fields nest less deep, so the induction covers their
    -- layouts
    refine .bind (fieldsWith_sized ht hk (fun id k hk => ih hk id) 0) ?_ fun fs k' hk' hfs => ?_
    · intro ⟨hfits, hstorable, hshallow⟩ u hu
      have hpart := IsPart.field hvisible hu
      refine ⟨hfits.part hpart, hstorable.part hpart, fun id' hid' => ?_⟩
      have hholds : Holds rs (.record id) (.record id') := .head hpart hid'
      have hnests : Nests rs id id' := .head' hpart hid'
      exact ⟨hfits.holds hholds, hstorable.holds hholds, hshallow id' hnests⟩
    -- only what fits is measured, but what does not fit must leave the known layouts exact too
    have hfor (hfits : t.Fits rs (.record id)) :
        List.Forall₂ (Field.IsFor t rs (rs.get id).isPacked) (rs.get id).fields fs := by
      refine (List.forall₂_and_left _ _).2 ⟨fun u hu => hfits.part (.field hvisible hu),
        hfs⟩ |>.imp ?_
      exact fun u f ⟨hu, hf⟩ => hf hu
    cases hplaced : t.recordLayout (rs.get id).name fs with
    | error e =>
      refine .throw hk' fun ⟨hfits, hstorable, _⟩ => ?_
      obtain ⟨l, hok⟩ := exists_ok ht (rs.get id).name hvisible hstorable (hfor hfits)
      cases hplaced.symm.trans hok
    | ok placed =>
      have hexact (hfits : t.Fits rs (.record id)) : placed.nonempty.IsExact t rs id :=
        isExact_of_ok ht hvisible hfits (hfor hfits) hplaced
      exact .ok (hk'.insert hexact) hexact

/-! ## Types -/

theorem nests_of_transGen {id id' : RecordId} (h : Relation.TransGen (Nests rs) id id') :
    Nests rs id id' := by
  induction h with
  | single h => exact h
  | tail _ h ih => exact ih.trans h

theorem mem_range_of_nests {id id' : RecordId} (h : Nests rs id id') :
    id ∈ List.range rs.length := by
  obtain ⟨v, hv, -⟩ := Relation.TransGen.head'_iff.1 h
  cases hv with
  | field _ hv =>
    rw [List.mem_range]
    by_contra hnot
    rw [Records.get, List.getElem?_eq_none (Nat.le_of_not_lt hnot)] at hv
    cases hv

theorem isShallow_nests (h : IsAcyclicFrom (IsPart rs) u) (hid : Holds rs u (.record id)) :
    IsShallow (Nests rs) (rs.length + 1) id := by
  have hacyclic : IsAcyclicFrom (Nests rs) id := by
    intro id' hreach hcycle
    refine h (.record id') (hid.trans ?_) (nests_of_transGen hcycle)
    rcases Relation.reflTransGen_iff_eq_or_transGen.1 hreach with rfl | hnests
    · exact .refl
    · exact (nests_of_transGen hnests).to_reflTransGen
  have hshallow := hacyclic.isShallow fun _ _ => mem_range_of_nests
  rwa [List.length_range] at hshallow

theorem layout_sized (ht : t.IsUsual) (hk : k.IsExact t rs) (id : RecordId) :
    Sized t rs (t.layout rs id) k
      (t.Fits rs (.record id) ∧ t.IsStorable rs (.record id) ∧
        IsAcyclicFrom (IsPart rs) (.record id))
      fun l => t.Fits rs (.record id) → l.IsExact t rs id :=
  (layoutTo_sized ht hk (rs.length + 1) id).mono fun ⟨hfits, hstorable, hacyclic⟩ =>
    ⟨hfits, hstorable, isShallow_nests hacyclic .refl⟩

theorem extent_sized (ht : t.IsUsual) (hk : k.IsExact t rs) (u : Ty) :
    Sized t rs (t.extent rs u) k (t.Fits rs u ∧ t.IsStorable rs u ∧ IsAcyclicFrom (IsPart rs) u)
      fun e => t.Fits rs u → t.Takes rs u e.measure :=
  (extentWith_sized ht hk fun id _ hk => layoutTo_sized ht hk (rs.length + 1) id).mono
    fun ⟨hfits, hstorable, hacyclic⟩ => ⟨hfits, hstorable, fun _ hid =>
      ⟨hfits.holds hid, hstorable.holds hid, isShallow_nests hacyclic hid⟩⟩

inductive Target.Reaches (t : Target) (rs : Records) : Known → Prop
  | start : Reaches t rs []
  | extent {k : Known} (u : Ty) (hk : Reaches t rs k) : Reaches t rs ((t.extent rs u).run k).2
  | layout {k : Known} (id : RecordId) (hk : Reaches t rs k) :
      Reaches t rs ((t.layout rs id).run k).2

theorem Target.Reaches.isExact (ht : t.IsUsual) (h : t.Reaches rs k) : k.IsExact t rs := by
  induction h with
  | start =>
    intro id l hl
    cases hl
  | extent u _ ih => exact (extent_sized ht ih u).isExact
  | layout id _ ih => exact (layout_sized ht ih id).isExact

theorem measure_inj {e e' : Extent} (h : e.measure = e'.measure) : e = e' := by
  obtain ⟨size, alignment⟩ := e
  obtain ⟨size', alignment'⟩ := e'
  obtain ⟨hsize, halignment⟩ := Measure.mk.inj h
  obtain rfl : size = size' := Int64.toInt_inj.1 hsize
  obtain rfl : alignment = alignment' := Int64.toInt_inj.1 halignment
  rfl

/-- **Sizes are exact.** On the targets that triples name, whatever was asked before, a type that
does not hold itself and whose exact sizes are within words has a size and an alignment if and only
if nothing in it is without a size and no field is without bytes. The size is then the exact one,
the alignment is a power of two up to sixteen, and the size a multiple of it. In a record that is
not packed, each field and the record itself are aligned as the type of the field asks. -/
theorem extent_exact {triple : String} (htriple : Target.ofTriple triple = .ok t)
    (hk : t.Reaches rs k) (hu : IsAcyclicFrom (IsPart rs) u) (hfits : t.Fits rs u) :
    ((∃ e, ((t.extent rs u).run k).1 = .ok e) ↔ t.IsStorable rs u) ∧
      ∀ e, ((t.extent rs u).run k).1 = .ok e →
        t.Takes rs u e.measure ∧ IsSmallPower e.alignment.toInt ∧ e.alignment.toInt ∣ e.size.toInt ∧
        ∀ id, u = .record id → (rs.get id).isPacked = false →
          ∃ l, ((t.layout rs id).run k).1 = .ok l ∧ l.extent = e ∧
            List.Forall₂ (fun v p => ∃ e', ((t.extent rs v).run k).1 = .ok e' ∧
              e'.alignment.toInt ∣ l.alignment.toInt ∧ e'.alignment.toInt ∣ p.offset.toInt)
              (rs.get id).fields l.fields := by
  have ht := Target.isUsual_ofTriple htriple
  have hexact := hk.isExact ht
  have hsized := extent_sized ht hexact u
  refine ⟨⟨fun ⟨e, he⟩ => ?_, fun hstorable => hsized.total ⟨hfits, hstorable, hu⟩⟩, fun e he => ?_⟩
  · exact (hsized.answer he hfits).isStorable
  have htakes := hsized.answer he hfits
  have hsound := htakes.isSound ht
  refine ⟨htakes, hsound.alignment, hsound.dvd, ?_⟩
  rintro id rfl hunpacked
  have hvisible : (rs.get id).isOpaque = false := Bool.not_eq_true _ ▸ htakes.sized
  have hlayout := layout_sized ht hexact id
  obtain ⟨l, hl⟩ := hlayout.total ⟨hfits, htakes.isStorable, hu⟩
  have hl' := hlayout.answer hl hfits
  refine ⟨l, hl, measure_inj (hl'.takes.functional htakes), ?_⟩
  obtain ⟨hlength, hzip⟩ := List.forall₂_iff_zip.1 (hl'.aligned hunpacked)
  refine List.forall₂_iff_zip.2 ⟨hlength, fun {v p} hvp => ?_⟩
  obtain ⟨m, hm, halignment, hoffset⟩ := hzip hvp
  -- the field's type is asked for like any other
  have hpart : IsPart rs (.record id) v := .field hvisible (List.of_mem_zip hvp).1
  have hfield := extent_sized ht hexact v
  obtain ⟨e', he'⟩ := hfield.total ⟨hfits.part hpart, hm.isStorable, hu.step hpart⟩
  obtain rfl := (hfield.answer he' (hfits.part hpart)).functional hm
  exact ⟨e', he', halignment, hoffset⟩

/-- Rows of three packed pairs, a number of 17 bits, nothing and a pointer. -/
def rowRecords : Records :=
  [⟨"Pair", [.i1, .double], true, false⟩, ⟨"Nothing", [], false, false⟩,
    ⟨"Row", [.array 3 (.record 0), .int 17, .record 1, .bytes], false, false⟩]

def rowParts : List Ty :=
  [.i1, .double, .int 17, .bytes, .record 0, .record 1, .array 3 (.record 0), .record 2]

theorem takes_pair : Target.Takes ⟨4, 4, 16⟩ rowRecords (.record 0) ⟨9, 1⟩ := by
  have hfields :
      List.Forall₂ (Target.Takes ⟨4, 4, 16⟩ rowRecords) [.i1, .double] [⟨1, 1⟩, ⟨8, 4⟩] :=
    .cons (.int 1) (.cons (.float .double) .nil)
  have hpair : Target.Takes ⟨4, 4, 16⟩ rowRecords (.record 0) _ :=
    .of_fields rfl hfields (by decide)
  exact hpair

theorem takes_nothing : Target.Takes ⟨4, 4, 16⟩ rowRecords (.record 1) ⟨1, 1⟩ := by
  have hnothing : Target.Takes ⟨4, 4, 16⟩ rowRecords (.record 1) _ :=
    .of_fields rfl .nil (by decide)
  exact hnothing

theorem takes_row : Target.Takes ⟨4, 4, 16⟩ rowRecords (.record 2) ⟨40, 4⟩ := by
  have hfields : List.Forall₂ (Target.Takes ⟨4, 4, 16⟩ rowRecords)
      [.array 3 (.record 0), .int 17, .record 1, .bytes] [⟨27, 1⟩, ⟨4, 4⟩, ⟨1, 1⟩, ⟨4, 4⟩] :=
    .cons (.array 3 takes_pair) (.cons (.int 17) (.cons takes_nothing (.cons (.pointer .i8) .nil)))
  have hrow : Target.Takes ⟨4, 4, 16⟩ rowRecords (.record 2) _ := .of_fields rfl hfields (by decide)
  exact hrow

theorem holds_row {v : Ty} (h : Holds rowRecords (.record 2) v) : v ∈ rowParts :=
  h.mem (by decide) (by decide)

theorem fits_row : Target.Fits ⟨4, 4, 16⟩ rowRecords (.record 2) where
  bits {bits} h := by
    have hbits := holds_row h
    simp only [rowParts, Ty.i1, Ty.double, Ty.bytes, List.mem_cons, Ty.int.injEq, reduceCtorEq,
      false_or, or_false, List.not_mem_nil] at hbits
    omega
  size {v m} h hm := by
    have hsizes : ∀ v ∈ rowParts, ∃ m, Target.Takes ⟨4, 4, 16⟩ rowRecords v m ∧
        m.size < 2 ^ 63 := by
      simp only [rowParts, List.forall_mem_cons]
      exact ⟨⟨_, .int 1, by decide⟩, ⟨_, .float .double, by decide⟩, ⟨_, .int 17, by decide⟩,
        ⟨_, .pointer _, by decide⟩, ⟨_, takes_pair, by decide⟩, ⟨_, takes_nothing, by decide⟩,
        ⟨_, .array 3 takes_pair, by decide⟩, ⟨_, takes_row, by decide⟩, List.forall_mem_nil _⟩
    obtain ⟨m', hm', hlt⟩ := hsizes v (holds_row h)
    rwa [hm.functional hm']

/-- On 32-bit x86 a row takes 40 bytes: 27 for the pairs, one to align the number, four for it, one
for nothing and three to align the pointer, which takes four. -/
theorem extent_exact_row :
    let t : Target := ⟨4, 4, 16⟩
    let k := ((t.layout rowRecords 0).run []).2
    Target.ofTriple "i386-unknown-linux-gnu" = .ok t ∧ t.Reaches rowRecords k ∧
      IsAcyclicFrom (IsPart rowRecords) (.record 2) ∧ t.Fits rowRecords (.record 2) ∧
      ((t.extent rowRecords (.record 2)).run k).1 = .ok ⟨40, 4⟩ := by
  intro t k
  have htriple : Target.ofTriple "i386-unknown-linux-gnu" = .ok t := by
    simp [Target.ofTriple, architectures64, architectures32, architecturesX86, occursIn]
    rfl
  have hk : t.Reaches rowRecords k := .layout 0 .start
  have hparts : ∀ b ∈ rowParts, ∀ c ∈ partsOf rowRecords b, c ∈ rowParts ∧
      rowParts.idxOf c < rowParts.idxOf b := by
    decide
  have hacyclic : IsAcyclicFrom (IsPart rowRecords) (.record 2) :=
    .of_rank (S := (· ∈ rowParts)) rowParts.idxOf (fun b hb c hc => hparts b hb c hc.mem_partsOf)
      (by decide)
  obtain ⟨hsized, hsizes⟩ := extent_exact htriple hk hacyclic fits_row
  obtain ⟨e, he⟩ := hsized.2 takes_row.isStorable
  obtain rfl : e = ⟨40, 4⟩ := measure_inj ((hsizes e he).1.functional takes_row)
  exact ⟨htriple, hk, hacyclic, fits_row, he⟩

end

end CheckedIR.Layout

import CheckedIR.Layout.Sizes

/-!
# Extents of records

The size and alignment of a record is a function of the types of its fields, whatever layouts are
known already, as long as those are right. Records hold scalars, pointers and strings, so they nest
one deep.
-/

namespace CheckedIR.Layout

open CheckedIR.Ir

def Field.extent (f : Field) : Extent := ⟨f.size, f.alignment⟩

def RecordLayout.extent (l : RecordLayout) : Extent := ⟨l.size, l.alignment⟩

/-! ## Without names -/

namespace Target

variable (t : Target)

def spread? (offset alignment : Int64) : List Extent → Option Extent
  | [] => some ⟨alignUp offset alignment, alignment⟩
  | e :: es =>
    if e.size ≤ 0 then none
    else (t.fieldAlignment ⟨"", "", e.size, e.alignment⟩).toOption.bind fun a =>
      spread? (alignUp offset a + e.size) (max alignment a) es

def span? (es : List Extent) : Option Extent :=
  (t.spread? 0 1 es).map fun e => if e.size = 0 then { e with size := 1 } else e

def stringExtent? : Option Extent := t.span? [⟨t.pointerSize, t.pointerSize⟩, intExtent 32]

def fieldExtent? : Ty → Option Extent
  | .int bits => some (intExtent bits)
  | .float kind => some (t.floatExtent kind)
  | .pointer _ => some ⟨t.pointerSize, t.pointerSize⟩
  | .record _ => t.stringExtent?
  | _ => none

def objectExtent? (fields : List Ty) : Option Extent := (fields.mapM t.fieldExtent?).bind t.span?

variable {t}

theorem objectExtent?_string : t.objectExtent? [.bytes, .i32] = t.stringExtent? := rfl

theorem fieldAlignment_extent (f : Field) :
    (t.fieldAlignment f).toOption =
    (t.fieldAlignment ⟨"", "", f.extent.size, f.extent.alignment⟩).toOption := by
  unfold fieldAlignment Field.extent
  dsimp only
  generalize (if f.alignment ≤ 0 then 1 else f.alignment) = a
  split <;> rfl

theorem place_extent (name : String) (placed : List PlacedField) (padding : List Padding)
    (offset alignment : Int64) (fs : List Field) :
    (t.place name placed padding offset alignment fs).toOption.map RecordLayout.extent =
      t.spread? offset alignment (fs.map Field.extent) := by
  induction fs generalizing placed padding offset alignment with
  | nil => rfl
  | cons f fs ih =>
    rw [List.map_cons, spread?, place]
    by_cases hsize : f.size ≤ 0
    · simp only [hsize, Field.extent, if_true]
      rfl
    have ha := fieldAlignment_extent (t := t) f
    simp only [Field.extent] at ha
    simp only [hsize, Field.extent, if_false, ← ha]
    cases t.fieldAlignment f with
    | error e => rfl
    | ok a => exact ih _ _ _ _

end Target

/-! ## Known layouts -/

def IsFlat (string? : Option RecordId) : Ty → Prop
  | .void | .int _ | .float _ | .pointer _ => True
  | .record r => string? = some r
  | _ => False

structure FlatRecords (rs : Records) (string? : Option RecordId) : Prop where
  unpacked : ∀ r, (rs.get r).isPacked = false
  string : ∀ r, string? = some r → ∃ rec : Record, rs[r]? = some rec ∧ rec.isOpaque = false ∧
    rec.fields = [.bytes, .i32]
  fields : ∀ (r : RecordId) (rec : Record), rs[r]? = some rec → ∀ u ∈ rec.fields, IsFlat string? u

def RecordLayout.nonempty (l : RecordLayout) : RecordLayout :=
  if l.size = 0 then { l with size := 1 } else l

@[simp] theorem RecordLayout.fields_nonempty (l : RecordLayout) : l.nonempty.fields = l.fields := by
  unfold nonempty
  split <;> rfl

@[simp] theorem RecordLayout.alignment_nonempty (l : RecordLayout) :
    l.nonempty.alignment = l.alignment := by
  unfold nonempty
  split <;> rfl

def RecordLayout.IsOf (t : Target) (rec : Record) (l : RecordLayout) : Prop :=
  ∃ fs placed, rec.fields.mapM t.fieldExtent? = some (fs.map Field.extent) ∧
    t.recordLayout rec.name fs = .ok placed ∧ l = placed.nonempty

theorem RecordLayout.IsOf.extent {t : Target} {rec : Record} {l : RecordLayout} (h : l.IsOf t rec) :
    t.objectExtent? rec.fields = some l.extent := by
  obtain ⟨fs, placed, hfs, hplaced, rfl⟩ := h
  have hspread := t.place_extent rec.name [] [] 0 1 fs
  unfold Target.recordLayout at hplaced
  rw [hplaced] at hspread
  rw [Target.objectExtent?, hfs]
  change (t.spread? 0 1 _).map _ = _
  rw [← hspread]
  change some (if placed.size = 0 then _ else _) =
    some (RecordLayout.extent (if placed.size = 0 then _ else _))
  split <;> rfl

/-- The known layouts are those of the records they are for, and they are for records that satisfy
`P`. -/
def Known.IsRight (t : Target) (rs : Records) (P : RecordId → Prop) (k : Known) : Prop :=
  ∀ r l, k.lookup r = some l → P r ∧ ∃ rec : Record, rs[r]? = some rec ∧ rec.isOpaque = false ∧
    l.IsOf t rec

structure Sizes {α β : Type} (t : Target) (rs : Records) (P : RecordId → Prop) (x : Sizing α)
    (k : Known) (view : α → β) (b? : Option β) : Prop where
  answer : (x.run k).1.toOption.map view = b?
  right : (x.run k).2.IsRight t rs P

section
variable {α β γ δ : Type} {t : Target} {rs : Records} {P : RecordId → Prop} {k : Known}
  {x : Sizing α} {view : α → β} {b? : Option β}

theorem Sizing.run_bind (x : Sizing α) (f : α → Sizing γ) (k : Known) :
    (x >>= f).run k =
      match x.run k with
      | (.ok a, k') => (f a).run k'
      | (.error e, k') => (.error e, k') := by
  simp only [ExceptT.run, bind, ExceptT.bind, ExceptT.mk, StateT.bind]
  rcases x k with ⟨e | a, k'⟩ <;> rfl

theorem Sizing.run_rethrow (x : Sizing α) (h : Error → Error) (k : Known) :
    (tryCatch x fun e => MonadExcept.throw (h e)).run k =
      match x.run k with
      | (.ok a, k') => (.ok a, k')
      | (.error e, k') => (.error (h e), k') := by
  simp only [ExceptT.run, tryCatch, tryCatchThe, MonadExceptOf.tryCatch, ExceptT.tryCatch,
    ExceptT.mk, Bind.bind, StateT.bind]
  rcases x k with ⟨e | a, k'⟩ <;> rfl

theorem Sizing.run_get_bind (f : Known → Sizing γ) (k : Known) : (get >>= f).run k = (f k).run k :=
  rfl

theorem Sizes.pure {a : α} (hk : k.IsRight t rs P) : Sizes t rs P (pure a) k view (some (view a)) :=
  ⟨rfl, hk⟩

theorem Sizes.throw {e : Error} (hk : k.IsRight t rs P) :
    Sizes t rs P (throw e : Sizing α) k view none := ⟨rfl, hk⟩

theorem Sizes.bind {f : α → Sizing γ} {view' : γ → δ} {g : β → Option δ}
    (h : Sizes t rs P x k view b?)
    (hf : ∀ a k', b? = some (view a) → k'.IsRight t rs P →
      Sizes t rs P (f a) k' view' (g (view a))) : Sizes t rs P (x >>= f) k view' (b?.bind g) := by
  obtain ⟨rfl, hright⟩ := h
  have hrun := Sizing.run_bind x f k
  revert hf hright hrun
  rcases x.run k with ⟨e | a, k'⟩
  · exact fun hright _ hrun => ⟨by rw [hrun]; rfl, by rw [hrun]; exact hright⟩
  · intro hright hf hrun
    obtain ⟨ha, hr⟩ := hf a k' rfl hright
    exact ⟨by rw [hrun]; exact ha, by rw [hrun]; exact hr⟩

theorem Sizes.get_bind {f : Known → Sizing α} (h : Sizes t rs P (f k) k view b?) :
    Sizes t rs P (get >>= f) k view b? :=
  ⟨h.answer, h.right⟩

theorem Sizes.rethrow {h : Error → Error} (hx : Sizes t rs P x k view b?) :
    Sizes t rs P (tryCatch x fun e => MonadExcept.throw (h e)) k view b? := by
  have hrun := Sizing.run_rethrow x h k
  obtain ⟨rfl, hright⟩ := hx
  constructor
  · rw [hrun]
    rcases x.run k with ⟨e | a, k'⟩ <;> rfl
  · rw [hrun]
    revert hright
    rcases x.run k with ⟨e | a, k'⟩ <;> exact id

/-! ## Fields and records -/

theorem extentWith_sizes {string? : Option RecordId} {record : RecordId → Sizing RecordLayout}
    {u : Ty} (hu : IsFlat string? u) (hk : k.IsRight t rs P)
    (hrecord : ∀ r, u = .record r → Sizes t rs P (record r) k RecordLayout.extent t.stringExtent?) :
    Sizes t rs P (t.extentWith rs record u) k id (t.fieldExtent? u) := by
  unfold Target.extentWith
  cases u with
  | int | float | pointer => exact .pure hk
  | void => exact .throw hk
  | record r =>
    have hbind :
        Sizes t rs P (record r >>= fun l => pure l.extent) k id (t.stringExtent?.bind some) :=
      (hrecord r rfl).bind fun l k' _ hk' => .pure hk'
    rwa [Option.bind_fun_some] at hbind
  | _ => exact hu.elim

theorem fieldsWith_sizes {string? : Option RecordId} {record : RecordId → Sizing RecordLayout}
    {id : RecordId} {index : Nat} {us : List Ty} (hpacked : (rs.get id).isPacked = false)
    (hus : ∀ u ∈ us, IsFlat string? u) (hk : k.IsRight t rs P)
    (hrecord : ∀ r k, .record r ∈ us → k.IsRight t rs P →
      Sizes t rs P (record r) k RecordLayout.extent t.stringExtent?) :
    Sizes t rs P (t.fieldsWith rs record id index us) k (List.map Field.extent)
    (us.mapM t.fieldExtent?) := by
  induction us generalizing k index with
  | nil => exact .pure hk
  | cons u us ih =>
    rw [Target.fieldsWith, List.mapM_cons]
    refine .bind (.rethrow (extentWith_sizes (hus u List.mem_cons_self) hk ?_)) fun e k' _ hk' => ?_
    · rintro r rfl
      exact hrecord r k List.mem_cons_self hk
    refine .bind (ih (fun v hv => hus v (List.mem_cons_of_mem u hv)) hk' ?_) fun fs k'' _ hk'' => ?_
    · exact fun r k hr hk => hrecord r k (List.mem_cons_of_mem u hr) hk
    · rw [hpacked]
      exact .pure hk''

theorem Known.IsRight.insert {r : RecordId} {rec : Record} {l : RecordLayout}
    (hk : k.IsRight t rs P) (hr : rs[r]? = some rec)
    (hvisible : rec.isOpaque = false) (hP : P r) (hl : l.IsOf t rec) :
    Known.IsRight t rs P ((r, l) :: k) := by
  intro q l' hq
  rw [List.lookup_cons] at hq
  split at hq
  · rename_i he
    obtain rfl := Option.some.inj hq
    obtain rfl := eq_of_beq he
    exact ⟨hP, rec, hr, hvisible, hl⟩
  · exact hk q l' hq

/-- A record of fields that have extents has the extent that they make, whether it is known or not.
-/
theorem layoutTo_sizes {string? : Option RecordId} {depth : Nat} {r : RecordId} {rec : Record}
    (hflat : FlatRecords rs string?) (hr : rs[r]? = some rec) (hvisible : rec.isOpaque = false)
    (hP : P r) (hk : k.IsRight t rs P)
    (hrecord : ∀ q k, .record q ∈ rec.fields → k.IsRight t rs P →
      Sizes t rs P (t.layoutTo rs depth q) k RecordLayout.extent t.stringExtent?) :
    Sizes t rs P (t.layoutTo rs (depth + 1) r) k RecordLayout.extent
    (t.objectExtent? rec.fields) := by
  have hget : rs.get r = rec := by
    unfold Records.get
    rw [hr]
    rfl
  refine .get_bind ?_
  split
  · rename_i l hl
    obtain ⟨-, rec', hr', -, hof⟩ := hk r l hl
    obtain rfl := Option.some.inj (hr.symm.trans hr')
    rw [hof.extent]
    exact .pure hk
  rename_i hl
  dsimp only
  rw [hget, hvisible]
  refine .bind (fieldsWith_sizes (hflat.unpacked r) (hflat.fields r rec hr) hk hrecord)
    fun fs k' hfs hk' => ?_
  have hspread := t.place_extent rec.name [] [] 0 1 fs
  change Sizes t rs P
    (((t.recordLayout rec.name fs : Except Error RecordLayout) : Sizing RecordLayout) >>= _) k' _ _
  cases hplaced : t.recordLayout rec.name fs with
  | error e =>
    unfold Target.recordLayout at hplaced
    rw [hplaced] at hspread
    rw [Target.span?, ← hspread]
    exact .throw hk'
  | ok placed =>
    have hof : placed.nonempty.IsOf t rec := ⟨fs, placed, hfs, hplaced, rfl⟩
    -- the record is laid out for the first time and becomes known
    have hext := hof.extent
    rw [Target.objectExtent?, hfs, Option.bind_some] at hext
    rw [hext]
    exact ⟨rfl, hk'.insert hr hvisible hP hof⟩

theorem layout_sizes {string? : Option RecordId} {r : RecordId} {rec : Record}
    (hflat : FlatRecords rs string?)
    (hr : rs[r]? = some rec) (hP : P r) (hstring : ∀ q, string? = some q → P q)
    (hk : k.IsRight t rs P) :
    Sizes t rs P (t.layout rs r) k RecordLayout.extent (if rec.isOpaque then none else
      t.objectExtent? rec.fields) := by
  unfold Target.layout
  split
  · rename_i hvisible
    unfold Target.layoutTo
    refine .get_bind ?_
    split
    · rename_i l hl
      obtain ⟨-, rec', hr', hvisible', -⟩ := hk r l hl
      obtain rfl := Option.some.inj (hr.symm.trans hr')
      rw [hvisible] at hvisible'
      cases hvisible'
    · have hget : rs.get r = rec := by
        unfold Records.get
        rw [hr]
        rfl
      dsimp only
      rw [hget, hvisible]
      exact .throw hk
  · rename_i hvisible
    have hlt := (List.getElem?_eq_some_iff.1 hr).1
    obtain ⟨depth, hdepth⟩ : ∃ depth, rs.length = depth + 1 := ⟨rs.length - 1, by omega⟩
    refine layoutTo_sizes hflat hr (by simpa using hvisible) hP hk fun q k hq hk => ?_
    -- a record in a field is that of strings, which has no record inside
    have hq' := hflat.fields r rec hr _ hq
    obtain ⟨rec', hr', hvisible', hfields⟩ := hflat.string q hq'
    rw [hdepth, ← Target.objectExtent?_string, ← hfields]
    refine layoutTo_sizes hflat hr' hvisible' (hstring q hq') hk fun q' k' hq' => ?_
    simp [hfields, Ty.bytes, Ty.i32] at hq'

theorem lookup_layoutTo {depth : Nat} {r : RecordId} {l : RecordLayout} {k' : Known}
    (h : (t.layoutTo rs depth r).run k = (.ok l, k')) : k'.lookup r = some l := by
  cases depth with
  | zero => cases h
  | succ depth =>
    unfold Target.layoutTo at h
    rw [Sizing.run_get_bind] at h
    cases hl : k.lookup r with
    | some l' =>
      rw [hl] at h
      obtain ⟨hok, rfl⟩ := Prod.mk.inj h
      rw [hl, Except.ok.inj hok]
    | none =>
      rw [hl] at h
      dsimp only at h
      split at h
      · cases h
      rw [Sizing.run_bind] at h
      revert h
      rcases (t.fieldsWith rs (t.layoutTo rs depth) r 0 (rs.get r).fields).run k with ⟨e | fs, k₁⟩
      · exact fun h => by cases h
      intro h
      change (((t.recordLayout (rs.get r).name fs : Except Error RecordLayout) : Sizing
        RecordLayout) >>= _).run k₁ = _ at h
      cases hplaced : t.recordLayout (rs.get r).name fs with
      | error e =>
        rw [hplaced] at h
        cases h
      | ok placed =>
        rw [hplaced] at h
        obtain ⟨hok, rfl⟩ := Prod.mk.inj h
        rw [List.lookup_cons_self, ← Except.ok.inj hok]

end

end CheckedIR.Layout

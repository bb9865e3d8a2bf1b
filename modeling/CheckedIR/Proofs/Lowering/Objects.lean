import CheckedIR.Proofs.Layout.Bounds
import CheckedIR.Proofs.Lowering.Sound

/-!
# Records of object types

Every record was made for one object type or for strings. Its fields so far are lowered from the
first stored properties of its type, in their order; when it has all of them it does not change any
more. Only then is it laid out, so the known layouts are right.
-/

namespace CheckedIR.Lowering

open CheckedIR.Ir CheckedIR.Program CheckedIR.Scope

section
variable {p : Program} {s t : State} {r : RecordId}

/-! ## Records that are complete -/

theorem Filled.kept (hc : Change p s t) (h : Filled p s r) {rec : Record}
    (hr : s.module.records[r]? = some rec) : t.module.records[r]? = some rec := by
  have hlt := (List.getElem?_eq_some_iff.1 hr).1
  cases hc with
  | stringRecord | objectRecord =>
    simp only [defining]
    rw [List.getElem?_append_left hlt, hr]
  | field q u rec' x v hobject hrec hvisible hnext =>
    have hne : q ≠ r := by
      rintro rfl
      obtain rfl := Option.some.inj (hr.symm.trans hrec)
      rcases h u rec hobject hr with ho | hfull
      · rw [ho] at hvisible
        cases hvisible
      · rw [hfull, List.getElem?_eq_none (Nat.le_refl _)] at hnext
        cases hnext
    simp only [Module.modifyRecord]
    rw [List.getElem?_modify_ne _ _ hne, hr]
  | number m hm => exact hm.records.symm ▸ hr
  | _ => exact hr

theorem Filled.step (hc : Change p s t) (hlt : r < s.module.records.length) (h : Filled p s r) :
    Filled p t r := by
  have hkept := h.kept hc (List.getElem?_eq_getElem hlt)
  intro u rec hu hrec
  obtain rfl := Option.some.inj (hkept.symm.trans hrec)
  refine h u _ ?_ (List.getElem?_eq_getElem hlt)
  cases hc with
  | objectRecord =>
    rcases List.mem_append.1 hu with hu | hu
    · exact hu
    · obtain ⟨rfl, -⟩ := Prod.mk.inj (List.mem_singleton.1 hu)
      exact absurd hlt (Nat.lt_irrefl _)
  | _ => exact hu

theorem Filled.mono (hc : Changes p s t) (hlt : r < s.module.records.length) (h : Filled p s r) :
    Filled p t r := by
  induction hc with
  | refl => exact h
  | tail hcs hc ih =>
    exact ih.step hc (Nat.lt_of_lt_of_le hlt (Changes.grows hcs).records.length_le)

theorem Filled.kept_all (hc : Changes p s t) (h : Filled p s r) {rec : Record}
    (hr : s.module.records[r]? = some rec) : t.module.records[r]? = some rec := by
  induction hc with
  | refl => exact hr
  | tail hcs hc ih => exact (h.mono hcs (List.getElem?_eq_some_iff.1 hr).1).kept hc ih

/-! ## What records are made of -/

structure RecordsMade (p : Program) (s : State) : Prop where
  lt : ∀ r t, (r, t) ∈ s.objects → r < s.module.records.length
  unique : ∀ r t u, (r, t) ∈ s.objects → (r, u) ∈ s.objects → t = u
  table : ∀ r t, (r, t) ∈ s.objects → HasRecord p t r s
  fields : ∀ r t rec (i : Nat) v, (r, t) ∈ s.objects → s.module.records[r]? = some rec →
    rec.fields[i]? = some v →
    ∃ q, (p.storedProperties t)[i]? = some q ∧ Lowered p (Lower.propertyType p q) v s
  string : ∀ r, s.stringRecord? = some r →
    s.module.records[r]? = some ⟨stringRecordName, [.bytes, .i32], false, false⟩ ∧
    ∀ t, (r, t) ∉ s.objects
  made : ∀ r < s.module.records.length, s.stringRecord? = some r ∨ ∃ t, (r, t) ∈ s.objects

theorem initial_recordsMade (o : Options) : RecordsMade p (State.initial o) where
  lt r t h := by cases h
  unique r t u h := by cases h
  table r t h := by cases h
  fields r t rec i v h := by cases h
  string r h := by cases h
  made r h := absurd h (Nat.not_lt_zero _)

namespace RecordsMade

theorem table_step (h : RecordsMade p s) (hc : Change p s t) {u : TypeId}
    (hu : (r, u) ∈ s.objects) : HasRecord p u r t :=
  (h.table r u hu).mono (.single hc)

theorem fields_step (h : RecordsMade p s) (hc : Change p s t) {u : TypeId} {rec : Record}
    {i : Nat} {v : Ty} (hu : (r, u) ∈ s.objects) (hrec : s.module.records[r]? = some rec)
    (hv : rec.fields[i]? = some v) :
    ∃ q, (p.storedProperties u)[i]? = some q ∧ Lowered p (Lower.propertyType p q) v t := by
  obtain ⟨q, hq, hl⟩ := h.fields r u rec i v hu hrec hv
  exact ⟨q, hq, hl.mono (.single hc)⟩

theorem old (h : RecordsMade p s) {u : TypeId} {rec new : Record} (hu : (r, u) ∈ s.objects)
    (hr : (s.module.records ++ [new])[r]? = some rec) : s.module.records[r]? = some rec := by
  rwa [List.getElem?_append_left (h.lt r u hu)] at hr

theorem stringRecord (h : RecordsMade p s) (hnew : s.stringRecord? = none) : RecordsMade p { s with
    module := defining s.module ⟨stringRecordName, [.bytes, .i32], false, false⟩
    stringRecord? := some s.module.records.length } where
  lt r u hu := by simpa [defining] using Nat.lt_succ_of_lt (h.lt r u hu)
  unique := h.unique
  table r u hu := h.table_step (.stringRecord hnew) hu
  fields r u rec i v hu hrec hv := h.fields_step (.stringRecord hnew) hu (h.old hu hrec) hv
  string r hr := by
    obtain rfl := Option.some.inj hr
    exact ⟨by simp [defining], fun u hu => Nat.lt_irrefl _ (h.lt _ u hu)⟩
  made r hr := by
    simp only [defining, List.length_append, List.length_singleton] at hr
    rcases Nat.lt_succ_iff_lt_or_eq.1 hr with hr | rfl
    · rcases h.made r hr with hs | hu
      · rw [hnew] at hs
        cases hs
      · exact .inr hu
    · exact .inl rfl

theorem objectRecord (h : RecordsMade p s) {u : TypeId} {name : String} {isOpaque : Bool}
    (hname : p.mangledType u = some name) (hnew : s.typeDefs.lookup name = none) :
    RecordsMade p { s with
    module := defining s.module ⟨name, [], false, isOpaque⟩
    typeDefs := s.typeDefs ++ [(name, s.module.records.length)]
    objects := s.objects ++ [(s.module.records.length, u)] } := by
  have hc := Change.objectRecord u name isOpaque hname hnew
  have new {r : RecordId} {t : TypeId} (hr : (r, t) ∈ s.objects ++ [(s.module.records.length, u)]) :
      (r, t) ∈ s.objects ∨ r = s.module.records.length ∧ t = u := by simpa using hr
  refine ⟨fun r t hr => ?_, fun r t t' hr hr' => ?_, fun r t hr => ?_,
    fun r t rec i v hr hrec hv => ?_, fun r hr => ?_, fun r hr => ?_⟩
  · rcases new hr with hr | ⟨rfl, -⟩
    · simpa [defining] using Nat.lt_succ_of_lt (h.lt r t hr)
    · simp [defining]
  · rcases new hr with hold | ⟨he, ht⟩ <;> rcases new hr' with hold' | ⟨he', ht'⟩
    · exact h.unique r t t' hold hold'
    · exact absurd (h.lt r t hold) (he' ▸ Nat.lt_irrefl _)
    · exact absurd (h.lt r t' hold') (he ▸ Nat.lt_irrefl _)
    · rw [ht, ht']
  · rcases new hr with hr | ⟨rfl, rfl⟩
    · exact h.table_step hc hr
    · exact ⟨name, hname, by simp [List.lookup_append, hnew]⟩
  · rcases new hr with hr | ⟨rfl, rfl⟩
    · exact h.fields_step hc hr (h.old hr hrec) hv
    · simp only [defining, List.getElem?_concat_length] at hrec
      obtain rfl := Option.some.inj hrec
      cases hv
  · obtain ⟨hrec, hno⟩ := h.string r hr
    have hlt := (List.getElem?_eq_some_iff.1 hrec).1
    refine ⟨?_, fun t ht => ?_⟩
    · simp only [defining]
      rw [List.getElem?_append_left hlt, hrec]
    · rcases new ht with ht | ⟨rfl, -⟩
      · exact hno t ht
      · exact Nat.lt_irrefl _ hlt
  · simp only [defining, List.length_append, List.length_singleton] at hr
    rcases Nat.lt_succ_iff_lt_or_eq.1 hr with hr | rfl
    · exact (h.made r hr).imp_right fun ⟨t, ht⟩ => ⟨t, List.mem_append_left _ ht⟩
    · exact .inr ⟨u, by simp⟩

theorem addField (h : RecordsMade p s) {k : RecordId} {u : TypeId} {rec : Record}
    {x : SymbolId} {v : Ty} (hobject : (k, u) ∈ s.objects) (hrec : s.module.records[k]? = some rec)
    (hvisible : rec.isOpaque = false) (hnext : (p.storedProperties u)[rec.fields.length]? = some x)
    (hv : Lowered p (Lower.propertyType p x) v s) : RecordsMade p { s with
      module := s.module.modifyRecord k fun rec => { rec with fields := rec.fields ++ [v] } } := by
  have hc := Change.field k u rec x v hobject hrec hvisible hnext hv
  refine ⟨fun r t hr => ?_, h.unique, fun r t hr => h.table_step hc hr,
    fun r t rec' i w hr hrec' hw => ?_, fun r hr => ?_, fun r hr => ?_⟩
  · simpa [Module.modifyRecord] using h.lt r t hr
  · simp only [Module.modifyRecord, List.getElem?_modify] at hrec'
    obtain ⟨rec₀, hrec₀, rfl⟩ := Option.map_eq_some_iff.1 hrec'
    by_cases hk : k = r
    · subst hk
      obtain rfl := Option.some.inj (hrec.symm.trans hrec₀)
      obtain rfl := h.unique k u t hobject hr
      simp only [if_true] at hw
      rcases Nat.lt_trichotomy i rec.fields.length with hi | rfl | hi
      · rw [List.getElem?_append_left hi] at hw
        exact h.fields_step hc hr hrec hw
      · rw [List.getElem?_concat_length] at hw
        obtain rfl := Option.some.inj hw
        exact ⟨x, hnext, hv.mono (.single hc)⟩
      · rw [List.getElem?_eq_none (by simp; omega)] at hw
        cases hw
    · simp only [hk, if_false] at hw
      exact h.fields_step hc hr hrec₀ hw
  · obtain ⟨hstring, hno⟩ := h.string r hr
    have hne : k ≠ r := by
      rintro rfl
      exact hno u hobject
    refine ⟨?_, hno⟩
    simp only [Module.modifyRecord]
    rw [List.getElem?_modify_ne _ _ hne, hstring]
  · exact h.made r (by simpa [Module.modifyRecord] using hr)

end RecordsMade

theorem Change.recordsMade (hc : Change p s t) (h : RecordsMade p s) : RecordsMade p t := by
  cases hc with
  | stringRecord hnew => exact h.stringRecord hnew
  | objectRecord u name isOpaque hname hnew => exact h.objectRecord hname hnew
  | field k u rec x v hobject hrec hvisible hnext hv =>
    exact h.addField hobject hrec hvisible hnext hv
  | number m hm =>
    refine ⟨fun r t hr => ?_, h.unique, fun r t hr => h.table_step (.number m hm) hr,
      fun r t rec i v hr hrec hv => ?_, fun r hr => ?_, fun r hr => ?_⟩
    · exact hm.records.symm ▸ h.lt r t hr
    · exact h.fields_step (.number m hm) hr (hm.records ▸ hrec) hv
    · exact ⟨hm.records.symm ▸ (h.string r hr).1, (h.string r hr).2⟩
    · exact h.made r (hm.records ▸ hr)
  | _ => exact ⟨h.lt, h.unique, h.table, h.fields, h.string, h.made⟩

theorem Reachable.recordsMade (h : Reachable p s) : RecordsMade p s :=
  h.invariant initial_recordsMade fun _ _ _ hc ih => hc.recordsMade ih

theorem RecordsMade.filled_string (h : RecordsMade p s) (hr : s.stringRecord? = some r) :
    Filled p s r :=
  fun t _ ht => absurd ht ((h.string r hr).2 t)

theorem Lowered.isFlat {u : TypeId} {v : Ty} (h : Lowered p u v s) :
    Layout.IsFlat s.stringRecord? v := by
  unfold Lowered at h
  split_ifs at h
  · rw [h]
    trivial
  · rw [h]
    trivial
  · obtain ⟨r, hr, rfl⟩ := h
    exact hr
  · obtain ⟨r, -, rfl⟩ := h
    trivial
  · rw [h.2]
    trivial

theorem Lowered.isStored {u : TypeId} {v : Ty} (h : Lowered p u v s) : Layout.IsStored v := by
  unfold Lowered at h
  split_ifs at h
  · rw [h]
    trivial
  · rw [h]
    trivial
  · obtain ⟨r, -, rfl⟩ := h
    trivial
  · obtain ⟨r, -, rfl⟩ := h
    trivial
  · rw [h.2]
    trivial

theorem Reachable.flatRecords (h : Reachable p s) :
    Layout.FlatRecords s.module.records s.stringRecord? where
  unpacked := h.sound.records.unpacked
  string r hr := ⟨_, (h.recordsMade.string r hr).1, rfl, rfl⟩
  fields r rec hrec v hv := by
    rcases h.recordsMade.made r (List.getElem?_eq_some_iff.1 hrec).1 with hr | ⟨t, ht⟩
    · obtain rfl := Option.some.inj (hrec.symm.trans (h.recordsMade.string r hr).1)
      simp only [List.mem_cons, List.not_mem_nil, or_false] at hv
      rcases hv with rfl | rfl <;> trivial
    · obtain ⟨i, hi⟩ := List.getElem?_of_mem hv
      obtain ⟨q, -, hl⟩ := h.recordsMade.fields r t rec i v ht hrec hi
      exact hl.isFlat

/-! ## Layouts -/

theorem Known.IsRight.step {k : Layout.Known} (hc : Change p s t)
    (hk : k.IsRight s.target s.module.records (Filled p s)) :
    k.IsRight t.target t.module.records (Filled p t) := by
  intro r l hl
  obtain ⟨hfilled, rec, hrec, hvisible, hof⟩ := hk r l hl
  refine ⟨hfilled.step hc (List.getElem?_eq_some_iff.1 hrec).1, rec, hfilled.kept hc hrec,
    hvisible, ?_⟩
  rw [hc.remembers.target]
  exact hof

/-- Only records that are complete have been laid out, and their layouts are right. -/
theorem Reachable.layouts (h : Reachable p s) :
    s.layouts.IsRight s.target s.module.records (Filled p s) := by
  refine h.invariant (I := fun s => s.layouts.IsRight s.target s.module.records (Filled p s)) ?_ ?_
  · intro o r l hl
    cases hl
  · intro s t hs hc hk
    have hkept := Known.IsRight.step hc hk
    cases hc with
    | layouts r hr hfilled =>
      exact (Layout.layout_sizes hs.flatRecords (List.getElem?_eq_getElem hr) hfilled
        (fun q hq => hs.recordsMade.filled_string hq) hk).right
    | _ => exact hkept

theorem Reachable.target (h : Reachable p s) : s.target.IsUsual := by
  refine h.invariant (I := fun s => s.target.IsUsual) (fun o => ?_) fun s t _ hc ih =>
    hc.remembers.target.symm ▸ ih
  unfold State.initial
  dsimp only
  cases ht : Layout.Target.ofTriple o.triple with
  | ok t => exact Layout.Target.isUsual_ofTriple ht
  | error e => exact Layout.Target.isUsual_default

/-! ## Scopes -/

theorem Reachable.scopes (h : Reachable p s) {k : ScopeId} {j : Nested Value} {name : String}
    {o : Origin} {u : Ty}
    (hl : s.env.lookupIn k name = some (.scope j)) (ho : (s.env.scope j).data? = some o)
    (hu : o.type? = some u) : IsNamedRecord s name u := by
  refine h.invariant (I := fun s => ∀ k name j o u, s.env.lookupIn k name = some (.scope j) →
    (s.env.scope j).data? = some o → o.type? = some u →
    IsNamedRecord s name u) ?_ ?_ k name j o u hl ho hu
  · intro o k name j o' u hl
    have hfits := (initial_sound o).env.lookupIn hl
    exact absurd hfits.2.1 (Nat.not_lt_of_le hfits.1)
  intro s t hs hc ih k name j o u hl ho hu
  have kept {k name j o u} (hl : s.env.lookupIn k name = some (.scope j))
      (ho : (s.env.scope j).data? = some o)
      (hu : o.type? = some u) : IsNamedRecord t name u :=
        (ih k name j o u hl ho hu).mono (.single hc)
  cases hc with
  | scope name' o? ho' =>
    have hold : s.env.lookupIn k name = some (.scope j) :=
      (lookupIn_create s.env (.fresh name' o?) rfl k name) ▸ hl
    refine kept hold ?_ hu
    unfold Environment.scope at ho ⊢
    rwa [List.getElem?_append_left (hs.sound.env.lookupIn hold).2.1] at ho
  | bind k' name' b hnew hb hscope =>
    replace ho := (modifyScope_data? s.env k' j name' b).symm.trans ho
    rcases Nat.lt_or_ge k' s.env.scopes.length with hlt | hge
    · rw [lookupIn_bind hlt hnew] at hl
      split at hl
      · rename_i he
        obtain ⟨-, rfl⟩ := he
        exact (hscope j o u (Option.some.inj hl) ho hu).mono (p := p)
          (.single (.bind k' name b hnew hb hscope))
      · exact kept hl ho hu
    · have hmod :
          s.env.modifyScope k' (fun sc => { sc with bindings := sc.bindings ++ [(name', b)] }) =
          s.env := by
        unfold Environment.modifyScope
        rw [List.modify_eq_self hge]
      exact kept (hmod ▸ hl) ho hu
  | _ => exact kept hl ho hu

end

end CheckedIR.Lowering

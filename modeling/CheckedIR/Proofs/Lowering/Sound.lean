import CheckedIR.Proofs.Lowering.Change

/-!
# Sound states

The invariant of lowering: every function of the module is straight-line, every name stands for
something that the module has, records have names by which they are found again, and the cursor is
in the only block of the function that is being emitted. Every change keeps it.
-/

namespace CheckedIR

def Cause.isVerdict : Cause → Bool
  | .invalidFunction .. | .invalidModule _ => true
  | _ => false

end CheckedIR

namespace CheckedIR.Lowering

open CheckedIR.Ir CheckedIR.Program CheckedIR.Scope

/-- Records are found again by their names, so at most one of them has none. -/
structure RecordsSound (rs : Records) (typeDefs : List (String × RecordId))
    (string? : Option RecordId) : Prop where
  fields : ∀ (r : RecordId) (rec : Record), rs[r]? = some rec → ∀ t ∈ rec.fields, t.IsField rs
  unpacked : ∀ r, (rs.get r).isPacked = false
  oneNameless : rs.OneNameless
  nameless : ∀ (r : RecordId) (rec : Record), rs[r]? = some rec → rec.name = "" →
    typeDefs.lookup "" ≠ none
  string : ∀ r, string? = some r → ∃ rec : Record, rs[r]? = some rec ∧ rec.name = stringRecordName
  typeDefs : ∀ name r, (name, r) ∈ typeDefs → ∃ rec : Record, rs[r]? = some rec ∧ rec.name = name

structure EnvFits (m : Module) (e : Env) : Prop where
  global : 0 < e.scopes.length
  bindings : ∀ sc ∈ e.scopes, ∀ n b, (n, b) ∈ sc.bindings → BindingFits m e.scopes.length b
  origins : ∀ sc ∈ e.scopes, ∀ o, sc.data? = some o → OriginFits m o

structure State.Sound (s : State) : Prop where
  funcs : s.module.Sound
  records : RecordsSound s.module.records s.typeDefs s.stringRecord?
  table : ∀ name f, (name, f) ∈ s.funcs → ∃ fn, s.module.func? f = some fn ∧ fn.name = name
  env : EnvFits s.module s.env
  place : PlaceFits s.module s.cursor s.frame
  entry : ∃ fn b, s.module.func? Lower.entryFunc = some fn ∧ fn.IsBody b ∧
    (s.isFinished = false ↔ b.term? = none)
  config : ∀ c, s.configError? = some c → c.isVerdict = false

/-! ## Records -/

theorem Records.get_append_of_ne {rs : Records} {rec : Record} {r : RecordId} (h : r ≠ rs.length) :
    Records.get (rs ++ [rec]) r = rs.get r := by
  unfold Records.get
  rcases Nat.lt_or_ge r rs.length with hlt | hge
  · rw [List.getElem?_append_left hlt]
  · have hgt : rs.length < r := Nat.lt_of_le_of_ne hge (Ne.symm h)
    rw [List.getElem?_eq_none hge, List.getElem?_eq_none (by simp; omega)]

theorem Records.getElem?_snoc {rs : Records} {rec rec' : Record} {r : RecordId}
    (h : (rs ++ [rec])[r]? = some rec') : rs[r]? = some rec' ∨ r = rs.length ∧ rec' = rec := by
  rcases Nat.lt_trichotomy r rs.length with hlt | rfl | hgt
  · rw [List.getElem?_append_left hlt] at h
    exact .inl h
  · rw [List.getElem?_concat_length] at h
    exact .inr ⟨rfl, (Option.some.inj h).symm⟩
  · rw [List.getElem?_eq_none (by simp; omega)] at h
    cases h

namespace RecordsSound

variable {rs : Records} {defs : List (String × RecordId)} {string? : Option RecordId}

theorem snoc {defs' : List (String × RecordId)} {string?' : Option RecordId} {rec : Record}
    (h : RecordsSound rs defs string?) (hdefs : defs <+: defs')
    (hfields : ∀ t ∈ rec.fields, t.IsField rs) (hpacked : rec.isPacked = false)
    (hname : rec.name = "" → defs.lookup "" = none ∧ defs'.lookup "" ≠ none)
    (hstring : ∀ r, string?' = some r → string? = some r ∨ r = rs.length ∧
      rec.name = stringRecordName)
    (hnew : ∀ name r, (name, r) ∈ defs' → (name, r) ∈ defs ∨ r = rs.length ∧ rec.name = name) :
    RecordsSound (rs ++ [rec]) defs' string?' := by
  have grow : rs.Grow (rs ++ [rec]) := .append _ _
  have old {r : RecordId} {rec' : Record} (hr : rs[r]? = some rec') :
      (rs ++ [rec])[r]? = some rec' := by
    rw [List.getElem?_append_left (List.getElem?_eq_some_iff.1 hr).1, hr]
  constructor
  case fields =>
    intro r rec' hr t ht
    rcases Records.getElem?_snoc hr with hr | ⟨-, rfl⟩
    · exact grow.field (h.fields r rec' hr t ht)
    · exact grow.field (hfields t ht)
  case unpacked =>
    intro r
    by_cases hr : r = rs.length
    · rw [hr, Records.get, List.getElem?_concat_length]
      exact hpacked
    · rw [Records.get_append_of_ne hr]
      exact h.unpacked r
  case oneNameless =>
    intro i j a b hi hj ha hb
    rcases Records.getElem?_snoc hi with hi' | ⟨hi', ea⟩ <;>
      rcases Records.getElem?_snoc hj with hj' | ⟨hj', eb⟩
    · exact h.oneNameless i j a b hi' hj' ha hb
    · exact absurd (hname (eb ▸ hb)).1 (h.nameless i a hi' ha)
    · exact absurd (hname (ea ▸ ha)).1 (h.nameless j b hj' hb)
    · rw [hi', hj']
  case nameless =>
    intro r rec' hr hn
    rcases Records.getElem?_snoc hr with hr | ⟨-, rfl⟩
    · intro hl
      cases hd : defs.lookup "" with
      | none => exact h.nameless r rec' hr hn hd
      | some k => simp [lookup_grown hdefs hd] at hl
    · exact (hname hn).2
  case string =>
    intro r hr
    rcases hstring r hr with hr | ⟨rfl, hn⟩
    · obtain ⟨rec', hr', hn⟩ := h.string r hr
      exact ⟨rec', old hr', hn⟩
    · exact ⟨rec, List.getElem?_concat_length, hn⟩
  case typeDefs =>
    intro name r hr
    rcases hnew name r hr with hr | ⟨rfl, hn⟩
    · obtain ⟨rec', hr', hn⟩ := h.typeDefs name r hr
      exact ⟨rec', old hr', hn⟩
    · exact ⟨rec, List.getElem?_concat_length, hn⟩

theorem stringRecord (h : RecordsSound rs defs none) :
    RecordsSound (rs ++ [⟨stringRecordName, [.bytes, .i32], false, false⟩]) defs
    (some rs.length) := by
  refine h.snoc List.prefix_rfl ?_ rfl ?_ ?_ fun _ _ => .inl
  · intro t ht
    simp only [List.mem_cons, List.not_mem_nil, or_false] at ht
    rcases ht with rfl | rfl <;> trivial
  · intro hn
    simp [stringRecordName] at hn
  · intro r hr
    exact .inr ⟨(Option.some.inj hr).symm, rfl⟩

theorem objectRecord {name : String} (h : RecordsSound rs defs string?)
    (hnew : defs.lookup name = none) (isOpaque : Bool) :
    RecordsSound (rs ++ [⟨name, [], false, isOpaque⟩]) (defs ++ [(name, rs.length)]) string? := by
  refine h.snoc (List.prefix_append _ _) (fun t ht => by cases ht) rfl ?_ (fun _ => .inl) ?_
  · rintro rfl
    exact ⟨hnew, by simp [List.lookup_append, hnew]⟩
  · intro n r hr
    rcases List.mem_append.1 hr with hr | hr
    · exact .inl hr
    · obtain ⟨rfl, rfl⟩ : n = name ∧ r = rs.length := by simpa using hr
      exact .inr ⟨rfl, rfl⟩

theorem addField {t : Ty} (h : RecordsSound rs defs string?) (r : RecordId) (ht : t.IsField rs) :
    RecordsSound (rs.modify r fun rec => { rec with fields := rec.fields ++ [t] }) defs
    string? := by
  have grow := Records.Grow.addField rs r t
  -- a record of the changed table is one of the old table, with the same name
  have back {q : RecordId} {rec' : Record}
      (hq : (rs.modify r fun rec => { rec with fields := rec.fields ++ [t] })[q]? = some rec') :
      ∃ rec, rs[q]? = some rec ∧ rec'.name = rec.name ∧ rec'.isPacked = rec.isPacked ∧
        rec'.fields ⊆ rec.fields ++ [t] := by
    rw [List.getElem?_modify] at hq
    obtain ⟨rec, hrec, rfl⟩ := Option.map_eq_some_iff.1 hq
    refine ⟨rec, hrec, ?_⟩
    split
    · exact ⟨rfl, rfl, List.Subset.refl _⟩
    · exact ⟨rfl, rfl, List.subset_append_left _ _⟩
  constructor
  case fields =>
    intro q rec' hq u hu
    obtain ⟨rec, hrec, -, -, hf⟩ := back hq
    rcases List.mem_append.1 (hf hu) with hu | hu
    · exact grow.field (h.fields q rec hrec u hu)
    · rw [List.mem_singleton.1 hu]
      exact grow.field ht
  case unpacked =>
    intro q
    cases hq : (rs.modify r fun rec => { rec with fields := rec.fields ++ [t] })[q]? with
    | none =>
      rw [Records.get, hq]
      rfl
    | some rec' =>
      obtain ⟨rec, hrec, -, hp, -⟩ := back hq
      rw [Records.get_of_getElem? hq, hp, ← Records.get_of_getElem? hrec]
      exact h.unpacked q
  case oneNameless =>
    intro i j a b hi hj ha hb
    obtain ⟨a', hi', hna, -⟩ := back hi
    obtain ⟨b', hj', hnb, -⟩ := back hj
    exact h.oneNameless i j a' b' hi' hj' (hna ▸ ha) (hnb ▸ hb)
  case nameless =>
    intro q rec' hq hn
    obtain ⟨rec, hrec, hname, -⟩ := back hq
    exact h.nameless q rec hrec (hname ▸ hn)
  case string =>
    intro q hq
    obtain ⟨rec, hrec, hn⟩ := h.string q hq
    obtain ⟨rec', hrec', hg⟩ := grow q rec hrec
    exact ⟨rec', hrec', hg.name.trans hn⟩
  case typeDefs =>
    intro name q hq
    obtain ⟨rec, hrec, hn⟩ := h.typeDefs name q hq
    obtain ⟨rec', hrec', hg⟩ := grow q rec hrec
    exact ⟨rec', hrec', hg.name.trans hn⟩

end RecordsSound

section
variable {p : Program} {s : State}

theorem RecordsSound.string_field (hs : RecordsSound s.module.records s.typeDefs s.stringRecord?)
    {r : RecordId} (hr : s.stringRecord? = some r) : (Ty.record r).IsField s.module.records := by
  obtain ⟨rec, hrec, hn⟩ := hs.string r hr
  exact ⟨rec, hrec, by rw [hn]; decide⟩

theorem HasRecord.record {t : TypeId} {r : RecordId} (h : HasRecord p t r s)
    (hs : RecordsSound s.module.records s.typeDefs s.stringRecord?) :
    ∃ rec, s.module.records[r]? = some rec ∧ p.mangledType t = some rec.name := by
  obtain ⟨name, hname, hl⟩ := h
  obtain ⟨rec, hrec, rfl⟩ := hs.typeDefs name r (mem_of_lookup hl)
  exact ⟨rec, hrec, hname⟩

theorem HasRecord.lt {t : TypeId} {r : RecordId} (h : HasRecord p t r s)
    (hs : RecordsSound s.module.records s.typeDefs s.stringRecord?) :
    r < s.module.records.length := by
  obtain ⟨rec, hrec, -⟩ := h.record hs
  exact (List.getElem?_eq_some_iff.1 hrec).1

theorem Lowered.isField {t : TypeId} {u : Ty} (h : Lowered p t u s)
    (hs : RecordsSound s.module.records s.typeDefs s.stringRecord?) :
    u.IsField s.module.records := by
  unfold Lowered at h
  split_ifs at h
  · rw [h]
    trivial
  · rw [h]
    trivial
  · obtain ⟨r, hr, rfl⟩ := h
    exact hs.string_field hr
  · obtain ⟨r, hr, rfl⟩ := h
    exact hr.lt hs
  · rw [h.2]
    trivial

end

/-! ## Environments -/

namespace EnvFits

variable {m m' : Module} {e : Env}

theorem mono (hg : m.Grows m') (h : EnvFits m e) : EnvFits m' e where
  global := h.global
  bindings sc hsc n b hb := (h.bindings sc hsc n b hb).mono hg (Nat.le_refl _)
  origins sc hsc o ho := (h.origins sc hsc o ho).mono hg

theorem create (h : EnvFits m e) (name : String) (o? : Option Origin)
    (ho : ∀ o, o? = some o → OriginFits m o) :
    EnvFits m { e with scopes := e.scopes ++ [.fresh name o?] } where
  global := by simp
  bindings sc hsc n b hb := by
    rcases List.mem_append.1 hsc with hsc | hsc
    · exact (h.bindings sc hsc n b hb).mono (.refl m) (by simp)
    · rw [List.mem_singleton.1 hsc] at hb
      cases hb
  origins sc hsc o hd := by
    rcases List.mem_append.1 hsc with hsc | hsc
    · exact h.origins sc hsc o hd
    · rw [List.mem_singleton.1 hsc] at hd
      exact ho o hd

theorem bind (h : EnvFits m e) (k : ScopeId) (name : String) {b : Binding Value}
    (hb : BindingFits m e.scopes.length b) :
    EnvFits m (e.modifyScope k fun t => { t with bindings := t.bindings ++ [(name, b)] }) := by
  -- a changed scope has the bindings of an old one and perhaps the new one
  have back {sc : Scope.Contents Value Origin}
      (hsc : sc ∈ e.scopes.modify k fun t => { t with bindings := t.bindings ++ [(name, b)] }) :
      ∃ old ∈ e.scopes, sc.data? = old.data? ∧ sc.bindings ⊆ old.bindings ++ [(name, b)] := by
    obtain ⟨j, hj⟩ := List.getElem?_of_mem hsc
    rw [List.getElem?_modify] at hj
    obtain ⟨old, hold, rfl⟩ := Option.map_eq_some_iff.1 hj
    refine ⟨old, List.mem_of_getElem? hold, ?_⟩
    split
    · exact ⟨rfl, List.Subset.refl _⟩
    · exact ⟨rfl, List.subset_append_left _ _⟩
  have hlen : (e.modifyScope k
      fun t => { t with bindings := t.bindings ++ [(name, b)] }).scopes.length =
      e.scopes.length := List.length_modify _ _ _
  constructor
  case global => rw [hlen]; exact h.global
  case bindings =>
    intro sc hsc n c hc
    rw [hlen]
    obtain ⟨old, hold, -, hsub⟩ := back hsc
    rcases List.mem_append.1 (hsub hc) with hc | hc
    · exact h.bindings old hold n c hc
    · obtain ⟨-, rfl⟩ : n = name ∧ c = b := by simpa using hc
      exact hb
  case origins =>
    intro sc hsc o ho
    obtain ⟨old, hold, hd, -⟩ := back hsc
    exact h.origins old hold o (hd ▸ ho)

theorem lookupIn (h : EnvFits m e) {k : ScopeId} {name : String} {b : Binding Value}
    (hl : e.lookupIn k name = some b) : BindingFits m e.scopes.length b := by
  unfold Environment.lookupIn Scope.Contents.lookup at hl
  have hmem := mem_of_lookup hl
  unfold Environment.scope at hmem
  cases hk : e.scopes[k]? with
  | none =>
    rw [hk] at hmem
    cases hmem
  | some sc =>
    rw [hk] at hmem
    exact h.bindings sc (List.mem_of_getElem? hk) name b hmem

theorem resolveIn (h : EnvFits m e) {k : ScopeId} {path : List String} {b : Binding Value}
    (hr : e.resolveIn k path = .ok b) : BindingFits m e.scopes.length b := by
  induction path generalizing k with
  | nil => cases hr
  | cons name rest ih =>
    cases rest with
    | nil =>
      simp only [Environment.resolveIn] at hr
      split at hr
      · rename_i c hc
        cases hr
        exact h.lookupIn hc
      · cases hr
    | cons next rest =>
      simp only [Environment.resolveIn] at hr
      split at hr
      · exact ih hr
      · cases hr
      · cases hr

theorem search (h : EnvFits m e) {name : String} {b : Binding Value} (hs : e.search name = some b) :
    BindingFits m e.scopes.length b := by
  obtain ⟨k, -, hk⟩ := List.exists_of_findSome?_eq_some hs
  exact h.lookupIn hk

theorem get (h : EnvFits m e) {name : String} {b : Binding Value} (hg : e.get name = .ok b) :
    BindingFits m e.scopes.length b := by
  unfold Environment.get Environment.resolve at hg
  split at hg
  · cases hg
  · split at hg
    · rename_i c hc
      cases hg
      exact h.search hc
    · cases hg
  · split at hg
    · exact h.resolveIn hg
    · cases hg
    · cases hg

end EnvFits

/-! ## Changes keep states sound -/

theorem PlaceFits.mono {m m' : Module} {c : Cursor} {fr : Frame} (hg : m.Grows m')
    (h : PlaceFits m c fr) : PlaceFits m' c fr where
  cursor := h.cursor
  body := by
    obtain ⟨fn, b, hf, hb⟩ := h.body
    obtain ⟨fn', hf', hgf⟩ := hg.funcs _ fn hf
    obtain ⟨b', hb'⟩ := hgf.body b hb
    exact ⟨fn', b', hf', hb'⟩
  this v hv := ⟨(h.this v hv).1.mono hg, (h.this v hv).2⟩

namespace State.Sound

variable {s : State}

theorem setBody (hs : s.Sound) {f : FuncId} {fn : Func} {b : Ir.Block} {c : Cursor} {fr : Frame}
    {finished : Bool} (hf : s.module.func? f = some fn) (he : Module.IsExtension fn b)
    (hb : b.Sound s.module f fn.paramTypes) (hplace : PlaceFits (s.module.setBody f b) c fr)
    (hentry : f = Lower.entryFunc → (finished = false ↔ b.term? = none))
    (hfinished : f ≠ Lower.entryFunc → finished = s.isFinished) :
    State.Sound { s with
      module := s.module.setBody f b, cursor := c, frame := fr, isFinished := finished } := by
  have hg : s.module.Grows (s.module.setBody f b) := Module.grows_modifyFunc hf he.grows
  constructor
  case funcs => exact hs.funcs.setBody hf he hb
  case records => exact hs.records
  case table =>
    intro name g hm
    obtain ⟨fn', hg', hn⟩ := hs.table name g hm
    obtain ⟨fn'', hg'', hgrow⟩ := hg.funcs g fn' hg'
    exact ⟨fn'', hg'', hgrow.name.trans hn⟩
  case env => exact hs.env.mono hg
  case place => exact hplace
  case entry =>
    by_cases he : f = Lower.entryFunc
    · subst he
      exact ⟨_, b, Module.func?_setBody hf, rfl, hentry rfl⟩
    · obtain ⟨fn', b', hf', hb', ho⟩ := hs.entry
      exact ⟨fn', b', by
        rw [Module.func?_setBody_of_ne he, hf'], hb', by rw [hfinished he]; exact ho⟩
  case config => exact hs.config

theorem unfinished (hs : s.Sound) {fn : Func} {b : Ir.Block}
    (hf : s.module.func? Lower.entryFunc = some fn)
    (hb : fn.IsBody b) (hopen : b.term? = none) : s.isFinished = false := by
  obtain ⟨fn', b', hf', hb', ho⟩ := hs.entry
  obtain rfl := Option.some.inj (hf.symm.trans hf')
  obtain rfl : b = b' := by simpa using hb.symm.trans hb'
  exact ho.2 hopen

theorem setBody_here (hs : s.Sound) {fn : Func} {b b' : Ir.Block}
    (hf : s.module.func? s.cursor.func = some fn)
    (hbody : fn.IsBody b) (hopen : b.term? = none) (he : Module.IsExtension fn b')
    (hb : b'.Sound s.module s.cursor.func fn.paramTypes)
    (hentry : s.cursor.func = Lower.entryFunc → b'.term? = none) :
    State.Sound { s with module := s.module.setBody s.cursor.func b' } := by
  refine hs.setBody hf he hb (hs.place.mono (Module.grows_modifyFunc hf he.grows)) (fun h => ?_)
    fun _ => rfl
  exact ⟨fun _ => hentry h, fun _ => hs.unfinished (h ▸ hf) hbody hopen⟩

theorem append (hs : s.Sound) {fn : Func} {b : Ir.Block} {op : Op}
    (hf : s.module.func? s.cursor.func = some fn)
    (hb : fn.IsBody b) (hopen : b.term? = none) (hop : OpFits s.module s.cursor.func op) :
    State.Sound { s with
      module := s.module.setBody s.cursor.func
        { b with insts := b.insts ++ [⟨b.insts.length, "", 0, op⟩] } } := by
  refine hs.setBody_here hf hb hopen (.of_subset hb (List.subset_append_left _ _)) ?_ fun _ => hopen
  exact ((hs.funcs _ fn hf).body hb).append hop.isAlloca hop.typed
    (fun v hv => (hop.operands v hv).1.atHand hf hb (hop.operands v hv).2) hopen

theorem withRecords (hs : s.Sound) {m : Module} {defs : List (String × RecordId)}
    {string? : Option RecordId}
    {l : List (RecordId × TypeId)} (hg : s.module.Grows m) (hfuncs : m.funcs = s.module.funcs)
    (hr : RecordsSound m.records defs string?) :
    State.Sound
      { s with module := m, typeDefs := defs, objects := l, stringRecord? := string? } := by
  have hf (f : FuncId) : m.func? f = s.module.func? f := by unfold Module.func?; rw [hfuncs]
  constructor
  case funcs => exact fun f fn h => (hs.funcs f fn (hf f ▸ h)).mono hg
  case records => exact hr
  case table =>
    intro name f hm
    obtain ⟨fn, h, hn⟩ := hs.table name f hm
    exact ⟨fn, (hf f).trans h, hn⟩
  case env => exact hs.env.mono hg
  case place => exact hs.place.mono hg
  case entry => simpa only [hf] using hs.entry
  case config => exact hs.config

theorem sameCode (hs : s.Sound) {m : Module} (hm : s.module.SameCode m) :
    State.Sound { s with module := m } := by
  constructor
  case funcs => exact hm.sound hs.funcs
  case records => exact (show m.records = _ from hm.records) ▸ hs.records
  case table =>
    intro name f hmem
    obtain ⟨fn, hf, hn⟩ := hs.table name f hmem
    obtain ⟨fn', hf', hg⟩ := hm.grows.funcs f fn hf
    exact ⟨fn', hf', hg.name.trans hn⟩
  case env => exact hs.env.mono hm.grows
  case place => exact hs.place.mono hm.grows
  case entry =>
    obtain ⟨fn, b, hf, hb, ho⟩ := hs.entry
    obtain ⟨fn', hf', hof⟩ := hm.func? hf
    obtain ⟨b', hb', hob⟩ := Func.body_of_outline hof hb
    exact ⟨fn', b', hf', hb', by rw [show b'.term? = b.term? from congrArg (·.2.2) hob]; exact ho⟩
  case config => exact hs.config

end State.Sound

theorem Change.sound {p : Program} {s t : State} (h : Change p s t) (hs : s.Sound) : t.Sound := by
  have hgrows := h.grows
  cases h with
  | stringRecord hnew =>
    exact hs.withRecords hgrows rfl (hnew ▸ hs.records).stringRecord
  | objectRecord u name isOpaque hname hnew =>
    exact hs.withRecords hgrows rfl (hs.records.objectRecord hnew isOpaque)
  | field r u rec q v hobject hrec hvisible hnext hv =>
    exact hs.withRecords hgrows rfl (hs.records.addField r (hv.isField hs.records))
  | text x hnew =>
    have h := hs.withRecords (l := s.objects) hgrows rfl hs.records
    exact ⟨h.funcs, h.records, h.table, h.env, h.place, h.entry, h.config⟩
  | declare fn r? hnew hfn hbuiltin hrequest =>
    have hnone : s.module.funcs[s.module.funcs.length]? = none :=
      List.getElem?_eq_none (Nat.le_refl _)
    constructor
    case funcs =>
      intro f fn' hf
      rcases Nat.lt_trichotomy f s.module.funcs.length with hlt | rfl | hgt
      · simp only [Module.func?, List.getElem?_append_left hlt] at hf
        exact (hs.funcs f fn' hf).mono hgrows
      · simp only [Module.func?, List.getElem?_concat_length] at hf
        obtain rfl := Option.some.inj hf
        exact Func.Sound.mono ⟨hfn.returns, hfn.params, .inl hfn.blocks⟩ hgrows
      · simp only [Module.func?] at hf
        rw [List.getElem?_eq_none (by simp; omega)] at hf
        cases hf
    case records => exact hs.records
    case table =>
      intro name f hm
      rcases List.mem_append.1 hm with hm | hm
      · obtain ⟨fn', hf, hn⟩ := hs.table name f hm
        obtain ⟨fn'', hf', hg⟩ := hgrows.funcs f fn' hf
        exact ⟨fn'', hf', hg.name.trans hn⟩
      · obtain ⟨rfl, rfl⟩ : name = fn.name ∧ f = s.module.funcs.length := by simpa using hm
        exact ⟨fn, List.getElem?_concat_length, rfl⟩
    case env => exact hs.env.mono hgrows
    case place => exact hs.place.mono hgrows
    case entry =>
      obtain ⟨fn', b, hf, hb, ho⟩ := hs.entry
      refine ⟨fn', b, ?_, hb, ho⟩
      have hlt := (List.getElem?_eq_some_iff.1 hf).1
      simp only [Module.func?] at hf ⊢
      rw [List.getElem?_append_left hlt, hf]
    case config => exact hs.config
  | «open» f fn isConstructor hf hblocks =>
    have he : Module.IsExtension fn ⟨"entry", 0, [], none⟩ := fun i hi => by
      rw [Func.insts_of_blocks_nil hblocks] at hi
      cases hi
    have hne : f ≠ Lower.entryFunc := by
      rintro rfl
      obtain ⟨fn', b, hf', hb, -⟩ := hs.entry
      obtain rfl := Option.some.inj (hf.symm.trans hf')
      exact absurd (hblocks.symm.trans hb) (by simp)
    refine hs.setBody hf he (Block.sound_fresh _ _ _) ⟨rfl,
      ⟨_, _, Module.func?_setBody hf, rfl⟩, ?_⟩ (fun h => absurd h hne) fun _ => rfl
    intro v hv
    cases hv
  | move c fr hplace => exact ⟨hs.funcs, hs.records, hs.table, hs.env, hplace, hs.entry, hs.config⟩
  | emit fn b op hf hb hopen hop => exact hs.append hf hb hopen hop
  | call fn callee b e r g args hf hb hopen hop =>
    have h := hs.append hf hb hopen hop
    exact ⟨h.funcs, h.records, h.table, h.env, h.place, h.entry, h.config⟩
  | slot fn b name u hf hb hopen hname =>
    have h := hs.setBody_here hf hb hopen (.of_subset hb (List.subset_cons_self _ _))
      (((hs.funcs _ fn hf).body hb).slot (countedName name (s.given s.cursor.func name)) u) fun _ =>
        hopen
    exact ⟨h.funcs, h.records, h.table, h.env, h.place, h.entry, h.config⟩
  | terminate fn b u hf hb hopen hentry hu =>
    refine hs.setBody_here hf hb hopen (.ended hb u) ?_ fun he => absurd he hentry
    exact ((hs.funcs _ fn hf).body hb).finish fun v hv => (hu v hv).1.atHand hf hb (hu v hv).2
  | finish fn b hf hb hopen hnew =>
    have he := Module.IsExtension.ended hb (.ret (some (.const (.int 32 0))))
    refine hs.setBody hf he ?_ (hs.place.mono hgrows)
      (fun _ => ⟨fun h => (by cases h), fun h => (by cases h)⟩) fun h => absurd rfl h
    refine ((hs.funcs _ fn hf).body hb).finish fun v hv => ?_
    rw [List.mem_singleton.1 hv]
    trivial
  | name f i name hname =>
    have h := hs.sameCode (s.module.sameCode_rename f i (countedName name (s.given f name)))
    exact ⟨h.funcs, h.records, h.table, h.env, h.place, h.entry, h.config⟩
  | number m hm => exact hs.sameCode hm.sameCode
  | scope name o? ho =>
    exact ⟨hs.funcs, hs.records, hs.table, hs.env.create name o? ho, hs.place, hs.entry, hs.config⟩
  | bind k name b hnew hb =>
    exact ⟨hs.funcs, hs.records, hs.table, hs.env.bind k name hb, hs.place, hs.entry, hs.config⟩
  | enter inner =>
    exact ⟨hs.funcs, hs.records, hs.table, ⟨hs.env.global, hs.env.bindings, hs.env.origins⟩,
      hs.place, hs.entry, hs.config⟩
  | _ => exact ⟨hs.funcs, hs.records, hs.table, hs.env, hs.place, hs.entry, hs.config⟩

theorem Changes.sound {p : Program} {s t : State} (h : Changes p s t) (hs : s.Sound) : t.Sound := by
  induction h with
  | refl => exact hs
  | tail _ hc ih => exact hc.sound ih

/-! ## The start -/

theorem initial_sound (o : Options) : (State.initial o).Sound := by
  have hentry : (State.initial o).module.func? Lower.entryFunc = some
      ⟨if o.entryName.isEmpty then defaultEntryName else o.entryName, 0, .i32, [], false,
        [⟨"entry", 0, [], none⟩]⟩ := rfl
  constructor
  case funcs =>
    intro f fn hf
    cases f with
    | zero =>
      obtain rfl := Option.some.inj hf
      refine ⟨trivial, ?_, .inr ⟨_, rfl, Block.sound_fresh _ _ _⟩⟩
      intro t ht
      cases ht
    | succ f => cases hf
  case records =>
    refine ⟨fun r rec hr => ?_, fun r => rfl, fun i j a b hi => ?_, fun r rec hr => ?_,
      fun r hr => ?_, fun name r hr => ?_⟩
    · cases hr
    · cases hi
    · cases hr
    · cases hr
    · cases hr
  case table =>
    intro name f hm
    cases hm
  case env =>
    have bindings {sc : Scope.Contents Value Origin} (hsc : sc ∈ (State.initial o).env.scopes) :
        sc = .fresh "" none := List.mem_singleton.1 hsc
    refine ⟨Nat.zero_lt_one, fun sc hsc n b hb => ?_, fun sc hsc o ho => ?_⟩
    · rw [bindings hsc] at hb
      cases hb
    · rw [bindings hsc] at ho
      cases ho
  case place =>
    refine ⟨rfl, ⟨_, _, hentry, rfl⟩, fun v hv => ?_⟩
    cases hv
  case entry => exact ⟨_, _, hentry, rfl, Iff.intro (fun _ => rfl) fun _ => rfl⟩
  case config =>
    intro c hc
    simp only [State.initial] at hc
    split at hc
    · cases hc
    · cases hc
      rfl

/-- A lowering of `p` can get to the state. -/
def Reachable (p : Program) (s : State) : Prop := ∃ o, Changes p (State.initial o) s

section
variable {p : Program} {s t : State}

theorem reachable_initial (o : Options) : Reachable p (State.initial o) := ⟨o, .refl⟩

theorem Reachable.trans (h : Reachable p s) (hc : Changes p s t) : Reachable p t := by
  obtain ⟨o, ho⟩ := h
  exact ⟨o, ho.trans hc⟩

theorem Reachable.step (h : Reachable p s) (hc : Change p s t) : Reachable p t :=
  h.trans (.single hc)

theorem Reachable.sound (h : Reachable p s) : s.Sound := by
  obtain ⟨o, ho⟩ := h
  exact ho.sound (initial_sound o)

/-- What holds at the start and is kept by every change holds of every state that a lowering gets
to. -/
theorem Reachable.invariant {I : State → Prop} (h : Reachable p s)
    (start : ∀ o, I (State.initial o))
    (keep : ∀ s t, Reachable p s → Change p s t → I s → I t) : I s := by
  obtain ⟨o, ho⟩ := h
  induction ho with
  | refl => exact start o
  | tail hs hc ih => exact keep _ _ ⟨o, hs⟩ hc ih

end

end CheckedIR.Lowering

import CheckedIR.Proofs.Lowering.Actions

/-!
# How types are lowered

Asking for the type of a value, for a record or for a runtime function touches no function that is
there. What comes back is a type that fields and values can have.
-/

namespace CheckedIR.Lowering

open CheckedIR.Ir CheckedIR.Program CheckedIR.Scope CheckedIR.Scope.Action

section
variable {p : Program} {M : Manner} {s t u : State}

/-! ## Records -/

def KeepsRecords (n : Nat) (s t : State) : Prop :=
  ∀ r < n, t.module.records[r]? = s.module.records[r]?

theorem KeepsRecords.refl (n : Nat) (s : State) : KeepsRecords n s s := fun _ _ => rfl

theorem KeepsRecords.trans {n k : Nat} (hn : n ≤ k) (h : KeepsRecords n s t)
    (h' : KeepsRecords k t u) : KeepsRecords n s u :=
  fun r hr => (h' r (Nat.lt_of_lt_of_le hr hn)).trans (h r hr)

theorem keepsRecords_defining (rec : Record) (ht : t.module = defining s.module rec) :
    KeepsRecords s.module.records.length s t := by
  intro r hr
  rw [ht]
  exact List.getElem?_append_left hr

theorem run_stringRecord : ∃ r u, Lower.stringRecord.run s = (.ok r, u) ∧ u.env = s.env := by
  unfold Lower.stringRecord
  rw [run_get_bind]
  cases s.stringRecord? with
  | some r => exact ⟨r, s, rfl, rfl⟩
  | none => exact ⟨_, _, rfl, rfl⟩

theorem stringRecord_works :
    Works p M s Lower.stringRecord fun r t => t.stringRecord? = some r ∧
      KeepsRecords s.module.records.length s t := by
  refine .get_bind fun _ => ?_
  split
  · rename_i r hr
    exact .pure ⟨hr, .refl _ s⟩
  · rename_i hnew
    refine .relying fun hs _ =>
      .step (.stringRecord hnew) (fun ho hc => ?_) rfl (y := pure s.module.records.length)
      fun _ _ => .pure ⟨rfl, keepsRecords_defining _ rfl⟩
    refine .aside hc ho ⟨rfl, rfl, rfl, rfl⟩ rfl ⟨rfl, rfl⟩ fun r hr _ _ => ?_
    exact fun v _ hv => absurd (hs.recordsMade.lt r v hv) (Nat.not_lt_of_le hr)

theorem typeWith_works {build : TypeId → Lower RecordId} {v : TypeId}
    (hbuild : ∀ v s, Works p M s (build v) fun r t => HasRecord p v r t ∧
      KeepsRecords s.module.records.length s t) :
    Works p M s (Lower.typeWith p build v) fun ty t => Lowered p v ty t ∧
      KeepsRecords s.module.records.length s t := by
  unfold Lower.typeWith Lowered
  dsimp only
  split_ifs
  · exact .pure ⟨rfl, .refl _ s⟩
  · exact .pure ⟨rfl, .refl _ s⟩
  · exact .bind stringRecord_works fun r t _ _ ⟨hr, hkept⟩ => .pure ⟨⟨r, hr, rfl⟩, hkept⟩
  · exact .bind (hbuild v s) fun r t _ _ ⟨hr, hkept⟩ => .pure ⟨⟨r, hr, rfl⟩, hkept⟩
  · rename_i hvoid
    exact .pure ⟨⟨hvoid, rfl⟩, .refl _ s⟩
  · exact .refuse rfl
  · exact .read_bind (.answered fun _ _ => trivial) fun _ _ => .refuse rfl

theorem logLayout_works {r : RecordId} (hr : r < s.module.records.length) (hfilled : Filled p s r) :
    Works p M s (Lower.logLayout r) fun _ t => t.module = s.module := by
  refine .get_bind fun _ => ?_
  dsimp only
  refine .bind (Q := fun _ t => t.module = s.module) ?_ fun _ t _ _ ht => ?_
  · exact .step (.layouts r hr hfilled)
      (fun ho hc => .aside hc ho ⟨rfl, rfl, rfl, rfl⟩ rfl ⟨rfl, rfl⟩ (.of_length rfl))
      (y := pure ()) rfl
      fun _ _ => .pure rfl
  · split <;> exact debug_works.mono fun _ _ _ _ h => h.trans ht

theorem addFields_works {build : TypeId → Lower RecordId} {r : RecordId} {v : TypeId} {rec : Record}
    {ss : List SymbolId}
    (hbuild : ∀ v s, Works p M s (build v) fun r t => HasRecord p v r t ∧
      KeepsRecords s.module.records.length s t)
    (hobject : (r, v) ∈ s.objects) (hrec : s.module.records[r]? = some rec)
    (hvisible : rec.isOpaque = false) (hleft : (p.storedProperties v).drop rec.fields.length = ss)
    (hle : rec.fields.length ≤ (p.storedProperties v).length) :
    Works p M s (Lower.addFields p build r ss) fun _ t => Filled p t r ∧ KeepsRecords r s t := by
  -- on the properties that are left; the record has a field for each that was done
  induction ss generalizing s rec with
  | nil =>
    refine .relying fun hs _ => .pure ⟨fun v' rec' hv' hrec' => .inr ?_, .refl _ s⟩
    obtain rfl := hs.recordsMade.unique r v v' hobject hv'
    obtain rfl := Option.some.inj (hrec.symm.trans hrec')
    exact Nat.le_antisymm hle (List.drop_eq_nil_iff.1 hleft)
  | cons q ss ih =>
    have hlt := (List.getElem?_eq_some_iff.1 hrec).1
    have hnext : (p.storedProperties v)[rec.fields.length]? = some q := by
      rw [← List.head?_drop, hleft]
      rfl
    refine .bind (typeWith_works hbuild) fun ty t _ h hlowered => ?_
    obtain ⟨hty, hkept⟩ := hlowered
    have hrec' : t.module.records[r]? = some rec := (hkept r hlt).trans hrec
    have hobject' := h.changes.remembers.objects.subset hobject
    let rec' : Record := { rec with fields := rec.fields ++ [ty] }
    let t' : State := { t with
      module := t.module.modifyRecord r fun rec => { rec with fields := rec.fields ++ [ty] } }
    have hstep :
        Works p M t (Lower.modifyModule
          (·.modifyRecord r fun rec => { rec with fields := rec.fields ++ [ty] }))
        fun _ w => w = t' :=
      .modify (.field r v rec q ty hobject' hrec' hvisible hnext hty)
        (fun ho hc => .aside hc ho ⟨rfl, rfl, rfl, rfl⟩ rfl ⟨rfl, rfl⟩
          (.of_length (List.length_modify _ _ _))) rfl
    have hmore : t'.module.records[r]? = some rec' := by
      simp only [t', Module.modifyRecord, List.getElem?_modify_eq, hrec']
      rfl
    refine .bind hstep fun _ w _ _ hw => ?_
    subst hw
    refine (ih (s := t') hobject' hmore hvisible ?_ ?_).mono fun _ w _ _ hadded =>
      ⟨hadded.1, fun q hq => ?_⟩
    · rw [List.length_append, List.length_singleton, ← List.drop_drop, hleft]
      rfl
    · rw [List.length_append, List.length_singleton]
      exact (List.getElem?_eq_some_iff.1 hnext).1
    · rw [hadded.2 q hq, ← hkept q (Nat.lt_trans hq hlt)]
      exact List.getElem?_modify_ne _ _ (Nat.ne_of_gt hq)

theorem recordTo_works (depth : Nat) {v : TypeId} {isOpaque : Bool} :
    Works p M s (Lower.recordTo p depth v isOpaque)
      fun r t => HasRecord p v r t ∧ KeepsRecords s.module.records.length s t := by
  induction depth generalizing s v isOpaque M with
  | zero => exact .throw (isOrdinary_exhausted.verdict _)
  | succ depth ih =>
    refine .read_bind (.answered fun _ => id) fun name hname => .get_bind fun _ => ?_
    split
    · rename_i r hr
      exact .pure ⟨⟨name, hname, hr⟩, .refl _ s⟩
    rename_i hnew
    let new : RecordId := s.module.records.length
    let empty : Record := ⟨name, [], false, isOpaque || p.isAmbient v⟩
    let s1 : State := { s with
      module := defining s.module empty
      typeDefs := s.typeDefs ++ [(name, new)]
      objects := s.objects ++ [(new, v)] }
    -- the record is known before it has any field, and types of its properties may lead back to it
    have hlookup : s1.typeDefs.lookup name = some new := by simp [s1, List.lookup_append, hnew]
    have hrec : s1.module.records[new]? = some empty := List.getElem?_concat_length
    have hobject : (new, v) ∈ s1.objects := by simp [s1]
    have hkept : KeepsRecords s.module.records.length s s1 := keepsRecords_defining _ rfl
    refine .built (r := new)
      (.step (t := s1) (.objectRecord v name (isOpaque || p.isAmbient v) hname hnew)
      (fun ho hc => .aside hc ho ⟨rfl, rfl, rfl, rfl⟩ rfl ⟨rfl, rfl⟩ fun r hr hlt hb => ?_) (by rfl)
      (y := if isOpaque || p.isAmbient v then pure new else do
        Lower.addFields p (fun v => Lower.recordTo p depth v false) new (p.storedProperties v)
        Lower.logLayout new
        return new) fun _ _ => ?_)
    · have hlen : s1.module.records.length = new + 1 := List.length_append
      rw [hlen] at hlt
      have he : r = new := Nat.le_antisymm (Nat.le_of_lt_succ hlt) hr
      exact absurd (List.mem_cons.2 (.inl he)) hb
    · split
      · rename_i hvisible
        refine .pure ⟨fun v' rec' _ hrec' => .inl ?_, ⟨name, hname, hlookup⟩, hkept⟩
        obtain rfl := Option.some.inj (hrec.symm.trans hrec')
        exact hvisible
      · rename_i hvisible
        refine .bind (addFields_works (fun _ _ => ih) hobject hrec (by simpa [empty] using hvisible)
          rfl (Nat.zero_le _)) fun _ t _ h ⟨hfilled, hkept'⟩ => ?_
        have hlt := Nat.lt_of_lt_of_le
          (List.getElem?_eq_some_iff.1 hrec).1 h.changes.grows.records.length_le
        refine .bind (logLayout_works hlt hfilled) fun _ w _ h' hw =>
          .pure ⟨hfilled.mono h'.changes hlt, ?_, ?_⟩
        · exact HasRecord.mono (h.trans h').changes ⟨name, hname, hlookup⟩
        · exact (hkept.trans (Nat.le_refl _) hkept').trans (Nat.le_refl _) fun r _ => by rw [hw]

theorem record_works {v : TypeId} {isOpaque : Bool} :
    Works p M s (Lower.record p v isOpaque) (HasRecord p v) :=
  (recordTo_works _).mono fun _ _ _ _ h => h.1

theorem run_record {t : TypeId} {r : RecordId} (h : HasRecord p t r s) (isOpaque : Bool) :
    (Lower.record p t isOpaque).run s = (.ok r, s) := by
  obtain ⟨name, hname, hl⟩ := h
  unfold Lower.record Lower.recordTo
  rw [hname, Lower.answered, pure_bind, run_get_bind, hl]
  rfl

/-- Once all records that a type needs are there, lowering it changes nothing. -/
theorem run_type {v : TypeId} {ty : Ty} (h : Lowered p v ty s) :
    (Lower.type p (some v)).run s = (.ok ty, s) := by
  unfold Lower.type Lower.typeWith
  dsimp only
  unfold Lowered at h
  split_ifs at h ⊢
  · rw [h]
    rfl
  · rw [h]
    rfl
  · obtain ⟨r, hr, rfl⟩ := h
    have hrun : Lower.stringRecord.run s = (.ok r, s) := by
      unfold Lower.stringRecord
      rw [run_get_bind, hr]
      rfl
    rw [run_bind, hrun]
    rfl
  · obtain ⟨r, hr, rfl⟩ := h
    rw [run_bind, run_record hr]
    rfl
  · rw [h.2]
    rfl
  · exact absurd h.1 (by assumption)
  · exact absurd h.1 (by assumption)

theorem type_works {v : Option TypeId} :
    Works p M s (Lower.type p v) fun ty t => ty.IsField t.module.records := by
  cases v with
  | none => exact .refuse rfl
  | some v =>
    exact (typeWith_works fun _ _ => recordTo_works _).mono fun _ _ ht _ h => h.1.isField ht.records

/-! ## Runtime functions -/

theorem builtinType_works {name : String} :
    Works p M s (Lower.builtinType name) fun t u => t.IsPlain u.module.records := by
  unfold Lower.builtinType
  split
  · exact .pure trivial
  · exact .pure trivial
  · exact .pure trivial
  · exact .bind stringRecord_works fun r u hu _ ⟨hr, _⟩ => .pure (hu.records.string_field hr).plain
  · exact .refuse rfl

def declaredFunc (name : String) (returns : Ty) (params : List (String × Ty)) : Func :=
  ⟨name, 0, returns, params.map fun (n, t) => ⟨n, 0, t⟩, false, []⟩

@[simp] theorem name_declaredFunc {name : String} {returns : Ty} {params : List (String × Ty)} :
    (declaredFunc name returns params).name = name := rfl

@[simp] theorem paramTypes_declaredFunc {name : String} {returns : Ty}
    {params : List (String × Ty)} :
    (declaredFunc name returns params).paramTypes = params.map Prod.snd := by
  simp [declaredFunc, Func.paramTypes, Function.comp_def]

theorem find?_name {name : String} {b : Builtin} (h : Builtin.find? name = some b) :
    b.name = name := by
  simpa using List.find?_some h

theorem Reach.declare {fn : Func} {t : State} (hc : Changes p s t) (ho : M.Admits p s)
    (hfn : fn.blocks = [])
    (ht : t.module.funcs = s.module.funcs ++ [fn]) (hi : t.env.inner = s.env.inner)
    (hp : t.cursor = s.cursor ∧ t.frame = s.frame) (hstill : M.still = false)
    (hsilent : M.silent = false)
    (hr : t.module.records = s.module.records) (hv : t.declared = s.declared ∧
      t.origins = s.origins) : Reach p M s t where
  changes := hc
  admits := ho
  others g hg _ := by
    unfold Module.func?
    rw [ht, List.getElem?_append_left hg]
  settled g fn' hg hf := by
    unfold Module.func? at hf
    rw [ht, List.getElem?_append_right hg] at hf
    obtain rfl : fn' = fn := by simpa using List.mem_of_getElem? hf
    simp [Func.isTerminated, hfn]
  inner := hi
  declared g _ _ := by unfold State.variablesOf; rw [hv.1]
  place _ := hp
  opened _ g hg := by
    obtain ⟨fn', b, hf, hb, hn⟩ := hg
    have hlt := (List.getElem?_eq_some_iff.1 hf).1
    refine ⟨fn', b, ?_, hb, hn⟩
    unfold Module.func? at hf ⊢
    rw [ht, List.getElem?_append_left hlt, hf]
  still h := by simp [hstill] at h
  silent h := by simp [hsilent] at h
  completes := .of_length (by rw [hr])
  emitted g r hg := .inl (hv.2 ▸ hg)

theorem builtin_works {name : String} (hM : M.still = false) (hs : M.silent = false)
    (hbuild : M.building = []) :
    Works p M s (Lower.builtin name) fun f u => u.funcs.lookup name = some f := by
  refine .get_bind fun _ => ?_
  split
  · rename_i f hf
    exact .pure hf
  rename_i hnone
  split
  · exact .refuse rfl
  rename_i b hb
  obtain rfl := find?_name hb
  refine .bind_le builtinType_works (.asIs hbuild) fun returns t _ hreach hreturns => ?_
  refine .bind_le (.mapM (P := fun q u => q.2.IsPlain u.module.records) ?_ ?_) (.asIs hbuild)
    fun params u hu hreach' hparams => ?_
  · exact fun q t u hc hq => hc.grows.records.plain hq
  · exact fun q _ t => .bind builtinType_works fun ty _ _ _ hty => .pure hty
  have hfuncs : u.funcs = s.funcs := ((hreach.trans hreach').still rfl).2
  let fn := declaredFunc b.name returns params
  have hfits : FuncFits u.module fn := by
    refine ⟨rfl, hreach'.changes.grows.records.plain hreturns, fun t ht => ?_⟩
    rw [paramTypes_declaredFunc, List.mem_map] at ht
    obtain ⟨q, hq, rfl⟩ := ht
    exact hparams q hq
  refine .step (.declare fn none (hfuncs ▸ hnone) hfits (fun _ => ?_) (fun r hr => by cases hr))
    (fun ho hc => .declare hc ho rfl rfl rfl ⟨rfl, rfl⟩ hM hs rfl ⟨rfl, List.append_nil _⟩)
    (y := pure u.module.funcs.length) ?_
    fun _ _ => .pure ?_
  · rw [show Builtin.find? fn.name = some b from hb]
    rfl
  · simp only [Option.map_none, Option.toList_none, List.append_nil]
    rfl
  · simp [List.lookup_append, hfuncs, hnone, fn]

/-! ## Allocation -/

theorem run_extent_record (t : Layout.Target) (rs : Records) (r : RecordId) (k : Layout.Known) :
    (t.extent rs (.record r)).run k =
      (((t.layout rs r).run k).1.map Layout.RecordLayout.extent, ((t.layout rs r).run k).2) := by
  unfold Layout.Target.extent Layout.Target.extentWith
  rw [Layout.Sizing.run_bind]
  rcases (t.layout rs r).run k with ⟨e | l, k'⟩ <;> rfl

theorem byteSize_works {r : RecordId} (hr : r < s.module.records.length) (hfilled : Filled p s r) :
    Works p M s (Lower.byteSize (.record r)) fun size _ => RecordSize s r size := by
  refine .relying fun hs _ => .get_bind fun _ => ?_
  dsimp only
  have hsizes := (Layout.layout_sizes hs.flatRecords (List.getElem?_eq_getElem hr) hfilled
    (fun q hq => hs.recordsMade.filled_string hq) hs.layouts).answer
  have hlayouts : Change p s _ := .layouts r hr hfilled
  rw [run_extent_record]
  revert hsizes hlayouts
  rcases (s.target.layout s.module.records r).run s.layouts with ⟨e | l, known⟩ <;>
    intro hsizes hlayouts
  all_goals
    refine .bind (Q := fun _ _ => True) (.step hlayouts
      (fun ho hc => .aside hc ho ⟨rfl, rfl, rfl, rfl⟩ rfl ⟨rfl, rfl⟩ (.of_length rfl))
      (y := pure ()) rfl
      fun _ _ => .pure trivial) fun _ _ _ _ _ => ?_
  · exact .refuse rfl
  · refine .pure ⟨_, l.extent, List.getElem?_eq_getElem hr, ?_⟩
    split at hsizes
    · cases hsizes
    · rename_i hvisible
      exact ⟨by simpa using hvisible, hsizes.symm, rfl⟩

theorem allocate_works {f : FuncId} {r : RecordId} (hr : Ready f s)
    (hlt : r < s.module.records.length) (hfirst : s.module.firstCall? f = none) :
    Works p (.within f) s (Lower.allocate (.record r)) fun v u =>
      Usable f u v ∧ AllocatesRecord p f r u ∧ s.stringRecord? ≠ some r := by
  have hheld : (Ty.record r).IsHeld s.module.records := hlt
  refine .relying fun hs hadmits => .read_bind (isString_reads (t := .record r)) fun b hb => ?_
  split
  · exact .read_bind typeText_reads fun _ _ => .bind (.refuse rfl) fun _ _ _ _ h => False.elim h
  rename_i hno
  have hnoString : s.stringRecord? ≠ some r := fun h => hno (hb.2 ⟨r, rfl, h⟩)
  have hfilled : Filled p s r := hadmits.filled r hlt (List.not_mem_nil)
  refine .bind_le (byteSize_works (M := .asIs) hlt hfilled) (.asIs rfl) fun size t1 _ h1 hsize => ?_
  refine .bind_le (builtin_works (M := .quiet) rfl rfl rfl) (.quiet rfl rfl rfl)
    fun g t2 hs2 h2 hg => ?_
  have hr2 := h2.ready rfl rfl (h1.ready rfl rfl hr)
  have hsame : t2.module.func? f = s.module.func? f := by
    rw [h2.others f (h1.ready rfl rfl hr).owns (by nofun), h1.others f hr.owns (by nofun)]
  have hfirst2 : t2.module.firstCall? f = none := by
    unfold Module.firstCall? at hfirst ⊢
    rw [hsame, hfirst]
  obtain ⟨alloc, halloc⟩ := hs2.table_func hg
  have hargs : ∀ v ∈ [Value.const (.int 32 size.toInt)], Usable f t2 v := by
    intro v hv
    rw [List.mem_singleton.1 hv]
    exact usable_const trivial
  refine .bind ((runtimeCall_works hr2 hg rfl hargs).and fun _ _ =>
    firstCall?_of_run_call hs2 hr2 halloc hfirst2) fun raw t3 hs3 h3 ⟨hraw, hfirst3⟩ => ?_
  have htyped : (Op.bitcast raw (.pointer (.record r))).IsTyped t3.module := trivial
  have hc3 : Changes p s t3 := (h1.changes.trans h2.changes).trans h3.changes
  have hplain : (Ty.pointer (.record r)).IsPlain t3.module.records := hc3.grows.records.held hheld
  refine (emit_unary_works (h3.ready rfl rfl hr2) hraw rfl rfl htyped rfl hplain).mono
    fun v u _ h4 hv => ⟨hv.1, ?_, hnoString⟩
  obtain ⟨w, hw⟩ := (hs.recordsMade.made r hlt).resolve_left hnoString
  refine AllocatesRecord.mono h4.changes ⟨hfilled.mono hc3 hlt,
    ⟨w, hc3.remembers.objects.subset hw⟩, size, g, _, hsize.mono hc3 hfilled, ?_, hfirst3⟩
  exact lookup_grown h3.changes.remembers.funcs hg

end

end CheckedIR.Lowering

import CheckedIR.Proofs.Lowering.Types

/-!
# How values are found

What a name stands for can be used in the function at the cursor, or the name is refused.
-/

namespace CheckedIR.Lowering

open CheckedIR.Ir CheckedIR.Program CheckedIR.Scope CheckedIR.Scope.Action

section
variable {p : Program} {M : Manner} {s : State} {f : FuncId}

theorem stringGlobal_works {text : String} :
    Works p M s (Lower.stringGlobal text) fun _ _ => True := by
  refine .get_bind fun _ => ?_
  dsimp only
  split
  · exact .pure trivial
  · rename_i hnew
    exact .get_bind fun _ =>
      .step (.text text hnew) (fun ho hc => .aside hc ho ⟨rfl, rfl, rfl, rfl⟩ rfl ⟨rfl, rfl⟩
        (.of_length rfl)) rfl
      (y := Pure.pure s.module.globals.length) fun _ _ => .pure trivial

theorem stringConstant_works {text : String} :
    Works p M s (Lower.stringConstant text) fun c u => c.type.IsPlain u.module.records :=
  .bind stringGlobal_works fun _ _ _ _ _ => .bind stringRecord_works fun _ _ _ _ ⟨hr, _⟩ =>
    .step (.literal text _) (fun ho hc => .aside hc ho ⟨rfl, rfl, rfl, rfl⟩ rfl ⟨rfl, rfl⟩
      (.of_length rfl)) rfl (y := Pure.pure _) fun hu _ => .pure (hu.records.string_field hr).plain

/-! ## Names -/

theorem resolveIn_error {e : Env} {k : ScopeId} {path : List String} {c : Cause}
    (h : e.resolveIn k path = .error c) : c.isVerdict = false := by
  induction path generalizing k with
  | nil =>
    cases h
    rfl
  | cons name rest ih =>
    cases rest with
    | nil =>
      simp only [Environment.resolveIn] at h
      split at h
      · cases h
      · cases h
        rfl
    | cons next rest =>
      simp only [Environment.resolveIn] at h
      split at h
      · exact ih h
      · cases h
        rfl
      · cases h
        rfl

theorem get_error {e : Env} {name : String} {c : Cause} (h : e.get name = .error c) :
    c.isVerdict = false := by
  unfold Environment.get Environment.resolve at h
  split at h
  · cases h
    rfl
  · split at h
    · cases h
    · cases h
      rfl
  · split at h
    · exact resolveIn_error h
    · cases h
      rfl
    · cases h
      rfl

theorem getValue_error {e : Env} {name : String} {c : Cause} (h : e.getValue name = .error c) :
    c.isVerdict = false := by
  unfold Environment.getValue at h
  cases hg : e.get name with
  | error c' =>
    rw [hg] at h
    cases h
    exact get_error hg
  | ok b =>
    rw [hg] at h
    cases b <;> cases h
    rfl

theorem getScope_error {e : Env} {name : String} {c : Cause} (h : e.getScope name = .error c) :
    c.isVerdict = false := by
  unfold Environment.getScope at h
  cases hg : e.get name with
  | error c' =>
    rw [hg] at h
    cases h
    exact get_error hg
  | ok b =>
    rw [hg] at h
    cases b <;> cases h <;> rfl

theorem EnvFits.getValue {m : Module} {e : Env} (h : EnvFits m e) {name : String} {v : Value}
    (hv : e.getValue name = .ok (some v)) : v.IsFit m := by
  unfold Environment.getValue at hv
  cases hg : e.get name with
  | error c =>
    rw [hg] at hv
    cases hv
  | ok b =>
    rw [hg] at hv
    cases b <;> cases hv
    exact h.get hg

theorem localValue_reads {name : String} {v : Value} (hs : s.Sound) (hv : v.IsFit s.module) :
    Reads s (Lower.localValue name v) (Usable s.cursor.func s) := by
  refine .get_bind ?_
  split
  · rename_i hu
    exact .pure ⟨hv, hs.frame_func ▸ hu⟩
  · exact .refuse rfl

theorem lookupValue_reads {name : String} {span : Span} (hs : s.Sound) :
    Reads s (Lower.lookupValue name span) (Usable s.cursor.func s) := by
  refine .orAt (.get_bind (.bind (.ofCause (fun _ => getValue_error) fun _ => id) fun v? hv? => ?_))
  refine .bind (.orCrash fun _ => id) fun v hv => localValue_reads hs ?_
  subst hv
  exact hs.env.getValue hv?

theorem scopeOf?_reads : (e : Expr) → Reads s (Lower.scopeOf? e) fun _ => True
  | .ident _ name => by
    refine .get_bind ?_
    split <;> exact .pure trivial
  | .member _ object name => by
    refine .bind (scopeOf?_reads object) fun k? _ => ?_
    split
    · exact .pure trivial
    · exact .get_bind (.pure trivial)
  | .missing | .numeric .. | .text .. | .boolean .. | .this .. | .binary .. | .unary ..
  | .construct ..
  | .call .. | .unknown .. => .pure trivial

/-! ## Loading and naming -/

theorem loaded_works {v : Value} (hr : Ready f s) (hv : Usable f s v) :
    Works p (.within f) s (Lower.loaded v) fun w u => Usable f u w := by
  refine .sound fun hs => ?_
  unfold Lower.loaded
  split
  · rename_i elem htype
    have hheld : elem.IsHeld s.module.records := by
      have := hv.fit.plain
      rwa [htype] at this
    refine .read_bind (isValueType_reads hs hheld) fun b hb => ?_
    split
    · rename_i hb'
      have htyped : (Op.load elem v).IsTyped s.module := ⟨htype, hb hb'⟩
      exact (emit_unary_works hr hv rfl rfl htyped rfl (hb hb')).mono fun _ _ _ _ h => h.1
    · exact .pure hv
  · exact .pure hv

theorem Reach.rename {m : Module} {t : State} (hc : Changes p s t) (ho : M.Admits p s)
    (hM : M.own? = some f)
    (hstill : M.still = false) (hsilent : M.silent = false) (ht : t.module = m)
    (hm : s.module.SameCode m)
    (hothers : ∀ g, f ≠ g → m.func? g = s.module.func? g) (hi : t.env.inner = s.env.inner)
    (hp : t.cursor = s.cursor ∧ t.frame = s.frame) (hv : t.declared = s.declared ∧
      t.origins = s.origins) : Reach p M s t where
  changes := hc
  admits := ho
  others g _ hg := ht ▸ hothers g fun he => hg (he ▸ hM)
  settled g fn hg hf := by
    rw [ht, Module.func?, List.getElem?_eq_none (by rw [hm.length_eq]; exact hg)] at hf
    cases hf
  inner := hi
  declared g _ _ := by unfold State.variablesOf; rw [hv.1]
  place _ := hp
  opened _ g hg := ht ▸ hm.isOpen hg
  still h := by simp [hstill] at h
  silent h := by simp [hsilent] at h
  completes := .of_length (by rw [ht, hm.records])
  emitted g r hg := .inl (hv.2 ▸ hg)

theorem nameResult_works {v : Value} {name : String} (hr : Ready f s) (hv : Usable f s v)
    (hname : p.Mentions name) :
    Works p (.within f) s (Lower.nameResult v name) fun _ _ => True := by
  unfold Lower.nameResult
  split
  · rename_i g i t
    obtain rfl : f = g := by simpa [Value.isUsableIn, Value.home?] using hv.isUsable
    refine .get_bind fun hs => ?_
    obtain rfl : s.frame.func = f := hs.frame_func.trans hr.here
    split
    · exact .pure trivial
    refine .step (.name s.frame.func i name hname) (fun ho hc => ?_) (y := pure ()) rfl fun _ _ =>
      .pure trivial
    exact .rename hc ho rfl rfl rfl rfl (Module.sameCode_rename _ _ _ _)
      (fun g hg => Module.func?_modifyFunc_of_ne _ hg) rfl ⟨rfl, rfl⟩ ⟨rfl, rfl⟩
  all_goals exact .pure trivial

end

end CheckedIR.Lowering

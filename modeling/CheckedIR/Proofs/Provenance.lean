import CheckedIR.Proofs.Compiled
import Mathlib.Data.List.Nodup

/-!
# Where functions, calls and records come from

A call leads to the function that the table has under the mangled name of what it was resolved to,
and that function was made for a request of the same mangled name or belongs to the runtime. Object
types share a record exactly when they share a mangled name. Mangled names do not tell declarations
of different files apart, nor object types without a name of their own.
-/

namespace CheckedIR.Lowering

open CheckedIR.Ir CheckedIR.Program CheckedIR.Scope.Action

/-- Function `g` was made for one request, which has the mangled name, or it is the function of the
runtime with that name. -/
def MadeUnder (p : Program) (origins : List (FuncId × Request)) (name : String) (g : FuncId) :
    Prop :=
  (∃ r, (∀ r', (g, r') ∈ origins ↔ r' = r) ∧ p.mangledFunction r.decl r.owner? = .ok name) ∨
    ((∀ r, (g, r) ∉ origins) ∧ (Builtin.find? name).isSome)

structure Traced (p : Program) (s : State) : Prop where
  origins : ∀ g r, (g, r) ∈ s.origins → g < s.module.funcs.length
  funcs : ∀ name g, (name, g) ∈ s.funcs → g < s.module.funcs.length ∧ MadeUnder p s.origins name g
  calls : ∀ f i e, ((f, i), e) ∈ s.calls →
    ∃ r g, request? p e = some r ∧ CallAt s.module f i g ∧ Answers p r g s
  noted : ∀ f i op, OpAt s.module f i op → op.isCall = true →
    (∃ e, ((f, i), e) ∈ s.calls) ∨ IsRuntimeCall s op

/-! ## Instructions of a changed module -/

theorem opAt_setBody {m : Module} {f h : FuncId} {b : Ir.Block} {i : InstId} {op : Op}
    (ho : OpAt (m.setBody f b) h i op) : OpAt m h i op ∨ h = f ∧ (i, op) ∈ b.code := by
  obtain ⟨fn', hf', hi⟩ := ho
  by_cases he : f = h
  · subst he
    unfold Module.setBody at hf'
    rw [Module.func?_modifyFunc, if_pos rfl] at hf'
    obtain ⟨fn, -, rfl⟩ := Option.map_eq_some_iff.1 hf'
    rw [Func.insts_of_body (show Func.IsBody { fn with blocks := [b] } b from rfl)] at hi
    exact .inr ⟨rfl, hi⟩
  · rw [Module.func?_setBody_of_ne he] at hf'
    exact .inl ⟨fn', hf', hi⟩

theorem opAt_grown {m : Module} {f h : FuncId} {fn : Func} {b b' : Ir.Block} {i : InstId} {op : Op}
    {new : Inst}
    (hf : m.func? f = some fn) (hb : fn.IsBody b) (hnew : ∀ j ∈ b'.insts, j ∈ b.insts ∨ j = new)
    (ho : OpAt (m.setBody f b') h i op) : OpAt m h i op ∨ h = f ∧ (i, op) = new.core := by
  rcases opAt_setBody ho with ho | ⟨rfl, hi⟩
  · exact .inl ho
  · obtain ⟨j, hj, he⟩ := List.mem_map.1 hi
    rcases hnew j hj with hj | rfl
    · exact .inl ⟨fn, hf, List.mem_map.2 ⟨j, by rwa [Func.insts_of_body hb], he⟩⟩
    · exact .inr ⟨rfl, he.symm⟩

theorem opAt_ended {m : Module} {f h : FuncId} {fn : Func} {b : Ir.Block} {i : InstId} {op : Op}
    {t : Terminator} (hf : m.func? f = some fn) (hb : fn.IsBody b)
    (ho : OpAt (m.setBody f { b with term? := some t }) h i op) : OpAt m h i op := by
  rcases opAt_setBody ho with ho | ⟨rfl, hi⟩
  · exact ho
  · exact ⟨fn, hf, by rwa [Func.insts_of_body hb]⟩

theorem opAt_append {m : Module} {fn : Func} {h : FuncId} {i : InstId} {op : Op}
    (hfn : fn.blocks = [])
    (ho : OpAt { m with funcs := m.funcs ++ [fn] } h i op) : OpAt m h i op := by
  obtain ⟨fn', hf', hi⟩ := ho
  rcases Nat.lt_or_ge h m.funcs.length with hlt | hge
  · exact ⟨fn', by unfold Module.func? at hf' ⊢; rwa [List.getElem?_append_left hlt] at hf', hi⟩
  · simp only [Module.func?, List.getElem?_append_right hge] at hf'
    obtain rfl : fn' = fn := by simpa using List.mem_of_getElem? hf'
    rw [Func.insts_of_blocks_nil hfn] at hi
    cases hi

section
variable {p : Program} {s t : State}

theorem Change.opAt (hc : Change p s t) {f : FuncId} {i : InstId} {op : Op}
    (ho : OpAt t.module f i op) (hcall : op.isCall = true) :
    OpAt s.module f i op ∨ IsRuntimeCall s op ∨ ∃ e, ((f, i), e) ∈ t.calls := by
  cases hc with
  | declare fn r? hnew hfn => exact .inl (opAt_append hfn.blocks ho)
  | «open» g fn isConstructor hf hblocks =>
    rcases opAt_setBody ho with ho | ⟨-, hi⟩
    · exact .inl ho
    · cases hi
  | emit fn b op' hf hb hopen hop hcall' =>
    rcases opAt_grown hf hb (fun j hj => by simpa using hj) ho with ho | ⟨-, he⟩
    · exact .inl ho
    · obtain ⟨-, rfl⟩ := Prod.mk.inj he
      exact .inr (.inl (hcall' hcall))
  | call fn callee b e r g args hf hb =>
    rcases opAt_grown hf hb (fun j hj => by simpa using hj) ho with ho | ⟨rfl, he⟩
    · exact .inl ho
    · obtain ⟨rfl, -⟩ := Prod.mk.inj he
      exact .inr (.inr ⟨e, List.mem_append_right _ (List.mem_singleton.2 rfl)⟩)
  | slot fn b name u hf hb =>
    rcases opAt_grown hf hb (fun j hj => (List.mem_cons.1 hj).symm) ho with ho | ⟨-, he⟩
    · exact .inl ho
    · obtain ⟨-, rfl⟩ := Prod.mk.inj he
      cases hcall
  | terminate fn b u hf hb | finish fn b hf hb => exact .inl (opAt_ended hf hb ho)
  | name g j name => exact .inl (ho.mono (s.module.sameCode_rename g j _).symm.grows)
  | number m hm => exact .inl (ho.mono hm.sameCode.symm.grows)
  | _ => exact .inl ho

theorem IsRuntimeCall.mono {op : Op} (hc : Changes p s t) (h : IsRuntimeCall s op) :
    IsRuntimeCall t op := by
  obtain ⟨g, ty, args, name, he, hl, hb⟩ := h
  exact ⟨g, ty, args, name, he, lookup_grown hc.remembers.funcs hl, hb⟩

/-! ## Traces are kept -/

theorem Change.calls (hc : Change p s t) : s.calls ⊆ t.calls := by
  cases hc with
  | call => exact List.subset_append_left _ _
  | _ => exact List.Subset.refl _

theorem Traced.declare (h : Traced p s) {fn : Func} {r? : Option Request}
    (hbuiltin : r? = none → (Builtin.find? fn.name).isSome)
    (hrequest : ∀ r, r? = some r → p.mangledFunction r.decl r.owner? = .ok fn.name) {name : String}
    {g : FuncId} (hg : (name, g) ∈ s.funcs ++ [(fn.name, s.module.funcs.length)]) :
    g < s.module.funcs.length + 1 ∧
      MadeUnder p (s.origins ++ (r?.map fun r => (s.module.funcs.length, r)).toList) name g := by
  rcases List.mem_append.1 hg with hg | hg
  · obtain ⟨hlt, hmade⟩ := h.funcs name g hg
    refine ⟨Nat.lt_succ_of_lt hlt, ?_⟩
    have hold (r : Request) :
        (g, r) ∈ s.origins ++ (r?.map fun r => (s.module.funcs.length, r)).toList ↔
        (g, r) ∈ s.origins := by
      have hne : g ≠ s.module.funcs.length := Nat.ne_of_lt hlt
      cases r? <;> simp [hne]
    simpa only [MadeUnder, hold] using hmade
  · obtain ⟨rfl, rfl⟩ : name = fn.name ∧ g = s.module.funcs.length := by simpa using hg
    refine ⟨Nat.lt_succ_self _, ?_⟩
    have hfresh (r : Request) : (s.module.funcs.length, r) ∉ s.origins :=
      fun hr => Nat.lt_irrefl _ (h.origins _ r hr)
    cases r? with
    | none => exact .inr ⟨fun r => by simpa using hfresh r, hbuiltin rfl⟩
    | some r => exact .inl ⟨r, fun r' => by simp [hfresh r'], hrequest r rfl⟩

theorem Change.traced (hc : Change p s t) (h : Traced p s) : Traced p t := by
  have hcs : Changes p s t := .single hc
  have hnoted : ∀ f i op, OpAt t.module f i op → op.isCall = true →
      (∃ e, ((f, i), e) ∈ t.calls) ∨ IsRuntimeCall t op := by
    intro f i op ho hcall
    rcases hc.opAt ho hcall with ho | hr | he
    · rcases h.noted f i op ho hcall with ⟨e, he⟩ | hr
      · exact .inl ⟨e, hc.calls he⟩
      · exact .inr (hr.mono hcs)
    · exact .inr (hr.mono hcs)
    · exact .inl he
  have hcalls : ∀ f i e, ((f, i), e) ∈ s.calls →
      ∃ r g, request? p e = some r ∧ CallAt t.module f i g ∧ Answers p r g t := by
    intro f i e he
    obtain ⟨r, g, hr, hat, hg⟩ := h.calls f i e he
    exact ⟨r, g, hr, hat.mono hc.grows, hg.mono hcs⟩
  have hlength := hc.grows.length_le
  cases hc with
  | declare fn r? hnew hfn hbuiltin hrequest =>
    refine ⟨fun g r hg => ?_, fun name g hg => ?_, hcalls, hnoted⟩
    · rcases List.mem_append.1 hg with hg | hg
      · exact Nat.lt_of_lt_of_le (h.origins g r hg) hlength
      · cases r? with
        | none => cases hg
        | some r' =>
          obtain ⟨rfl, -⟩ : g = s.module.funcs.length ∧ r = r' := by simpa using hg
          simp
    · simpa using h.declare hbuiltin (fun r hr => (hrequest r hr).2) hg
  | call fn callee b e r g args hf hb hopen hop he hg =>
    refine ⟨fun g r hg => Nat.lt_of_lt_of_le (h.origins g r hg) hlength,
      fun name g hg => ⟨Nat.lt_of_lt_of_le (h.funcs name g hg).1 hlength, (h.funcs name g hg).2⟩,
        ?_, hnoted⟩
    intro f' i e' he'
    rcases List.mem_append.1 he' with he' | he'
    · exact hcalls f' i e' he'
    · obtain ⟨⟨rfl, rfl⟩, rfl⟩ : (f' = s.cursor.func ∧ i = b.insts.length) ∧
        e' = e := by simpa using he'
      obtain ⟨fn', hf', hmem⟩ := exists_setBody (m := s.module) (f := s.cursor.func)
        (b := { b with insts := b.insts ++
          [⟨b.insts.length, "", 0, .call (.func g (.pointer callee.signature)) args⟩] }) hf
        (List.mem_append_right _ (List.mem_singleton.2 rfl))
      exact ⟨r, g, he, ⟨_, args, fn', hf', List.mem_map.2 ⟨_, hmem, rfl⟩⟩, hg.mono hcs⟩
  | _ =>
    exact ⟨fun g r hg => Nat.lt_of_lt_of_le (h.origins g r hg) hlength,
      fun name g hg => ⟨Nat.lt_of_lt_of_le (h.funcs name g hg).1 hlength, (h.funcs name g hg).2⟩,
        hcalls, hnoted⟩

theorem Changes.traced (hc : Changes p s t) (h : Traced p s) : Traced p t := by
  induction hc with
  | refl => exact h
  | tail _ hc ih => exact hc.traced ih

theorem initial_traced (o : Options) : Traced p (State.initial o) := by
  refine ⟨fun g r hg => ?_, fun name g hg => ?_, fun f i e he => ?_, fun f i op ho _ => ?_⟩
  · cases hg
  · cases hg
  · cases he
  · obtain ⟨fn, hf, hi⟩ := ho
    cases f with
    | zero =>
      obtain rfl := Option.some.inj hf
      cases hi
    | succ f => cases hf

theorem OpAt.unique (hs : s.Sound) {f : FuncId} {i : InstId} {op op' : Op}
    (h : OpAt s.module f i op) (h' : OpAt s.module f i op') : op = op' := by
  obtain ⟨fn, hf, hi⟩ := h
  obtain ⟨fn', hf', hi'⟩ := h'
  obtain rfl := Option.some.inj (hf.symm.trans hf')
  rcases (hs.funcs f fn hf).blocks with hnil | ⟨b, hb, hsb⟩
  · rw [Func.insts_of_blocks_nil hnil] at hi
    cases hi
  · rw [Func.insts_of_body hb] at hi hi'
    exact (Prod.mk.inj (List.inj_on_of_nodup_map hsb.nodup hi hi' rfl)).2

/-! ## Records -/

def Builds (p : Program) (o : Options) (s : State) (t : TypeId) (r : RecordId) : Prop :=
  ∃ a b isOpaque, Changes p (State.initial o) a ∧ (Lower.record p t isOpaque).run a = (.ok r, b) ∧
    Changes p b s

theorem builds_iff {o : Options} (hc : Changes p (State.initial o) s) {t : TypeId} {r : RecordId} :
    Builds p o s t r ↔ HasRecord p t r s := by
  constructor
  · rintro ⟨a, b, isOpaque, ha, hrun, hb⟩
    -- any record may be in the making
    let M : Manner := { Manner.asIs with building := List.range a.module.records.length }
    have hworks : Works p M a (Lower.record p t isOpaque) (HasRecord p t) := record_works
    have hends := hworks ⟨o, ha⟩ ⟨nofun, fun r hr hb => absurd (List.mem_range.2 hr) hb⟩
    exact (hends.of_run_ok hrun).2.mono hb
  · exact fun h => ⟨s, s, false, hc, run_record h false, .refl⟩

theorem HasRecord.eq_iff (hs : s.Sound) {t u : TypeId} {r q : RecordId} (ht : HasRecord p t r s)
    (hu : HasRecord p u q s) : r = q ↔ p.mangledType t = p.mangledType u := by
  constructor
  · rintro rfl
    obtain ⟨rec, hrec, hname⟩ := ht.record hs.records
    obtain ⟨rec', hrec', hname'⟩ := hu.record hs.records
    obtain rfl := Option.some.inj (hrec.symm.trans hrec')
    rw [hname, hname']
  · intro he
    obtain ⟨name, hname, hl⟩ := ht
    obtain ⟨name', hname', hl'⟩ := hu
    obtain rfl := Option.some.inj (hname.symm.trans (he.trans hname'))
    exact Option.some.inj (hl.symm.trans hl')

end

/-! ## Compiled programs -/

/-- **Calls and records go by mangled names.** A call that is emitted for an expression leads to the
function that was made under the mangled name of what the checker resolves the expression to. Any
other call leads to the function that was made under the name of a function of the runtime, which is
that one unless a declaration with this mangled name was requested first. Object types share a
record exactly when they share a mangled name. -/
theorem compiled_traced {p : Program} {o : Options} {s : State} (h : Compiles p o s) :
    (∀ f i e, ((f, i), e) ∈ s.calls → ∃ r g name, request? p e = some r ∧
      (∀ g', CallAt s.module f i g' ↔ g' = g) ∧ p.mangledFunction r.decl r.owner? = .ok name ∧
      s.funcs.lookup name = some g ∧ MadeUnder p s.origins name g) ∧
    (∀ f i g, CallAt s.module f i g → (∃ e, ((f, i), e) ∈ s.calls) ∨
      ∃ name, s.funcs.lookup name = some g ∧ (Builtin.find? name).isSome ∧
        MadeUnder p s.origins name g) ∧
    ∀ t u r q, Builds p o s t r → Builds p o s u q →
      (r = q ↔ p.mangledType t = p.mangledType u) := by
  have htraced : Traced p s := h.changes.traced (initial_traced o)
  refine ⟨fun f i e he => ?_, fun f i g hat => ?_, fun t u r q ht hu => ?_⟩
  · obtain ⟨r, g, hr, hat, name, hname, hl⟩ := htraced.calls f i e he
    refine ⟨r, g, name, hr, fun g' => ⟨fun hat' => ?_, fun he => he ▸ hat⟩, hname, hl,
      (htraced.funcs name g (mem_of_lookup hl)).2⟩
    obtain ⟨t, args, hop⟩ := hat
    obtain ⟨t', args', hop'⟩ := hat'
    have := hop'.unique h.sound hop
    injection this with hcallee
    injection hcallee
  · obtain ⟨t, args, hop⟩ := hat
    rcases htraced.noted f i _ hop rfl with he | ⟨g', t', args', name, he, hl, hb⟩
    · exact .inl he
    · injection he with hcallee
      injection hcallee with hg
      rw [← hg] at hl
      exact .inr ⟨name, hl, hb, (htraced.funcs name g (mem_of_lookup hl)).2⟩
  · rw [builds_iff h.changes] at ht hu
    exact ht.eq_iff h.sound hu

/-- A file that declares an interface `P` with one property, a function that returns a `P`, and a
function `f` that returns a number, and calls both functions. -/
def sharingFile (node : NodeId) (interface property maker f : String) (type field : TypeId)
    (x : Double) : SourceFile :=
  let call (s name : String) : Stmt :=
    .expression .blank (.call .blank (.ident { NodeInfo.blank with symbol? := some ⟨s⟩ } name) [])
  ⟨.blank, "", [
    .interfaceDecl { NodeInfo.blank with id := node, declares? := some ⟨interface⟩ } "P" []
      [.property { NodeInfo.blank with declares? := some ⟨property⟩, type? := some field } property
        false none],
    .function { NodeInfo.blank with
      id := node + 1, declares? := some ⟨maker⟩, returns? := some type } maker [] none,
    .function { NodeInfo.blank with
      id := node + 2, declares? := some ⟨f⟩, returns? := some numberType } "f" []
      (some (.mk .blank [.ret .blank (some (.numeric .blank x))])),
    call f "f", call maker maker]⟩

def sharingProgram : Program where
  files := [
    sharingFile 1 "Pa" "x" "g" "fa" ⟨"ta"⟩ numberType (.ofFields false 1023 0),
    sharingFile 4 "Pb" "y" "h" "fb" ⟨"tb"⟩ booleanType (.ofFields false 1024 0)]
  types := intrinsics ++ [
    (⟨"ta"⟩, ⟨[.object], "", some ⟨"Pa"⟩, [], [⟨"x"⟩], none, none, none⟩),
    (⟨"tb"⟩, ⟨[.object], "", some ⟨"Pb"⟩, [], [⟨"y"⟩], none, none, none⟩)]
  symbols := [
    (⟨"fa"⟩, ⟨"f", [.func]⟩), (⟨"fb"⟩, ⟨"f", [.func]⟩), (⟨"g"⟩, ⟨"g", [.func]⟩),
    (⟨"h"⟩, ⟨"h", [.func]⟩),
    (⟨"Pa"⟩, ⟨"P", [.iface]⟩), (⟨"Pb"⟩, ⟨"P", [.iface]⟩), (⟨"x"⟩, ⟨"x", [.prop]⟩),
      (⟨"y"⟩, ⟨"y", [.prop]⟩)]

theorem traced_sharing : ∃ s f i e, Compiles sharingProgram defaultOptions s ∧
    ((f, i), e) ∈ s.calls ∧
    ∃ r g name, request? sharingProgram e = some r ∧ (∀ g', CallAt s.module f i g' ↔ g' = g) ∧
      sharingProgram.mangledFunction r.decl r.owner? = .ok name ∧ s.funcs.lookup name = some g ∧
      MadeUnder sharingProgram s.origins name g := by
  have hs := compiles_finalState (p := sharingProgram) (o := defaultOptions) (by decide +kernel)
  have hcalls : (finalState sharingProgram defaultOptions).calls ≠ [] := by
    have : (finalState sharingProgram defaultOptions).calls.length = 4 := by decide +kernel
    intro hnil
    rw [hnil] at this
    cases this
  obtain ⟨⟨⟨f, i⟩, e⟩, he⟩ := List.exists_mem_of_ne_nil _ hcalls
  exact ⟨_, f, i, e, hs, he, (compiled_traced hs).1 f i e he⟩

/-! ## Shared names -/

/-- Whether some call leads to a function that was made for another declaration. -/
def leadsAstray (p : Program) (s : State) : Bool :=
  s.calls.any fun ((f, i), e) => (request? p e).any fun r => (s.module.func? f).any fun fn =>
    fn.insts.any fun inst => inst.id == i && match inst.op with
      | .call (.func g _) _ => s.origins.any fun (h, r') =>
        h == g && r'.decl.node.info.id != r.decl.node.info.id
      | _ => false

theorem exists_astray {p : Program} {s : State} (h : leadsAstray p s = true) :
    ∃ f i e r g r', ((f, i), e) ∈ s.calls ∧ request? p e = some r ∧ CallAt s.module f i g ∧
      (g, r') ∈ s.origins ∧ r'.decl.node.info.id ≠ r.decl.node.info.id := by
  obtain ⟨⟨⟨f, i⟩, e⟩, he, h⟩ := List.any_eq_true.1 h
  obtain ⟨r, hr, h⟩ := (Option.any_eq_true _ _).1 h
  obtain ⟨fn, hf, h⟩ := (Option.any_eq_true _ _).1 h
  obtain ⟨inst, hinst, h⟩ := List.any_eq_true.1 h
  obtain ⟨hi, h⟩ := Bool.and_eq_true_iff.1 h
  split at h
  · rename_i g t args hop
    obtain ⟨⟨g', r'⟩, hg, h⟩ := List.any_eq_true.1 h
    obtain ⟨rfl, hne⟩ : g' = g ∧ r'.decl.node.info.id ≠ r.decl.node.info.id := by simpa using h
    refine ⟨f, i, e, r, g', r', he, hr, ⟨t, args, fn, hf, List.mem_map.2 ⟨inst, hinst, ?_⟩⟩,
      hg, hne⟩
    rw [Inst.core, hop, beq_iff_eq.1 hi]
  · cases h

/-- The second call of `f` leads to the function of the other file, and both interfaces get one
record. -/
theorem shared_names : ∃ s, Compiles sharingProgram defaultOptions s ∧
    (∃ f i e r g r', ((f, i), e) ∈ s.calls ∧ request? sharingProgram e = some r ∧
      CallAt s.module f i g ∧
      (g, r') ∈ s.origins ∧ r'.decl.node.info.id ≠ r.decl.node.info.id) ∧
    ∃ t u r, Builds sharingProgram defaultOptions s t r ∧
      Builds sharingProgram defaultOptions s u r ∧
      sharingProgram.storedProperties t ≠ sharingProgram.storedProperties u := by
  have hs := compiles_finalState (p := sharingProgram) (o := defaultOptions) (by decide +kernel)
  have hrecord :
      (finalState sharingProgram defaultOptions).typeDefs.lookup "P" = some 0 := by decide +kernel
  refine ⟨_, hs, exists_astray (by decide +kernel), ⟨"ta"⟩, ⟨"tb"⟩, 0, ?_, ?_, by decide⟩
  · exact (builds_iff hs.changes).2 ⟨"P", by decide +kernel, hrecord⟩
  · exact (builds_iff hs.changes).2 ⟨"P", by decide +kernel, hrecord⟩

end CheckedIR.Lowering

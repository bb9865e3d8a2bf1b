import CheckedIR.Proofs.Lowering.Functions

/-!
# How programs are compiled

A lowering starts in a sound state with the cursor in the entry function, and every file leaves it
there. When all files are lowered every function but the entry function has ended, and finishing
ends that one too.
-/

namespace CheckedIR.Lowering

open CheckedIR.Ir CheckedIR.Program CheckedIR.Scope CheckedIR.Scope.Action

section
variable {p : Program} {s : State}

structure BetweenFiles (s : State) : Prop where
  atEntry : AtEntry s
  ended : ∀ f fn, f ≠ Lower.entryFunc → s.module.func? f = some fn → fn.isTerminated = true

theorem initial_betweenFiles (o : Options) : BetweenFiles (State.initial o) where
  atEntry := ⟨rfl, rfl⟩
  ended f fn hf h := by
    cases f with
    | zero => exact absurd rfl hf
    | succ f => cases h

theorem checkConfig_reads (hs : s.Sound) :
    Reads s Lower.checkConfig fun _ => s.configError? = none := by
  refine .get_bind ?_
  split
  · rename_i c hc
    exact .refuse (hs.config c hc)
  · rename_i hc
    exact .pure hc

theorem Reach.betweenFiles {t : State} (h : Reach p (.along Lower.entryFunc) s t)
    (hs : BetweenFiles s) : BetweenFiles t where
  atEntry := h.atEntry rfl hs.atEntry
  ended f fn hf hfn := by
    rcases Nat.lt_or_ge f s.module.funcs.length with hlt | hge
    · rw [h.others f hlt fun he => hf (Option.some.inj he).symm] at hfn
      exact hs.ended f fn hf hfn
    · exact h.settled f fn hge hfn

theorem generate_works {file : SourceFile} (hfile : file ∈ p.files) (h : BetweenFiles s) :
    Works p (.along Lower.entryFunc) s (Lower.generate p file) fun _ u => BetweenFiles u := by
  suffices hw : Works p (.along Lower.entryFunc) s (Lower.generate p file) fun _ _ => True from
    hw.mono fun _ u _ hreach _ => hreach.betweenFiles h
  refine .sound fun hs => .read_bind (checkConfig_reads hs) fun _ _ => .get_bind fun _ => ?_
  split
  · exact .bind (.refuse rfl) fun _ _ _ _ h => False.elim h
  rename_i hfinished
  obtain ⟨fn, b, hf, hb, hopen⟩ := hs.entry
  have hisOpen :
      s.module.IsOpen Lower.entryFunc := ⟨fn, b, hf, hb, hopen.1 (by simpa using hfinished)⟩
  refine .bind_le (debug_works (M := .within Lower.entryFunc)) .within_along fun _ t _ h1 _ => ?_
  have hentry := h1.atEntry rfl h.atEntry
  refine (statements_works (emitFunction_works p) _
    (fun st hst => (has_file hfile).child (List.mem_map_of_mem hst)) ?_
    (fun _ => h1.opened rfl _ hisOpen) (.inr hentry)).mono fun _ _ _ _ _ => trivial
  rw [hentry.cursor]

/-! ## Finishing -/

def AllEnded (m : Module) : Prop := ∀ f fn, m.func? f = some fn → fn.isTerminated = true

theorem AllEnded.of_mem {m : Module} (h : AllEnded m) {fn : Func} (hfn : fn ∈ m.funcs) :
    fn.isTerminated = true := by
  obtain ⟨f, hf⟩ := List.getElem?_of_mem hfn
  exact h f fn hf

theorem rejection?_eq_some {m : Module} {f : FuncId} {r : Rejection}
    (h : m.rejection? = some (f, r)) : m.funcRejection? f = some r := by
  obtain ⟨g, -, hg⟩ := List.exists_of_findSome?_eq_some h
  obtain ⟨r', hr', he⟩ := Option.map_eq_some_iff.1 hg
  obtain ⟨rfl, rfl⟩ := Prod.mk.inj he
  exact hr'

/-- Verification of a module whose functions have ended: it is sound as it is, or a mismatch is
named. -/
theorem verify_cases {m : Module} (hs : m.Sound) (h : AllEnded m) :
    m.verify = (.ok (), m) ∧ m.rejection? = none ∨
    ∃ f m', m.verify = (.error f, m') ∧ m.EqUpToNumbers m' ∧ Verdict f m' := by
  unfold Module.verify
  cases hr : m.rejection? with
  | none => exact .inl ⟨rfl, rfl⟩
  | some fr =>
    obtain ⟨f, r⟩ := fr
    have hrejects := rejection?_eq_some hr
    obtain ⟨fn, hf, -⟩ := Option.bind_eq_some_iff.1 hrejects
    obtain ⟨b, d, rfl, hd⟩ := hs.rejection hf (h f fn hf) hrejects
    have hended : m.isTerminated = true := List.all_eq_true.2 fun _ => h.of_mem
    right
    simp only [hended, if_true]
    cases hp : m.print with
    | none => exact ⟨_, _, rfl, .refl m, isOrdinary_crashed.verdict m⟩
    | some shown =>
      obtain ⟨text, printed⟩ := shown
      refine ⟨_, _, rfl, Module.eqUpToNumbers_print hp,
        ⟨fun name reason hc => (by cases hc), fun reason hc => ?_⟩⟩
      cases hc
      exact ⟨_, _, rfl, m, f, b, d, .inr (.inr ⟨text, hp⟩), hrejects, hd, rfl⟩

theorem verifyModule_works {M : Manner} (h : AllEnded s.module) :
    Works p M s Lower.verifyModule fun _ u => u = s ∧ s.module.rejection? = none := by
  refine .get_bind fun hs => ?_
  rcases verify_cases hs.funcs h with ⟨hv, hnone⟩ | ⟨f, m, hv, hm, hverdict⟩
  · rw [hv]
    exact .of_reads (P := fun _ => True) ⟨rfl, trivial⟩ fun _ _ => ⟨rfl, hnone⟩
  · rw [hv]
    exact .step_throw (.number m hm) rfl hverdict

theorem BetweenFiles.allEnded (h : BetweenFiles s) {m : Module}
    (hothers : ∀ g, g ≠ Lower.entryFunc → m.func? g = s.module.func? g)
    (hentry : Ended m Lower.entryFunc) : AllEnded m := by
  intro g fn hg
  by_cases he : g = Lower.entryFunc
  · subst he
    obtain ⟨fn', hf', ht⟩ := hentry
    obtain rfl := Option.some.inj (hg.symm.trans hf')
    exact ht
  · exact h.ended g fn he (hothers g he ▸ hg)

theorem State.Sound.ended_entry (hs : s.Sound) (hfinished : s.isFinished = true) :
    Ended s.module Lower.entryFunc := by
  obtain ⟨fn, b, hf, hb, hopen⟩ := hs.entry
  have hsome : b.term? ≠ none := fun hnone => by simp [hopen.2 hnone] at hfinished
  refine ⟨fn, hf, ?_⟩
  simpa [Func.isTerminated, show fn.blocks = [b] from hb, Option.isSome_iff_ne_none] using hsome

theorem modifyFunc_endBlock {m : Module} {f : FuncId} {fn : Func} {b : Ir.Block} {t : Terminator}
    (hf : m.func? f = some fn) (hb : fn.blocks = [b]) (hopen : b.term? = none) :
    m.modifyFunc f (fun g => { g with blocks := g.blocks.modify (fn.blocks.length - 1) fun b =>
      if b.term?.isSome then b
      else { b with term? := some t } }) = m.setBody f { b with term? := some t } := by
  refine Module.modifyFunc_congr hf ?_
  rw [hb]
  simp [hopen]

theorem finish_works (h : BetweenFiles s) :
    Works p (.body Lower.entryFunc) s Lower.finish fun _ u =>
      AllEnded u.module ∧ u.module.rejection? = none ∧ u.configError? = none := by
  refine .sound fun hs => .read_bind (checkConfig_reads hs) fun _ hconfig => .get_bind fun _ => ?_
  obtain ⟨fn, b, hf, hb, hopen⟩ := hs.entry
  have verified {t : State} (ht : AllEnded t.module) (hc : t.configError? = none) :
      Works p (.body Lower.entryFunc) t Lower.verifyModule
        fun _ u => AllEnded u.module ∧ u.module.rejection? = none ∧ u.configError? = none := by
    refine (verifyModule_works ht).mono ?_
    rintro _ _ - - ⟨rfl, hnone⟩
    exact ⟨ht, hnone, hc⟩
  dsimp only
  split
  · rename_i hnew
    have hnew' : s.isFinished = false := by simpa using hnew
    -- the only block of the entry function is still open and returns zero
    have hnone := hopen.1 hnew'
    refine .read_bind func_reads fun fn' hf' => ?_
    obtain rfl := Option.some.inj (hf.symm.trans hf')
    refine .step (y := Lower.verifyModule) (.finish fn b hf hb hnone hnew') (fun ho hc => ?_)
      ?_ fun _ _ =>
      verified (h.allEnded (fun g hg => Module.func?_setBody_of_ne (Ne.symm hg)) ⟨_,
        Module.func?_setBody hf, rfl⟩) hconfig
    · exact .setBody hc ho rfl hf rfl rfl (fun h => by cases h) (fun h => by cases h) rfl
        rfl ⟨rfl, rfl⟩
    · rw [← modifyFunc_endBlock hf hb hnone]
      rfl
  · rename_i hold
    exact verified (h.allEnded (fun _ _ => rfl) (hs.ended_entry (by simpa using hold))) hconfig

theorem program_works (h : BetweenFiles s) :
    Works p (.body Lower.entryFunc) s (Lower.program p)
      fun _ u => AllEnded u.module ∧ u.module.rejection? = none ∧ u.configError? = none :=
  .bind_le (.forM h fun _ hfile _ ht => generate_works hfile ht) .along_body fun _ _ _ _ ht =>
    finish_works ht

end

/-! ## Compiled programs -/

def Compiles (p : Program) (o : Options) (s : State) : Prop :=
  (Lower.program p).run (State.initial o) = (.ok (), s)

def CompileFails (p : Program) (o : Options) (f : Fault) (s : State) : Prop :=
  (Lower.program p).run (State.initial o) = (.error f, s)

theorem program_ends (p : Program) (o : Options) :
    Ends (Lower.program p) (State.initial o)
      (fun _ u => Reach p (.body Lower.entryFunc) (State.initial o) u ∧
        AllEnded u.module ∧ u.module.rejection? = none ∧ u.configError? = none)
      (Fails p (State.initial o)) := by
  refine program_works (initial_betweenFiles o) (reachable_initial o) ⟨fun f hf => ?_,
    fun r hr => ?_⟩
  · obtain rfl := Option.some.inj hf
    exact Nat.zero_lt_one
  · exact absurd hr (Nat.not_lt_zero r)

section
variable {p : Program} {o : Options} {s : State}

theorem Compiles.changes (h : Compiles p o s) : Changes p (State.initial o) s :=
  ((program_ends p o).of_run_ok h).1.changes

theorem Compiles.reachable (h : Compiles p o s) : Reachable p s := ⟨o, h.changes⟩

theorem Compiles.sound (h : Compiles p o s) : s.Sound := h.reachable.sound

theorem Compiles.allEnded (h : Compiles p o s) : AllEnded s.module :=
  ((program_ends p o).of_run_ok h).2.1

theorem Compiles.verified (h : Compiles p o s) : s.module.rejection? = none :=
  ((program_ends p o).of_run_ok h).2.2.1

theorem Compiles.target (h : Compiles p o s) : Layout.Target.ofTriple o.triple = .ok s.target := by
  have hconfig : s.configError? = none := ((program_ends p o).of_run_ok h).2.2.2
  rw [h.changes.remembers.configError] at hconfig
  rw [h.changes.remembers.target]
  unfold State.initial at hconfig ⊢
  dsimp only at hconfig ⊢
  revert hconfig
  cases Layout.Target.ofTriple o.triple with
  | ok t => exact fun _ => rfl
  | error e => exact fun h => by cases h

theorem Compiles.filled (h : Compiles p o s) {r : RecordId} (hr : r < s.module.records.length) :
    Filled p s r :=
  ((program_ends p o).of_run_ok h).1.admits_after.filled r hr List.not_mem_nil

theorem Compiles.emitted (h : Compiles p o s) {g : FuncId} {r : Request} (hg : (g, r) ∈ s.origins)
    (hr : r.IsDefined) : HasEmitted p g r s := by
  rcases ((program_ends p o).of_run_ok h).1.emitted g r hg with hg | he
  · cases hg
  · exact he hr

theorem Compiles.allocates (h : Compiles p o s) {g : FuncId} {r : Request} (hg : (g, r) ∈ s.origins)
    (hr : r.Constructs) : Allocates p g r.owner? s := by
  obtain ⟨fn, body, hfn, hshape, hbody⟩ := hr
  obtain ⟨e, depth, _, scope, t, u, hdecl, howner, hbegins, hrun, hu⟩ :=
    h.emitted hg ⟨fn, body, hfn, hbody⟩
  obtain rfl : e.function = fn := Option.some.inj (hbegins.fits.function.symm.trans (hdecl ▸ hfn))
  have hdone :=
    ((hbegins.works (emitTo_works depth)) hbegins.reachable hbegins.admits).of_run_ok hrun
  exact howner ▸ (hdone.2.2 hshape).mono hu

theorem CompileFails.verdict {f : Fault} (h : CompileFails p o f s) : Verdict f s.module :=
  ((program_ends p o).of_run_error h).verdict

end

/-- The cause for which compiling fails, if it does. -/
def failure? (p : Program) (o : Options) : Option Cause :=
  match ((Lower.program p).run (State.initial o)).1 with
  | .ok _ => none
  | .error f => f.cause?

def finalState (p : Program) (o : Options) : State := ((Lower.program p).run (State.initial o)).2

theorem compiles_finalState {p : Program} {o : Options}
    (h : ((Lower.program p).run (State.initial o)).1.isOk = true) :
    Compiles p o (finalState p o) := by
  unfold Compiles finalState
  revert h
  rcases (Lower.program p).run (State.initial o) with ⟨f | ⟨⟩, s⟩
  · exact fun h => by cases h
  · exact fun _ => rfl

theorem exists_compileFails {p : Program} {o : Options} {c : Cause} (h : failure? p o = some c) :
    ∃ f s, CompileFails p o f s ∧ f.cause? = some c := by
  unfold failure? at h
  unfold CompileFails
  revert h
  rcases (Lower.program p).run (State.initial o) with ⟨f | ⟨⟩, s⟩
  · exact fun h => ⟨f, s, rfl, h⟩
  · exact fun h => by cases h

theorem run_printModule {s : State} {text : String} {m : Module}
    (hp : s.module.print = some (text, m)) :
    Lower.printModule.run s = (.ok text, { s with module := m }) := by
  unfold Lower.printModule
  rw [run_bind]
  change ((Lower.orCrash s.module.print) >>= _).run s = _
  rw [hp]
  rfl

theorem run_printModule_crash {s : State} (hp : s.module.print = none) :
    Lower.printModule.run s = (.error .crashed, s) := by
  unfold Lower.printModule
  rw [run_bind]
  change ((Lower.orCrash s.module.print) >>= _).run s = _
  rw [hp]
  rfl

theorem compile_ok {p : Program} {name text : String} {o : Options} {log : List LogLine}
    (h : compile p name o = (.ok text, log)) :
    ∃ s m, Compiles p (o.orSource name) s ∧ s.module.print = some (text, m) := by
  unfold compile at h
  unfold Compiles
  dsimp only at h
  rw [run_bind] at h
  revert h
  rcases (Lower.program p).run (State.initial (o.orSource name)) with ⟨f | ⟨⟩, s⟩
  · exact fun h => by cases h
  · intro h
    cases hp : s.module.print with
    | none =>
      simp only [run_printModule_crash hp] at h
      cases h
    | some shown =>
      obtain ⟨text', m⟩ := shown
      simp only [run_printModule hp] at h
      obtain rfl : text' = text := by injection (Prod.mk.inj h).1
      exact ⟨s, m, rfl, hp⟩

end CheckedIR.Lowering

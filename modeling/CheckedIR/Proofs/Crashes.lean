import CheckedIR.Proofs.Lowering.GuardedEmission
import CheckedIR.Proofs.Program.Loading
import CheckedIR.Proofs.Sessions

/-!
# Crashes

What compiling a program ends with. There is the text of a module or a diagnostic, unless a
constructor stores what does not fit its object, or a property is taken from an object that has
another record: these are checked nowhere, and compiling crashes.
-/

namespace CheckedIR.Lowering

open CheckedIR.Ir CheckedIR.Program CheckedIR.Scope CheckedIR.Scope.Action

section
variable {p : Program} {o : Options} {M : Manner} {s : State}

/-! ## Programs -/

theorem initial_isTidy (o : Options) : (State.initial o).IsTidy where
  module fn hfn := by
    rw [List.mem_singleton.1 hfn]
    refine ⟨rfl, nofun, fun b hb => ?_⟩
    rw [List.mem_singleton.1 hb]
    exact ⟨rfl, nofun, nofun⟩
  names k name v h := by
    cases k with
    | zero => cases h
    | succ k => cases h
  this := nofun

theorem checkConfig_tame : Tame s Lower.checkConfig fun _ => True := by
  refine .get_bind ?_
  split
  · exact .refuse
  · exact .pure trivial

theorem generate_guarded (hp : p.IsWhole) {file : SourceFile} (hfile : file ∈ p.files)
    (h : BetweenFiles s) :
    Guarded p o (.along Lower.entryFunc) s (Lower.generate p file) fun _ => True := by
  refine .sound fun hs => .read_bind (checkConfig_reads hs) (.of_tame checkConfig_tame) fun _ _ _ =>
    .get_bind ?_
  split
  · exact .of_tame (.bind (Q := fun _ => False) .refuse fun _ _ h => h.elim)
  rename_i hfinished
  obtain ⟨fn, b, hf, hb, hopen⟩ := hs.entry
  have hisOpen :
      s.module.IsOpen Lower.entryFunc := ⟨fn, b, hf, hb, hopen.1 (by simpa using hfinished)⟩
  refine .bind_le (debug_works (M := .within Lower.entryFunc)) .within_along (.of_tame debug_tame)
    fun _ t _ h1 _ _ => ?_
  have hentry := h1.atEntry rfl h.atEntry
  refine statements_guarded hp (emitFunction_guarded hp) _
    (fun st hst => (has_file hfile).child (List.mem_map_of_mem hst))
    ?_ (fun _ => h1.opened rfl _ hisOpen) (.inr hentry)
  rw [hentry.cursor]

theorem exists_verify {m : Module} (h : m.IsTidy) (hended : AllEnded m) :
    m.verify = (.ok (), m) ∨ ∃ d m', m.verify = (.error (.refused (.diagnosed d)), m') := by
  obtain ⟨⟨text, printed⟩, hprint⟩ := h.exists_print fun _ => hended.of_mem
  unfold Module.verify
  cases hr : m.rejection? with
  | none => exact .inl rfl
  | some fr =>
    simp only [show m.isTerminated = true from List.all_eq_true.2 fun _ => hended.of_mem,
      if_true, hprint]
    exact .inr ⟨_, _, rfl⟩

theorem verifyModule_tame (h : AllEnded s.module) : Tame s Lower.verifyModule fun _ => True := by
  intro hs
  refine Tame.get_bind ?_ hs
  rcases exists_verify hs.module h with hv | ⟨d, m, hv⟩
  · rw [hv]
    exact .bind (.aside rfl rfl rfl) fun _ _ _ => .pure trivial
  · rw [hv]
    exact fun _ => ⟨d, rfl⟩

theorem finish_guarded (h : BetweenFiles s) : Guarded p o M s Lower.finish fun _ => True := by
  refine .sound fun hs => .read_bind (checkConfig_reads hs) (.of_tame checkConfig_tame) fun _ _ _ =>
    .get_bind ?_
  obtain ⟨fn, b, hf, hb, hopen⟩ := hs.entry
  dsimp only
  split
  · rename_i hnew
    have hnone := hopen.1 (by simpa using hnew)
    have hended :
        AllEnded (s.module.setBody Lower.entryFunc
          { b with term? := some (.ret (some (.const (.int 32 0)))) }) :=
      h.allEnded (fun g hg => Module.func?_setBody_of_ne (Ne.symm hg)) ⟨_,
        Module.func?_setBody hf, rfl⟩
    refine .func_bind hf (.of_tame (.step (y := Lower.verifyModule) (t := { s with
      module := s.module.setBody Lower.entryFunc
        { b with term? := some (.ret (some (.const (.int 32 0)))) }
      isFinished := true }) (fun ht => ⟨?_, ht.names, ht.this⟩) ?_ (verifyModule_tame hended)))
    · obtain ⟨-, htidy⟩ := ht.module fn (List.mem_of_getElem? hf)
      have hblock := htidy.blocks b (by rw [hb]; exact List.mem_singleton_self b)
      refine ht.module.setBody ⟨hblock.number, hblock.insts, fun t hterm => ?_⟩
      obtain rfl := Option.some.inj hterm
      exact fun v hv => List.mem_singleton.1 hv ▸ fun h => absurd h (by decide)
    · rw [← modifyFunc_endBlock hf hb hnone]
      rfl
  · rename_i hold
    exact .of_tame
      (verifyModule_tame (h.allEnded (fun _ _ => rfl) (hs.ended_entry (by simpa using hold))))

theorem program_guarded (hp : p.IsWhole) (h : BetweenFiles s) :
    Guarded p o (.body Lower.entryFunc) s (Lower.program p) fun _ => True :=
  .bind_le (.forM h fun _ hfile _ ht => generate_works hfile ht) .along_body
    (.forM h (fun _ hfile _ ht => generate_works hfile ht) fun _ hfile _ ht => generate_guarded
      hp hfile ht)
    fun _ _ _ _ ht _ => finish_guarded ht

/-- Lowering a program comes to an end, and it crashes for a reason only. -/
theorem program_answered (hp : p.IsWhole) (hacyclic : p.IsAcyclic) (o : Options) :
    Ends (Lower.program p) (State.initial o) (fun _ t => AllEnded t.module ∧ t.module.IsTidy)
      fun f t => (∃ d, f = .refused (.diagnosed d)) ∨ f = .crashed ∧ Blamed p o t := by
  have hsteady :
      Steady p true (.emissions p (Lower.emissionBound p)) (State.initial o) (Lower.program p) :=
    .bind (.forM fun _ _ _ => generate_steady) fun _ _ => finish_steady
  have hends := hsteady.ne_exhausted (Room.emissions_holds hacyclic _)
  have hadmits : (Manner.body Lower.entryFunc).Admits p (State.initial o) :=
    ⟨fun f hf => Option.some.inj hf ▸ Nat.zero_lt_one, fun r hr => absurd hr (Nat.not_lt_zero r)⟩
  have hguarded := program_guarded hp (initial_betweenFiles o) (.refl) hadmits (initial_isTidy o)
  have hworks := program_ends p o
  unfold Ends at hguarded hworks ⊢
  cases hrun : (Lower.program p).run (State.initial o) with
  | mk r t =>
    rw [hrun] at hguarded hworks hends
    cases r with
    | ok => exact ⟨hworks.2.1, hguarded.1.module⟩
    | error f =>
      refine hguarded.imp_left fun hreported => ?_
      cases f with
      | refused f =>
        obtain ⟨d, rfl⟩ := hreported
        exact ⟨d, rfl⟩
      | exhausted => exact absurd rfl hends
      | crashed => exact hreported.elim

end

/-! ## Documents -/

/-- **Compiling answers unless something unchecked is wrong.** For a document whose lists have no
null and whose types do not lead back to themselves through their arguments, compiling gives the
text of a module or a diagnostic, or it crashes because of what a constructor stores or where a
property is taken from. -/
theorem compile_answered {l : Listing} {p : Program} (hp : ofListing l = .ok p)
    (hgaps : l.HasNoGaps) (hacyclic : p.IsAcyclic) (name : String) (o : Options) :
    (∃ text, (compile p name o).1 = .ok text) ∨
    (∃ d, (compile p name o).1 = .error (.refused (.diagnosed d))) ∨
      (compile p name o).1 = .error .crashed ∧
      Blamed p (o.orSource name) (finalState p (o.orSource name)) := by
  have hsettles := ofListing_settles l
  rw [hp] at hsettles
  have hanswered := program_answered (hsettles.2 hgaps) hacyclic (o.orSource name)
  unfold compile finalState
  unfold Ends at hanswered
  dsimp only
  rw [run_bind]
  cases hrun : (Lower.program p).run (State.initial (o.orSource name)) with
  | mk r t =>
    rw [hrun] at hanswered
    cases r with
    | ok =>
      obtain ⟨hended, htidy⟩ := hanswered
      obtain ⟨⟨text, m⟩, hprint⟩ := htidy.exists_print fun _ => hended.of_mem
      exact .inl ⟨text, by simp only [run_printModule hprint]⟩
    | error f =>
      rcases hanswered with ⟨d, rfl⟩ | ⟨rfl, hblamed⟩
      · exact .inr (.inl ⟨d, rfl⟩)
      · exact .inr (.inr ⟨rfl, hblamed⟩)

/-- The program `class Point { constructor(public x: number) {} }  new Point(true);`. -/
def mismatchedListing : Listing :=
  let node (kind : String) (set : NodeFields → NodeFields) (parts : NodeParts NodeListing →
      NodeParts NodeListing) :=
    sampleNode kind fun n => parts { n with fields := set n.fields }
  let x := node "Parameter"
    (fun f => { f with name := "x", type := "number", declares := "x", isProperty := true }) id
  let init := node "Constructor" (fun f => { f with declares := "init" }) fun n =>
    { n with parameters := [x], body := sampleNode "Block" id }
  let point :=
    node "ClassDeclaration"
      (fun f => { f with name := "Point", type := "Point", declares := "Point" }) fun n =>
      { n with members := [init] }
  let new := node "NewExpression" (fun f => { f with type := "Point" }) fun n =>
    { n with
      expression := node "Identifier" (fun f => { f with name := "Point", symbol := "Point" }) id
      arguments := [sampleNode "TrueKeyword" id] }
  ⟨[some ⟨"a.ts", [point, sampleNode "ExpressionStatement" fun n => { n with expression := new }]⟩],
    [("Point", some ⟨["object"], "", "Point", [], ["x"], "", "", none⟩)],
    [("Point", some ⟨"", ["class"]⟩), ("init", some ⟨"", ["constructor"]⟩),
      ("x", some ⟨"", ["property"]⟩)]⟩

def isCrash : Except Fault String → Bool
  | .error .crashed => true
  | _ => false

theorem isCrash_iff {r : Except Fault String} : isCrash r = true ↔ r = .error .crashed := by
  unfold isCrash
  split
  · simp
  · rename_i h
    simpa using h

theorem mismatchedListing_hasNoGaps : mismatchedListing.HasNoGaps := by
  intro f hf n hn
  simp only [mismatchedListing, List.mem_singleton, Option.some.injEq] at hf
  subst hf
  simp only [sampleNode, List.mem_cons, List.not_mem_nil, or_false] at hn
  rcases hn with rfl | rfl <;>
    simp [NodeListing.all_node, NodeParts.HasNoGaps, NodeParts.subnodes, NodeParts.empty,
      NodeListing.All.absent]

/-- A truth value does not fit a property of type `number`. -/
theorem compile_answered_mismatched :
    mismatchedListing.HasNoGaps ∧ ∃ p, ofListing mismatchedListing = .ok p ∧
    p.IsAcyclic ∧ (compile p "a.ts" defaultOptions).1 = .error .crashed ∧
      Blamed p (defaultOptions.orSource "a.ts")
      (finalState p (defaultOptions.orSource "a.ts")) := by
  have hfacts :
      (ofListing mismatchedListing).toOption.any (fun p => p.types.all (·.2.arguments.isEmpty) &&
      isCrash (compile p "a.ts" defaultOptions).1) = true := by
    -- the tables are in order, and sorting does not compute
    have hsymbols : byName mismatchedListing.symbols = mismatchedListing.symbols :=
      List.mergeSort_of_pairwise (by decide)
    have htypes : byName mismatchedListing.types = mismatchedListing.types :=
      List.mergeSort_singleton _
    unfold ofListing loadSymbols loadTypes
    rw [hsymbols, htypes]
    decide +kernel
  cases hp : ofListing mismatchedListing with
  | error f =>
    rw [hp] at hfacts
    cases hfacts
  | ok p =>
    rw [hp] at hfacts
    obtain ⟨htypes, hcrash⟩ := (Bool.and_eq_true_iff).1 hfacts
    rw [isCrash_iff] at hcrash
    have hacyclic : p.IsAcyclic := isAcyclic_of_rank (fun _ => 0) fun e he u hu => by
      have hempty := List.isEmpty_iff.1 (List.all_eq_true.1 htypes e he)
      rw [hempty] at hu
      cases hu
    refine ⟨mismatchedListing_hasNoGaps, p, rfl, hacyclic, hcrash, ?_⟩
    rcases compile_answered hp mismatchedListing_hasNoGaps hacyclic "a.ts" defaultOptions with
      ⟨text, htext⟩ | ⟨d, hd⟩ | ⟨-, hblamed⟩
    · rw [hcrash] at htext
      cases htext
    · rw [hcrash] at hd
      cases hd
    · exact hblamed

end CheckedIR.Lowering

import CheckedIR.Proofs.Command.Successive

/-!
# Outputs of builds

Main statement: if the paths of the modules differ, then a build with any number of jobs, in
whatever order their steps come, ends with the module of every program that has one in a file of its
own, and with no file made for the others. Compiling one input after the other is one of these
builds. If two modules have one path, only one of them is kept, although both inputs are reported as
compiled.
-/

namespace CheckedIR.Command

open Store

variable {c : Config} {l : Logger} {limit : Nat}

structure Batch.KeepsOutputs (c : Config) (s : Store) (out : String) (inputs : List String)
    (b : Batch) : Prop where
  jobs : b.jobs.map (·.input) = inputs ∧ b.IsFinished
  reported : ∃ lines : List String, b.world.out = out ++ String.join lines ∧
    lines.Perm (b.jobs.map fun j => reportLine c j.input (j.stage == .finished true))
  compiled : ∀ input ∈ inputs, (⟨input, .finished true⟩ ∈ b.jobs ↔
    ∃ text, IsModule c s input text) ∧
    ∀ text, IsModule c s input text → b.world.store.read (outputPath c input) = .ok text
  separate : ∀ input ∈ inputs, ∀ input' ∈ inputs, input ≠ input' →
    ∀ p, s.locate (outputPath c input).toList = .ok p →
    s.locate (outputPath c input').toList ≠ .ok p
  /-- Where the module of any other input would be, there is what there was before. -/
  failed : ∀ input ∈ inputs, (¬ ∃ text, IsModule c s input text) →
    ∀ text, b.world.store.read (outputPath c input) = .ok text ↔
      s.read (outputPath c input) = .ok text
  others : ∀ p, (∀ input ∈ inputs, s.locate (outputPath c input).toList ≠ .ok p) →
    b.world.store.file? p = s.file? p
  result : b.result = .failed ↔ ∃ input ∈ inputs, ¬ ∃ text, IsModule c s input text
  tree : b.world.store.IsTree

namespace Batch

variable {s₀ : Store} {out₀ : String} {inputs : List String} {b : Batch}

theorem IsSound.stage_iff (h : b.IsSound c s₀ out₀ inputs) {input : String} {ok : Bool}
    (hj : ⟨input, .finished ok⟩ ∈ b.jobs) : ok = true ↔ ∃ text, IsModule c s₀ input text := by
  have horder := h.jobs _ hj
  cases ok with
  | true =>
    obtain ⟨text, ht, -⟩ := horder
    exact iff_of_true rfl ⟨text, ht⟩
  | false => exact iff_of_false Bool.false_ne_true fun ⟨text, ht⟩ => horder text ht

theorem IsSound.exists_finished (h : b.IsSound c s₀ out₀ inputs) (hfinished : b.IsFinished)
    {input : String} (hinput : input ∈ inputs) : ∃ ok, ⟨input, .finished ok⟩ ∈ b.jobs := by
  rw [← h.inputs] at hinput
  obtain ⟨⟨_, stage⟩, hj, rfl⟩ := List.mem_map.1 hinput
  obtain ⟨ok, rfl⟩ := hfinished _ hj
  exact ⟨ok, hj⟩

theorem IsSound.read_failed (h : b.IsSound c s₀ out₀ inputs) (hdir : c.outputDir ≠ "")
    (hpaths : (inputs.map (outputPath c)).Nodup) {input : String}
    (hj : ⟨input, .finished false⟩ ∈ b.jobs) (text : String) :
    b.world.store.read (outputPath c input) = .ok text ↔
    s₀.read (outputPath c input) = .ok text := by
  rw [read_eq_ok, read_eq_ok]
  refine exists_congr fun p => ?_
  rw [h.dirs.locate_eq_ok]
  refine and_congr_right fun hp => ?_
  rcases h.files p with he | ⟨j, hmem, hwritten, hplace, -⟩
  · rw [he]
  · have hsame := h.eq_of_outputPath hpaths hmem hj (outputPath_eq_of_place hdir hplace hp)
    rw [hsame] at hwritten
    cases hwritten

theorem IsSound.isTree (h : b.IsSound c s₀ out₀ inputs) (htree : s₀.IsTree) :
    b.world.store.IsTree where
  files := by
    intro p hp
    rw [h.dirs.isDir] at hp
    rcases h.files p with he | ⟨_, _, _, _, hfile⟩
    · rw [he]
      exact htree.files p hp
    · rw [hp] at hfile
      cases hfile
  parents := by
    intro p hp
    rw [h.dirs.isDir] at hp ⊢
    exact htree.parents p hp
  workingDir := by
    rw [h.dirs.isDir, h.dirs.workingDir]
    exact htree.workingDir

theorem IsSound.result_eq_failed (h : b.IsSound c s₀ out₀ inputs) :
    b.result = .failed ↔ ∃ j ∈ b.jobs, j.isFailed = true := by
  have hresult : b.result = .failed ↔ 0 < b.failures := by
    unfold result
    split <;> simp_all
  rw [hresult, h.failures, List.countP_pos_iff]

theorem IsSound.keepsOutputs (h : b.IsSound c s₀ out₀ inputs) (htree : s₀.IsTree)
    (hdir : c.outputDir ≠ "")
    (hpaths : (inputs.map (outputPath c)).Nodup) (hfinished : b.IsFinished) :
    b.KeepsOutputs c s₀ out₀ inputs where
  jobs := ⟨h.inputs, hfinished⟩
  reported := by
    obtain ⟨lines, hlines, hperm⟩ := h.printed
    refine ⟨lines, hlines, hperm.trans (List.Perm.of_eq ?_)⟩
    rw [← List.filterMap_eq_map]
    refine List.filterMap_congr fun j hj => ?_
    obtain ⟨ok, hok⟩ := hfinished j hj
    rw [Job.line?, Function.comp_apply, hok]
    cases ok <;> rfl
  compiled := by
    intro input hinput
    obtain ⟨ok, hj⟩ := h.exists_finished hfinished hinput
    refine ⟨⟨fun hdone => (h.stage_iff hdone).1 rfl, fun hmodule => (h.stage_iff hj).2 hmodule ▸
      hj⟩, fun text ht => ?_⟩
    obtain rfl := (h.stage_iff hj).2 ⟨text, ht⟩
    obtain ⟨text', ht', hread⟩ := h.jobs _ hj
    rwa [ht.unique ht']
  separate := by
    intro input hinput input' hinput' hne p hp hp'
    exact hne (List.inj_on_of_nodup_map hpaths hinput hinput' (outputPath_eq_of_place hdir hp hp'))
  failed := by
    intro input hinput hnone
    obtain ⟨ok, hj⟩ := h.exists_finished hfinished hinput
    obtain rfl : ok = false := by
      cases ok with
      | true => exact absurd ((h.stage_iff hj).1 rfl) hnone
      | false => rfl
    exact h.read_failed hdir hpaths hj
  others := by
    intro p hp
    refine (h.files p).resolve_right ?_
    rintro ⟨j, hj, -, hplace, -⟩
    exact hp j.input (h.inputs ▸ List.mem_map_of_mem hj) hplace
  result := by
    rw [h.result_eq_failed]
    constructor
    · rintro ⟨⟨input, stage⟩, hj, hfailed⟩
      obtain rfl : stage = .finished false := by simpa [Job.isFailed] using hfailed
      refine ⟨input, h.inputs ▸ List.mem_map_of_mem hj, fun hmodule => ?_⟩
      cases (h.stage_iff hj).2 hmodule
    · rintro ⟨input, hinput, hnone⟩
      obtain ⟨ok, hj⟩ := h.exists_finished hfinished hinput
      refine ⟨_, hj, ?_⟩
      cases ok with
      | true => exact absurd ((h.stage_iff hj).1 rfl) hnone
      | false => rfl
  tree := h.isTree htree

end Batch

/-- **Outputs are kept.** If the modules of the inputs have different paths, then every build comes
to an end, with any number of jobs and in any order of their steps. When all jobs are finished,
every module is in a file of its own. If no compilation crashes, the end is when all jobs are
finished. Compiling one input after the other is one of these builds. -/
theorem outputs_kept {w : World} {store : Store} {inputs : List String} (htree : w.store.IsTree)
    (hstore : w.store.ensureDir c.outputDir = .ok store) (hlimit : 0 < limit)
    (hpaths : (inputs.map (outputPath c)).Nodup) :
    Acc (fun b' b => Batch.Step c l limit b b') (.start { w with store } inputs) ∧
    (∀ b, Relation.ReflTransGen (Batch.Step c l limit) (.start { w with store } inputs) b →
      (b.IsFinished → b.KeepsOutputs c store w.out inputs) ∧
      ((∀ input ∈ inputs, IsAnswered c store input) →
        ((∀ b', ¬ Batch.Step c l limit b b') ↔ b.IsFinished))) ∧
    ∀ w' r, buildAll c l w inputs = (w', r) → r ≠ .crashed →
      ∃ b, Relation.ReflTransGen (Batch.Step c l limit) (.start { w with store } inputs) b ∧
        b.IsFinished ∧
        b.world = w' ∧ b.result = r := by
  have hdir : c.outputDir ≠ "" := ne_empty_of_ensureDir hstore
  have htree' : store.IsTree := htree.ensureDir hstore
  refine ⟨Batch.wellFounded_step.apply _, fun b hsteps => ?_, fun w' r hbuild hr => ?_⟩
  · have hsound :
        b.IsSound c store w.out inputs := Batch.isSound_start.steps htree' hdir hpaths hsteps
    refine ⟨hsound.keepsOutputs htree' hdir hpaths,
      fun hanswered => ⟨fun hend => ?_, fun hfinished _ => hfinished.not_step⟩⟩
    by_contra hleft
    obtain ⟨b', hb'⟩ := hsound.exists_step htree' hdir hpaths hlimit hanswered hleft
    exact hend b' hb'
  · rw [buildAll, hstore] at hbuild
    exact exists_steps_of_buildInputs hlimit hbuild hr

/-- A build of a program and of a missing one, with two jobs. -/
theorem outputs_kept_missing :
    let c : Config := { Config.default with outputDir := "build" }
    let w : World := ⟨⟨[], [(["x", "a.yaml"], "files: [\x7bname: a\x7d]")], [["x"]]⟩, "", ""⟩
    let store : Store := { w.store with dirs := [["x"], ["build"]] }
    let inputs := ["x/a.yaml", "y/b.yaml"]
    w.store.IsTree ∧ w.store.ensureDir c.outputDir = .ok store ∧ (inputs.map (outputPath c)).Nodup ∧
    ∃ b, Relation.ReflTransGen (Batch.Step c ⟨false, false, ""⟩ 2)
      (.start { w with store } inputs) b ∧ b.KeepsOutputs c store "" inputs ∧ b.result = .failed ∧
      b.world.out = "[OK] x/a.yaml -> build/a.ll\n[FAIL] y/b.yaml\n" := by
  intro c w store inputs
  have htree : w.store.IsTree := .of_listed (by decide +kernel) (by decide +kernel)
  have hstore : w.store.ensureDir c.outputDir = .ok store := by decide +kernel
  have hpaths : (inputs.map (outputPath c)).Nodup := by decide +kernel
  obtain ⟨-, hkept, hbuild⟩ :=
    outputs_kept (l := ⟨false, false, ""⟩) htree hstore Nat.two_pos hpaths
  have hrun : (buildAll c ⟨false, false, ""⟩ w inputs).1.out =
      "[OK] x/a.yaml -> build/a.ll\n[FAIL] y/b.yaml\n" ∧
      (buildAll c ⟨false, false, ""⟩ w inputs).2 = .failed := by decide +kernel
  have hanswer : (buildAll c ⟨false, false, ""⟩ w inputs).2 ≠ .crashed := by
    rw [hrun.2]
    nofun
  obtain ⟨b, hsteps, hfinished, hworld, hresult⟩ := hbuild _ _ rfl hanswer
  refine ⟨htree, hstore, hpaths, b, hsteps, (hkept b hsteps).1 hfinished, hresult.trans hrun.2, ?_⟩
  rw [hworld]
  exact hrun.1

end CheckedIR.Command

import CheckedIR.Proofs.Command.Outputs
import Mathlib.Data.List.Nodup
import Mathlib.Logic.Relation

/-!
# Steps of builds

The invariant of a build with several jobs. It says of every job what it has found and written, in
terms of the store before the first step, and of every file that it is as it was, unless the job of
its module has made it. It holds at any time if the paths of the modules differ. A build goes on
until all jobs are finished, and it comes to an end.
-/

namespace CheckedIR.Command

open Store

variable {c : Config} {l : Logger} {limit : Nat} {s₀ s : Store} {inputs : List String}
  {out₀ : String}

/-! ## What jobs have done -/

namespace Job

def isWritten (j : Job) : Bool :=
  match j.stage with
  | .opened _ | .finished true => true
  | _ => false

def isFailed (j : Job) : Bool := j.stage == .finished false

def line? (c : Config) (j : Job) : Option String :=
  match j.stage with
  | .finished ok => some (reportLine c j.input ok)
  | _ => none

def InOrder (c : Config) (s₀ s : Store) (j : Job) : Prop :=
  match j.stage with
  | .waiting | .started => True
  | .compiled text => (compileFile c s₀ j.input).1 = .ok text
  | .opened text => IsModule c s₀ j.input text ∧ s.read (outputPath c j.input) = .ok ""
  | .finished true => ∃ text, IsModule c s₀ j.input text ∧ s.read (outputPath c j.input) = .ok text
  | .finished false => ∀ text, ¬ IsModule c s₀ j.input text

theorem InOrder.setFile {j : Job} {p : Place} {text : String} (h : j.InOrder c s₀ s)
    (hdirs : SameDirs s₀ s) (hother : s₀.locate (outputPath c j.input).toList ≠ .ok p) :
    j.InOrder c s₀ (s.setFile p text) := by
  have hread {t : String} (hr : s.read (outputPath c j.input) = .ok t) :
      (s.setFile p text).read (outputPath c j.input) = .ok t := by
    obtain ⟨q, hq, hfile⟩ := read_eq_ok.1 hr
    have hne : q ≠ p := fun he => hother (he ▸ hdirs.locate_eq_ok.1 hq)
    exact read_eq_ok.2 ⟨q,
      sameDirs_setFile.locate_eq_ok.2 hq, by rw [file?_setFile, if_neg hne, hfile]⟩
  obtain ⟨input, stage⟩ := j
  cases stage with
  | opened t => exact ⟨h.1, hread h.2⟩
  | finished ok =>
    cases ok with
    | true =>
      obtain ⟨t, ht, hr⟩ := h
      exact ⟨t, ht, hread hr⟩
    | false => exact h
  | _ => exact h

end Job

def Touches (c : Config) (s₀ s : Store) (input : String) (stage stage' : Stage) (s' : Store) :
    Prop :=
  (s' = s ∧ Job.isWritten ⟨input, stage⟩ = Job.isWritten ⟨input, stage'⟩) ∨
    ∃ p text, s₀.locate (outputPath c input).toList = .ok p ∧ s₀.isDir p = false ∧
      s' = s.setFile p text ∧ Job.isWritten ⟨input, stage'⟩ = true

section
variable {w w' : World} {input : String} {stage stage' : Stage}

theorem JobStep.inOrder (h : JobStep c l input w stage w' stage') (hdirs : SameDirs s₀ w.store)
    (hread : stage = .started → ∀ text, w.store.read input = .ok text ↔ s₀.read input = .ok text)
    (horder : Job.InOrder c s₀ w.store ⟨input, stage⟩) :
    Job.InOrder c s₀ w'.store ⟨input, stage'⟩ ∧
    Touches c s₀ w.store input stage stage' w'.store := by
  -- The file of the module, as the job writes it.
  have hwrite {text : String} {store : Store}
      (h : w.store.write (outputPath c input) text = .ok store) :
      ∃ p, s₀.locate (outputPath c input).toList = .ok p ∧ s₀.isDir p = false ∧
        store = w.store.setFile p text ∧ store.read (outputPath c input) = .ok text := by
    obtain ⟨p, hp, hfile, rfl⟩ := write_eq_ok.1 h
    refine ⟨p, hdirs.locate_eq_ok.1 hp, by rwa [hdirs.isDir] at hfile, rfl, ?_⟩
    exact read_eq_ok.2 ⟨p, sameDirs_setFile.locate_eq_ok.2 hp, by rw [file?_setFile, if_pos rfl]⟩
  cases h with
  | compile h =>
    refine ⟨?_, .inl ⟨rfl, rfl⟩⟩
    rcases compileFile_agrees (c := c) (hread rfl) with he | ⟨f, f', hf', -⟩
    · exact (congrArg Prod.fst (he.symm.trans h))
    · rw [h] at hf'
      cases hf'
  | refuse h =>
    refine ⟨fun text hmodule => ?_, .inl ⟨rfl, rfl⟩⟩
    rcases compileFile_agrees (c := c) (hread rfl) with he | ⟨f, f', -, hf⟩
    · have hrefused := congrArg Prod.fst (he.symm.trans h)
      cases hmodule.compiles.symm.trans hrefused
    · cases hmodule.compiles.symm.trans hf
  | create h =>
    obtain ⟨p, hp, hfile, hstore, hempty⟩ := hwrite h
    exact ⟨⟨⟨horder, p, hp, hfile⟩, hempty⟩, .inr ⟨p, _, hp, hfile, hstore, rfl⟩⟩
  | block h =>
    refine ⟨fun text hmodule => ?_, .inl ⟨rfl, rfl⟩⟩
    obtain ⟨t, ht⟩ := (exists_write_iff hdirs "").2 hmodule.writable
    cases h.symm.trans ht
  | fill hempty h =>
    obtain ⟨p, hp, hfile, hstore, hfull⟩ := hwrite h
    exact ⟨⟨_, horder.1, hfull⟩, .inr ⟨p, _, hp, hfile, hstore, rfl⟩⟩
  | mix hother hne h =>
    cases hother.symm.trans horder.2
    exact absurd rfl hne

theorem JobStep.out (h : JobStep c l input w stage w' stage') :
    w'.out = w.out ++ ((Job.line? c ⟨input, stage'⟩).getD "") ∧
    Job.line? c ⟨input, stage⟩ = none := by
  cases h <;> simp [World.warn, World.print, reportFailure, Job.line?, reportLine]

end

/-! ## Batches -/

namespace Batch

structure IsSound (c : Config) (s₀ : Store) (out₀ : String) (inputs : List String) (b : Batch) :
    Prop where
  inputs : b.jobs.map (·.input) = inputs
  dirs : SameDirs s₀ b.world.store
  jobs : ∀ j ∈ b.jobs, j.InOrder c s₀ b.world.store
  /-- A file is as it was, unless it is that of a module that has been made. -/
  files : ∀ p, b.world.store.file? p = s₀.file? p ∨
    ∃ j ∈ b.jobs, j.isWritten = true ∧ s₀.locate (outputPath c j.input).toList = .ok p ∧
      s₀.isDir p = false
  failures : b.failures = b.jobs.countP Job.isFailed
  /-- The lines are printed in the order in which the jobs end. -/
  printed : ∃ lines : List String, b.world.out = out₀ ++ String.join lines ∧
    lines.Perm (b.jobs.filterMap (Job.line? c))

theorem isSound_start {w : World} : (start w inputs).IsSound c w.store w.out inputs where
  inputs := by
    rw [start, List.map_map]
    exact List.map_id' inputs
  dirs := SameDirs.refl
  jobs := by
    intro j hj
    obtain ⟨input, -, rfl⟩ := List.mem_map.1 hj
    trivial
  files _ := .inl rfl
  failures := by
    have hnone : ∀ j ∈ (start w inputs).jobs, ¬ j.isFailed = true := by
      intro j hj
      obtain ⟨input, -, rfl⟩ := List.mem_map.1 hj
      simp [Job.isFailed]
    exact (List.countP_eq_zero.2 hnone).symm
  printed := by
    refine ⟨[], by simp [start, String.join], ?_⟩
    have hnone : (start w inputs).jobs.filterMap (Job.line? c) = [] := by
      refine List.filterMap_eq_nil_iff.2 fun j hj => ?_
      obtain ⟨input, -, rfl⟩ := List.mem_map.1 hj
      rfl
    rw [hnone]

section
variable {b b' : Batch} {w w' : World} {before after : List Job} {input : String}
  {stage stage' : Stage} {failures : Nat}

theorem IsSound.eq_of_outputPath (h : b.IsSound c s₀ out₀ inputs)
    (hpaths : (inputs.map (outputPath c)).Nodup) {j j' : Job}
    (hj : j ∈ b.jobs) (hj' : j' ∈ b.jobs) (he : outputPath c j.input = outputPath c j'.input) :
    j = j' := by
  rw [← h.inputs, List.map_map] at hpaths
  exact List.inj_on_of_nodup_map hpaths hj hj' he

theorem IsSound.outputPath_ne
    (h : IsSound c s₀ out₀ inputs ⟨w, before ++ ⟨input, stage⟩ :: after, failures⟩)
    (hpaths : (inputs.map (outputPath c)).Nodup) {j : Job} (hj : j ∈ before ++ after) :
    outputPath c j.input ≠ outputPath c input := by
  have hmiddle := h.inputs.symm ▸ hpaths
  rw [List.map_map, List.map_append, List.map_cons, List.nodup_middle,
    List.nodup_cons, ← List.map_append] at hmiddle
  exact fun he => hmiddle.1 (List.mem_map.2 ⟨j, hj, he⟩)

theorem IsSound.read_input
    (h : IsSound c s₀ out₀ inputs ⟨w, before ++ ⟨input, .started⟩ :: after, failures⟩)
    (htree : s₀.IsTree) (hdir : c.outputDir ≠ "") (hpaths : (inputs.map (outputPath c)).Nodup)
    (text : String) : w.store.read input = .ok text ↔ s₀.read input = .ok text := by
  have hfile {p : Place} (hp : s₀.locate input.toList = .ok p) : w.store.file? p = s₀.file? p := by
    refine (h.files p).resolve_right ?_
    rintro ⟨j, hj, hwritten, hplace, hfile⟩
    have he := outputPath_eq_of_input_place htree hdir hplace hfile hp
    have hjob := h.eq_of_outputPath hpaths hj (List.mem_append_right _ List.mem_cons_self) he.symm
    rw [hjob] at hwritten
    cases hwritten
  rw [read_eq_ok, read_eq_ok]
  refine exists_congr fun p => ?_
  rw [h.dirs.locate_eq_ok]
  exact and_congr_right fun hp => by rw [hfile hp]

theorem mem_middle {j x : Job} : j ∈ before ++ x :: after ↔ j = x ∨ j ∈ before ++ after := by
  rw [List.mem_append, List.mem_cons, List.mem_append, or_left_comm]

theorem IsSound.replace
    (h : IsSound c s₀ out₀ inputs ⟨w, before ++ ⟨input, stage⟩ :: after, failures⟩)
    (hdir : c.outputDir ≠ "") (hpaths : (inputs.map (outputPath c)).Nodup)
    (horder : Job.InOrder c s₀ w'.store ⟨input, stage'⟩)
    (htouches : Touches c s₀ w.store input stage stage' w'.store)
    (hfailed : Job.isFailed ⟨input, stage⟩ = false)
    (hout : w'.out = w.out ++ (Job.line? c ⟨input, stage'⟩).getD "" ∧
      Job.line? c ⟨input, stage⟩ = none) :
    IsSound c s₀ out₀ inputs ⟨w', before ++ ⟨input, stage'⟩ :: after,
      if Job.isFailed ⟨input, stage'⟩ then failures + 1 else failures⟩ where
  inputs := by simpa using h.inputs
  dirs := by
    rcases htouches with ⟨he, -⟩ | ⟨p, text, -, -, he, -⟩
    · exact he ▸ h.dirs
    · exact he ▸ h.dirs.trans sameDirs_setFile
  jobs := by
    intro j hj
    rcases mem_middle.1 hj with rfl | hj
    · exact horder
    · have hkept := h.jobs j (mem_middle.2 (.inr hj))
      rcases htouches with ⟨he, -⟩ | ⟨p, text, hp, -, he, -⟩
      · exact he ▸ hkept
      · refine he ▸ hkept.setFile h.dirs fun hp' => h.outputPath_ne hpaths hj ?_
        exact outputPath_eq_of_place hdir hp' hp
  files := by
    intro p
    -- Where a job has written before, one has written now.
    have hold : (∃ j ∈ before ++ ⟨input, stage⟩ :: after, j.isWritten = true ∧
        s₀.locate (outputPath c j.input).toList = .ok p ∧ s₀.isDir p = false) →
        (Job.isWritten ⟨input, stage⟩ = true → Job.isWritten ⟨input, stage'⟩ = true) →
        ∃ j ∈ before ++ ⟨input, stage'⟩ :: after, j.isWritten = true ∧
          s₀.locate (outputPath c j.input).toList = .ok p ∧ s₀.isDir p = false := by
      rintro ⟨j, hj, hwritten, hplace⟩ hstays
      rcases mem_middle.1 hj with rfl | hj
      · exact ⟨⟨input, stage'⟩, mem_middle.2 (.inl rfl), hstays hwritten, hplace⟩
      · exact ⟨j, mem_middle.2 (.inr hj), hwritten, hplace⟩
    rcases htouches with ⟨he, hwritten⟩ | ⟨q, text, hq, hfile, he, hwritten⟩
    · rw [he]
      exact (h.files p).imp_right fun hj => hold hj fun hw => hwritten ▸ hw
    · by_cases hp : p = q
      · exact .inr ⟨⟨input, stage'⟩, mem_middle.2 (.inl rfl), hwritten, hp ▸ hq, hp ▸ hfile⟩
      · rw [he, file?_setFile, if_neg hp]
        exact (h.files p).imp_right fun hj => hold hj fun _ => hwritten
  failures := by
    have hcount := h.failures
    simp only [List.countP_append, List.countP_cons, hfailed, Bool.false_eq_true,
      if_false] at hcount ⊢
    split <;> omega
  printed := by
    obtain ⟨lines, hlines, hperm⟩ := h.printed
    rw [List.filterMap_append, List.filterMap_cons_none hout.2, ← List.filterMap_append] at hperm
    cases hline : Job.line? c ⟨input, stage'⟩ with
    | none =>
      refine ⟨lines, ?_, ?_⟩
      · rw [hout.1, hline, hlines]
        simp
      · rwa [List.filterMap_append, List.filterMap_cons_none hline, ← List.filterMap_append]
    | some line =>
      refine ⟨lines ++ [line], ?_, ?_⟩
      · rw [hout.1, hline, hlines]
        simp [String.join_append, String.append_assoc]
      · rw [List.filterMap_append, List.filterMap_cons_some hline]
        refine (List.perm_append_singleton line lines).trans ((hperm.cons line).trans ?_)
        rw [List.filterMap_append]
        exact List.perm_middle.symm

theorem IsSound.step (h : b.IsSound c s₀ out₀ inputs) (htree : s₀.IsTree) (hdir : c.outputDir ≠ "")
    (hpaths : (inputs.map (outputPath c)).Nodup) (hstep : Step c l limit b b') :
    b'.IsSound c s₀ out₀ inputs := by
  cases hstep with
  | start hfirst hfree =>
    exact h.replace hdir hpaths trivial (.inl ⟨rfl, rfl⟩) rfl ⟨String.append_empty.symm, rfl⟩
  | @work w w' before after input stage stage' failures hjob =>
    have horder : Job.InOrder c s₀ w.store ⟨input, stage⟩ := h.jobs _ (mem_middle.2 (.inl rfl))
    have hread (hstarted : stage = .started) (text : String) :
        w.store.read input = .ok text ↔ s₀.read input = .ok text := by
      subst hstarted
      exact h.read_input htree hdir hpaths text
    obtain ⟨hkept, htouches⟩ := hjob.inOrder h.dirs hread horder
    have hnew := h.replace hdir hpaths hkept htouches (by cases hjob <;> rfl) hjob.out
    simpa [Job.isFailed] using hnew

theorem IsSound.steps (h : b.IsSound c s₀ out₀ inputs) (htree : s₀.IsTree) (hdir : c.outputDir ≠ "")
    (hpaths : (inputs.map (outputPath c)).Nodup)
    (hsteps : Relation.ReflTransGen (Step c l limit) b b') : b'.IsSound c s₀ out₀ inputs := by
  induction hsteps with
  | refl => exact h
  | tail _ hstep ih => exact ih.step htree hdir hpaths hstep

end

end Batch

/-! ## Builds end -/

def Stage.remaining : Stage → Nat
  | .waiting => 4
  | .started => 3
  | .compiled _ => 2
  | .opened _ => 1
  | .finished _ => 0

theorem JobStep.remaining_lt {w w' : World} {input : String} {stage stage' : Stage}
    (h : JobStep c l input w stage w' stage') : stage'.remaining < stage.remaining := by
  cases h <;> simp [Stage.remaining]

def stepsLeft : List Job → Nat
  | [] => 0
  | j :: jobs => j.stage.remaining + stepsLeft jobs

theorem stepsLeft_middle {before after : List Job} {j : Job} :
    stepsLeft (before ++ j :: after) = j.stage.remaining + stepsLeft (before ++ after) := by
  induction before with
  | nil => rfl
  | cons i before ih =>
    rw [List.cons_append, List.cons_append, stepsLeft, stepsLeft, ih]
    omega

namespace Batch

theorem Step.stepsLeft_lt {b b' : Batch} (h : Step c l limit b b') :
    stepsLeft b'.jobs < stepsLeft b.jobs := by
  cases h with
  | start =>
    rw [stepsLeft_middle, stepsLeft_middle]
    exact Nat.add_lt_add_right (Nat.lt_succ_self 3) _
  | work hjob =>
    rw [stepsLeft_middle, stepsLeft_middle]
    exact Nat.add_lt_add_right hjob.remaining_lt _

/-- No build goes on for ever. -/
theorem wellFounded_step : WellFounded fun b' b => Step c l limit b b' :=
  Subrelation.wf Step.stepsLeft_lt (measure fun b : Batch => stepsLeft b.jobs).wf

end Batch

def IsAnswered (c : Config) (s : Store) (input : String) : Prop :=
  (∃ text, (compileFile c s input).1 = .ok text) ∨
    ∃ f, (compileFile c s input).1 = .error (.refused f)

theorem IsAnswered.agrees {input : String} (h : IsAnswered c s₀ input)
    (hread : ∀ text, s.read input = .ok text ↔ s₀.read input = .ok text) :
    IsAnswered c s input := by
  rcases compileFile_agrees (c := c) hread with he | ⟨f, f', hf', -⟩
  · rwa [IsAnswered, he]
  · exact .inr ⟨f', hf'⟩

theorem exists_jobStep {w : World} {input : String} {stage : Stage}
    (hwork : Job.isAtWork ⟨input, stage⟩ = true)
    (hdirs : SameDirs s₀ w.store) (horder : Job.InOrder c s₀ w.store ⟨input, stage⟩)
    (hanswered : stage = .started → IsAnswered c w.store input) :
    ∃ w' stage', JobStep c l input w stage w' stage' := by
  cases stage with
  | waiting => cases hwork
  | finished => cases hwork
  | started =>
    rcases hanswered rfl with ⟨text, ht⟩ | ⟨f, hf⟩
    · exact ⟨_, _, .compile (Prod.ext ht rfl)⟩
    · exact ⟨_, _, .refuse (Prod.ext hf rfl)⟩
  | compiled text =>
    cases hw : w.store.write (outputPath c input) "" with
    | ok store => exact ⟨_, _, .create hw⟩
    | error e => exact ⟨_, _, .block hw⟩
  | opened text =>
    obtain ⟨store, hstore⟩ := (exists_write_iff hdirs text).2 horder.1.writable
    exact ⟨_, _, .fill horder.2 hstore⟩

namespace Batch

variable {b : Batch}

def IsFinished (b : Batch) : Prop := ∀ j ∈ b.jobs, ∃ ok, j.stage = .finished ok

/-- A build goes on until all jobs are finished. -/
theorem IsSound.exists_step (h : b.IsSound c s₀ out₀ inputs) (htree : s₀.IsTree)
    (hdir : c.outputDir ≠ "") (hpaths : (inputs.map (outputPath c)).Nodup) (hlimit : 0 < limit)
    (hanswered : ∀ input ∈ inputs, IsAnswered c s₀ input) (hleft : ¬ b.IsFinished) :
    ∃ b', Step c l limit b b' := by
  obtain ⟨w, jobs, failures⟩ := b
  by_cases hwork : ∃ j ∈ jobs, j.isAtWork = true
  · obtain ⟨⟨input, stage⟩, hj, hwork⟩ := hwork
    obtain ⟨before, after, rfl⟩ := List.append_of_mem hj
    have hmem : input ∈ inputs := h.inputs ▸ List.mem_map.2 ⟨_, hj, rfl⟩
    have hstarted (he : stage = .started) : IsAnswered c w.store input := by
      subst he
      exact (hanswered input hmem).agrees (h.read_input htree hdir hpaths)
    obtain ⟨w', stage', hstep⟩ := exists_jobStep (l := l) hwork h.dirs (h.jobs _ hj) hstarted
    exact ⟨_, .work hstep⟩
  · obtain ⟨j, hj, hstage⟩ : ∃ j ∈ jobs, ∀ ok, j.stage ≠ .finished ok := by
      unfold IsFinished at hleft
      push Not at hleft
      exact hleft
    have hwaiting : j.stage = .waiting := by
      cases hs : j.stage with
      | waiting => rfl
      | finished ok => exact absurd hs (hstage ok)
      | _ => exact absurd ⟨j, hj, by rw [Job.isAtWork, hs]⟩ hwork
    have hsome : (jobs.find? (·.stage == .waiting)).isSome = true :=
      List.find?_isSome.2 ⟨j, hj, beq_iff_eq.2 hwaiting⟩
    obtain ⟨first, hfirst⟩ := Option.isSome_iff_exists.1 hsome
    obtain ⟨hfound, before, after, rfl, hbefore⟩ := List.find?_eq_some_iff_append.1 hfirst
    obtain ⟨input, stage⟩ := first
    obtain rfl : stage = .waiting := by simpa using hfound
    refine ⟨_, .start (fun j hj => by simpa using hbefore j hj) ?_⟩
    rw [List.countP_eq_zero.2 fun j hj hw => hwork ⟨j, hj, hw⟩]
    exact hlimit

theorem IsFinished.not_step {b' : Batch} (h : b.IsFinished) : ¬ Step c l limit b b' := by
  rintro (_ | hjob)
  · obtain ⟨ok, hok⟩ := h _ (List.mem_append_right _ List.mem_cons_self)
    cases hok
  · obtain ⟨ok, rfl⟩ := h _ (List.mem_append_right _ List.mem_cons_self)
    cases hjob

end Batch

end CheckedIR.Command

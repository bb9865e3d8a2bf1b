import CheckedIR.Proofs.Command.Batches

/-!
# One job after the other

Compiling one input after the other is a build with jobs, in which a job is started when the one
before it is finished.
-/

namespace CheckedIR.Command

open Store

variable {c : Config} {l : Logger} {limit : Nat} {w w' : World} {done : List Job} {input : String}
  {inputs : List String} {r : BuildResult}

theorem countP_isAtWork (inputs : List String) (hdone : ∀ j ∈ done, ∃ ok, j.stage = .finished ok) :
    (done ++ inputs.map (Job.mk · .waiting)).countP Job.isAtWork = 0 := by
  refine List.countP_eq_zero.2 fun j hj => ?_
  rcases List.mem_append.1 hj with hj | hj
  · obtain ⟨ok, hok⟩ := hdone j hj
    simp [Job.isAtWork, hok]
  · obtain ⟨i, -, rfl⟩ := List.mem_map.1 hj
    simp [Job.isAtWork]

theorem jobSteps_of_write {text : String} {store : Store}
    (h : w.store.write (outputPath c input) text = .ok store) :
    ∃ w', JobStep c l input w (.compiled text) w' (.opened text) ∧
      JobStep c l input w' (.opened text) ({ w with store }.print (reportLine c input true))
      (.finished true) := by
  obtain ⟨p, hp, hfile, rfl⟩ := write_eq_ok.1 h
  have hp' : (w.store.setFile p "").locate (outputPath c input).toList = .ok p :=
    sameDirs_setFile.locate_eq_ok.2 hp
  have hempty : (w.store.setFile p "").read (outputPath c input) = .ok "" :=
    read_eq_ok.2 ⟨p, hp', by rw [file?_setFile, if_pos rfl]⟩
  have hfill :
      (w.store.setFile p "").write (outputPath c input) text = .ok (w.store.setFile p text) :=
    write_eq_ok.2 ⟨p, hp', (sameDirs_setFile.isDir p).trans hfile, setFile_setFile.symm⟩
  exact ⟨_, .create (write_eq_ok.2 ⟨p, hp, hfile, rfl⟩), .fill hempty hfill⟩

theorem steps_of_buildInput (rest : List String) (n : Nat) (hlimit : 0 < limit)
    (hdone : ∀ j ∈ done, ∃ ok, j.stage = .finished ok) (h : buildInput c l w input = (w', r))
    (hr : r ≠ .crashed) : ∃ ok, (r = if ok then .succeeded else .failed) ∧
      Relation.ReflTransGen (Batch.Step c l limit)
        ⟨w, done ++ Job.mk input .waiting :: rest.map (Job.mk · .waiting), n⟩
        ⟨w', done ++ Job.mk input (.finished ok) :: rest.map (Job.mk · .waiting),
          if ok then n else n + 1⟩ := by
  have hstart :
      Batch.Step c l limit ⟨w, done ++ Job.mk input .waiting :: rest.map (Job.mk · .waiting), n⟩
      ⟨w, done ++ Job.mk input .started :: rest.map (Job.mk · .waiting), n⟩ := by
    refine .start (fun j hj => ?_) ((countP_isAtWork (input :: rest) hdone).trans_lt hlimit)
    obtain ⟨ok, hok⟩ := hdone j hj
    simp [hok]
  obtain ⟨result, log, hcompile⟩ : ∃ result log, compileFile c w.store input = (result, log) :=
    ⟨_, _, rfl⟩
  unfold buildInput at h
  rw [hcompile] at h
  dsimp only at h
  cases result with
  | error f =>
    cases f with
    | refused f =>
      cases h
      exact ⟨false, rfl, .tail (.single hstart) (.work (.refuse hcompile))⟩
    | _ =>
      cases h
      exact absurd rfl hr
  | ok text =>
    dsimp only at h
    have hcompiled : Relation.ReflTransGen (Batch.Step c l limit)
        ⟨w, done ++ Job.mk input .waiting :: rest.map (Job.mk · .waiting), n⟩
        ⟨w.warn (l.lines log),
          done ++ Job.mk input (.compiled text) :: rest.map (Job.mk · .waiting), n⟩ :=
      .tail (.single hstart) (.work (.compile hcompile))
    cases hwrite : (w.warn (l.lines log)).store.write (outputPath c input) text with
    | error e =>
      rw [hwrite] at h
      cases h
      exact ⟨false, rfl, .tail hcompiled (.work (.block (write_error_congr hwrite)))⟩
    | ok store =>
      rw [hwrite] at h
      cases h
      obtain ⟨w₁, hcreate, hfill⟩ := jobSteps_of_write (l := l) hwrite
      exact ⟨true, rfl, .tail (.tail hcompiled (.work hcreate)) (.work hfill)⟩

theorem steps_of_buildInputs (n : Nat) (hlimit : 0 < limit)
    (hdone : ∀ j ∈ done, ∃ ok, j.stage = .finished ok)
    (h : buildInputs c l w inputs = (w', r)) (hr : r ≠ .crashed) :
    ∃ jobs m, (∀ j ∈ jobs, ∃ ok, j.stage = .finished ok) ∧ n ≤ m ∧
      (r = if n < m then .failed else .succeeded) ∧
      Relation.ReflTransGen (Batch.Step c l limit) ⟨w, done ++ inputs.map (Job.mk · .waiting),
        n⟩ ⟨w', done ++ jobs, m⟩ := by
  induction inputs generalizing w done n r with
  | nil =>
    cases h
    exact ⟨[], n, nofun, le_rfl, by simp, .refl⟩
  | cons input rest ih =>
    obtain ⟨w₁, r₁, hfirst⟩ : ∃ w₁ r₁, buildInput c l w input = (w₁, r₁) := ⟨_, _, rfl⟩
    obtain ⟨w₂, r₂, hrest⟩ : ∃ w₂ r₂, buildInputs c l w₁ rest = (w₂, r₂) := ⟨_, _, rfl⟩
    have hr₁ : r₁ ≠ .crashed := by
      rintro rfl
      rw [buildInputs, hfirst] at h
      cases h
      exact hr rfl
    have hboth : w₂ = w' ∧ r₁.and r₂ = r := by
      rw [buildInputs, hfirst] at h
      cases r₁ with
      | crashed => exact absurd rfl hr₁
      | _ =>
        dsimp only at h
        rw [hrest] at h
        exact Prod.mk.inj h
    obtain ⟨rfl, rfl⟩ := hboth
    have hr₂ : r₂ ≠ .crashed := by
      rintro rfl
      cases r₁ <;> exact hr rfl
    obtain ⟨ok, rfl, hsteps⟩ := steps_of_buildInput rest n hlimit hdone hfirst hr₁
    have hdone' : ∀ j ∈ done ++ [Job.mk input (.finished ok)], ∃ ok, j.stage = .finished ok :=
      List.forall_mem_append.2 ⟨hdone, List.forall_mem_singleton.2 ⟨ok, rfl⟩⟩
    obtain ⟨jobs, m, hjobs, hle, rfl, hsteps'⟩ := ih (if ok then n else n + 1) hdone' hrest hr₂
    rw [List.append_assoc, List.append_assoc] at hsteps'
    refine ⟨Job.mk input (.finished ok) :: jobs, m, List.forall_mem_cons.2 ⟨⟨ok, rfl⟩, hjobs⟩, ?_,
      ?_, hsteps.trans hsteps'⟩
    · cases ok <;> simp at hle <;> omega
    · cases ok with
      | true => simp [BuildResult.and]
      | false =>
        have hlt : n < m := hle
        rw [if_pos hlt, if_neg Bool.false_ne_true, if_neg Bool.false_ne_true]
        split <;> rfl

/-- One input after the other is a way to build them all. -/
theorem exists_steps_of_buildInputs (hlimit : 0 < limit) (h : buildInputs c l w inputs = (w', r))
    (hr : r ≠ .crashed) :
    ∃ b, Relation.ReflTransGen (Batch.Step c l limit) (.start w inputs) b ∧ b.IsFinished ∧
      b.world = w' ∧
      b.result = r := by
  obtain ⟨jobs, m, hjobs, -, hresult, hsteps⟩ :=
    steps_of_buildInputs 0 hlimit (List.forall_mem_nil fun j : Job => ∃ ok,
      j.stage = .finished ok) h hr
  exact ⟨⟨w', jobs, m⟩, hsteps, hjobs, rfl, hresult.symm⟩

/-! ## Two modules of one path -/

theorem buildInput_of_isModule {text : String} (h : IsModule c w.store input text) :
    ∃ w' p, buildInput c l w input = (w', .succeeded) ∧
      w.store.locate (outputPath c input).toList = .ok p ∧
      w.store.isDir p = false ∧ w'.store = w.store.setFile p text ∧
      w'.out = w.out ++ reportLine c input true := by
  obtain ⟨p, hp, hfile⟩ := h.writable
  obtain ⟨log, hcompile⟩ : ∃ log, compileFile c w.store input = (.ok text, log) :=
    ⟨_, Prod.ext h.compiles rfl⟩
  have hwrite :
      (w.warn (l.lines log)).store.write (outputPath c input) text = .ok (w.store.setFile p text) :=
    write_eq_ok.2 ⟨p, hp, hfile, rfl⟩
  refine ⟨{ w.warn (l.lines log) with store := w.store.setFile p text }.print
    (reportLine c input true), p, ?_, hp, hfile, rfl, rfl⟩
  unfold buildInput
  rw [hcompile]
  dsimp only
  rw [hwrite]
  rfl

/-- Of two modules of one path the second is kept. The first one is lost, although its input is
reported as compiled. -/
theorem buildInputs_same_path {input' text text' : String} (h : IsModule c w.store input text)
    (h' : IsModule c w.store input' text') (hpath : outputPath c input' = outputPath c input)
    (hplace : w.store.locate input'.toList ≠ w.store.locate (outputPath c input).toList) :
    ∃ w', buildInputs c l w [input, input'] = (w', .succeeded) ∧
      w'.store.read (outputPath c input) = .ok text' ∧
      w'.out = w.out ++ reportLine c input true ++ reportLine c input' true := by
  obtain ⟨w₁, p, hfirst, hp, hfile, hstore, hout⟩ := buildInput_of_isModule (l := l) h
  have hdirs : SameDirs w.store w₁.store := hstore ▸ sameDirs_setFile
  have hread (t : String) : w₁.store.read input' = .ok t ↔ w.store.read input' = .ok t := by
    rw [read_eq_ok, read_eq_ok]
    refine exists_congr fun q => ?_
    rw [hdirs.locate_eq_ok]
    refine and_congr_right fun hq => ?_
    have hne : q ≠ p := fun he => hplace (by rw [hq, hp, he])
    rw [hstore, file?_setFile, if_neg hne]
  have hmodule : IsModule c w₁.store input' text' := by
    refine ⟨?_, p, by rw [hpath]; exact hdirs.locate_eq_ok.2 hp, (hdirs.isDir p).trans hfile⟩
    rcases compileFile_agrees (c := c) hread with he | ⟨f, f', -, hf⟩
    · rw [he]
      exact h'.compiles
    · cases h'.compiles.symm.trans hf
  obtain ⟨w₂, q, hsecond, hq, -, hstore', hout'⟩ := buildInput_of_isModule (l := l) hmodule
  refine ⟨w₂, ?_, ?_, by rw [hout', hout]⟩
  · rw [buildInputs, hfirst]
    dsimp only
    rw [buildInputs, hsecond]
    rfl
  · rw [← hpath, read_eq_ok]
    exact ⟨q, by
      rw [hstore'];
        exact sameDirs_setFile.locate_eq_ok.2 hq, by rw [hstore', file?_setFile, if_pos rfl]⟩

example :
    buildAll { Config.default with outputDir := "build" } ⟨false, false, ""⟩
        ⟨⟨[], [(["a.yaml"], "files: [\x7bname: a\x7d]"), (["a.json"], "files: [\x7bname: a\x7d]")],
          []⟩, "", ""⟩
        ["a.yaml", "a.json"] =
      (⟨⟨[], [(["a.yaml"], "files: [\x7bname: a\x7d]"), (["a.json"], "files: [\x7bname: a\x7d]"),
        (["build", "a.ll"],
          "source_filename = \"a.json\"\n\ndefine i32 @main() \x7b\nentry:\n\tret i32 0\n\x7d\n")],
            [["build"]]⟩,
        "[OK] a.yaml -> build/a.ll\n[OK] a.json -> build/a.ll\n", ""⟩, .succeeded) := by
          decide +kernel

end CheckedIR.Command

import CheckedIR.Command.Jobs
import CheckedIR.Proofs.Command.Stores

/-!
# Places of modules

Two modules of a build go to one file only if they have the same path, and a program that lies where
a module goes has a module of that path itself. So if the paths of the modules differ, no job
touches what another one reads or writes.
-/

namespace CheckedIR.Command

open Store Text.Path

variable {c : Config} {s s' : Store} {input input' text : String} {p : Place}

/-! ## Places -/

theorem outputPath_eq_of_place (hdir : c.outputDir ≠ "")
    (h : s.locate (outputPath c input).toList = .ok p)
    (h' : s.locate (outputPath c input').toList = .ok p) :
    outputPath c input = outputPath c input' := by
  obtain ⟨here, -, hp⟩ := locate_name (endsIn_outputPath hdir) isName_moduleName h
  obtain ⟨here', -, hp'⟩ := locate_name (endsIn_outputPath hdir) isName_moduleName h'
  have hnames := congrArg List.getLast? (hp.symm.trans hp')
  rw [List.getLast?_concat, List.getLast?_concat] at hnames
  exact (outputPath_eq_iff hdir).2 (String.ofList_inj.1 (Option.some.inj hnames))

theorem outputPath_eq_of_input_place (htree : s.IsTree) (hdir : c.outputDir ≠ "")
    (h : s.locate (outputPath c input).toList = .ok p) (hp : s.isDir p = false)
    (h' : s.locate input'.toList = .ok p) : outputPath c input' = outputPath c input := by
  obtain ⟨name, hends⟩ := exists_endsIn input'.toList
  have hname := isName_of_locate htree hends h' hp
  obtain ⟨here, -, he⟩ := locate_name (endsIn_outputPath hdir) isName_moduleName h
  obtain ⟨here', -, he'⟩ := locate_name hends hname h'
  have hnames := congrArg List.getLast? (he.symm.trans he')
  rw [List.getLast?_concat, List.getLast?_concat] at hnames
  have hmodule : moduleName input = name := String.ofList_inj.1 (Option.some.inj hnames)
  refine (outputPath_eq_iff hdir).2 (moduleName_of_base ?_)
  rw [hends.base hname.ne_nil, String.toList_ofList, hmodule]

/-! ## Compiling -/

theorem compileFile_agrees (h : ∀ text, s'.read input = .ok text ↔ s.read input = .ok text) :
    compileFile c s' input = compileFile c s input ∨
      ∃ f f', (compileFile c s' input).1 = .error (.refused f') ∧
        (compileFile c s input).1 = .error (.refused f) := by
  cases hread : s.read input with
  | ok text =>
    left
    rw [compileFile, compileFile, hread, (h text).2 hread]
  | error e =>
    right
    cases hread' : s'.read input with
    | ok text => cases hread.symm.trans ((h text).1 hread')
    | error e' => exact ⟨_, _, by rw [compileFile, hread'], by rw [compileFile, hread]⟩

/-- The program compiles to the text, and there can be a file of it. -/
structure IsModule (c : Config) (s : Store) (input text : String) : Prop where
  compiles : (compileFile c s input).1 = .ok text
  writable : ∃ p, s.locate (outputPath c input).toList = .ok p ∧ s.isDir p = false

theorem exists_write_iff (hdirs : SameDirs s s') (text : String) :
    (∃ t, s'.write (outputPath c input) text = .ok t) ↔
    ∃ p, s.locate (outputPath c input).toList = .ok p ∧ s.isDir p = false := by
  simp only [write_eq_ok, hdirs.locate_eq_ok, hdirs.isDir]
  exact ⟨fun ⟨_, p, hp, hfile, _⟩ => ⟨p, hp, hfile⟩, fun ⟨p, hp, hfile⟩ => ⟨_, p, hp, hfile, rfl⟩⟩

theorem IsModule.unique {text' : String} (h : IsModule c s input text)
    (h' : IsModule c s input text') : text = text' :=
  Except.ok.inj (h.compiles.symm.trans h'.compiles)

end CheckedIR.Command

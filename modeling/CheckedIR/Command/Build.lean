import CheckedIR.Command.Config
import CheckedIR.Command.Log
import CheckedIR.Command.Store
import CheckedIR.Lowering.Compile
import CheckedIR.Text.Path

/-!
# Building programs

Compiles programs from a store into modules in its output directory. A module is named after its
program without the extension. A program that fails does not stop the others and leaves no module
behind.
-/

namespace CheckedIR.Command

structure World where
  store : Store
  out : String
  err : String
  deriving DecidableEq, Repr

namespace World

def print (w : World) (text : String) : World := { w with out := w.out ++ text }

def warn (w : World) (text : String) : World := { w with err := w.err ++ text }

end World

inductive BuildResult
  | succeeded
  | failed
  | crashed
  deriving DecidableEq, Repr

/-- One failure makes the whole build fail, and a crash ends it. -/
def BuildResult.and : BuildResult → BuildResult → BuildResult
  | .succeeded, r => r
  | .failed, .crashed => .crashed
  | .failed, _ => .failed
  | .crashed, _ => .crashed

def outputPath (c : Config) (input : String) : String :=
  -- The directory of the program does not count, so programs of one name share a module.
  let base := Text.Path.base input
  let stem := base.toList.take (base.length - (Text.Path.ext base).length)
  Text.Path.join c.outputDir (String.ofList stem ++ ".ll")

def compileFile (c : Config) (s : Store) (path : String) :
    Except Fault String × List Lowering.LogLine :=
  match s.read path with
  | .error e =>
    (.error (.refused (.within "failed to read checked program" (.plain e.text))), [])
  | .ok text =>
    match Program.labelled path (Program.ofText text) with
    | .error f => (.error f, [])
    | .ok p =>
      Lowering.compile p path ⟨c.entryName, Text.Path.base path, c.targetTriple, c.dataLayout⟩

def failureReport (c : Config) (f : Failure) : String :=
  match c.debug, f.diagnostic? with
  | true, some d => d.report
  | _, _ => f.text

def reportFailure (c : Config) (l : Logger) (input : String) (f : Failure) (w : World) : World :=
  (w.warn (l.line .error (input ++ ": " ++ failureReport c f))).print ("[FAIL] " ++ input ++ "\n")

def buildInput (c : Config) (l : Logger) (w : World) (input : String) : World × BuildResult :=
  let (result, log) := compileFile c w.store input
  let w := w.warn (l.lines log)
  match result with
  | .error (.refused f) => (reportFailure c l input f w, .failed)
  | .error _ => (w, .crashed)
  | .ok text =>
    let out := outputPath c input
    match w.store.write out text with
    | .error e =>
      (reportFailure c l input (.within ("failed to write " ++ out) (.plain e.text)) w, .failed)
    | .ok store =>
      ({ w with store := store }.print ("[OK] " ++ input ++ " -> " ++ out ++ "\n"), .succeeded)

def buildInputs (c : Config) (l : Logger) (w : World) : List String → World × BuildResult
  | [] => (w, .succeeded)
  | input :: rest =>
    match buildInput c l w input with
    | (w, .crashed) => (w, .crashed)
    | (w, r) =>
      let (w, r') := buildInputs c l w rest
      (w, r.and r')

def buildAll (c : Config) (l : Logger) (w : World) (inputs : List String) : World × BuildResult :=
  match w.store.ensureDir c.outputDir with
  | .error e =>
    (w.warn (l.line .error ("failed to create output directory: " ++ e.text)), .failed)
  | .ok store => buildInputs c l { w with store := store } inputs

end CheckedIR.Command

import CheckedIR.Diagnostic
import CheckedIR.Document.Reader
import CheckedIR.Document.Writer
import CheckedIR.Layout.Fields
import CheckedIR.Program.Loading
import CheckedIR.Release.Version

/-!
# Configuration

The settings of a build. They come from a document whose entries replace the defaults; unknown
entries are ignored and nulls change nothing. Settings are validated field by field, and the first
wrong field decides.
-/

namespace CheckedIR.Command

open CheckedIR.Document

structure Config where
  verbose : Bool
  debug : Bool
  outputDir : String
  targetTriple : String
  dataLayout : String
  /-- The release that has to read the modules; empty to leave it open. -/
  llvmVersion : String
  entryName : String
  /-- How many programs are compiled at a time; zero for as many as there are processors. -/
  jobs : Int
  deriving DecidableEq, Repr

namespace Config

def default : Config :=
  { verbose := false, debug := false, outputDir := ".", targetTriple := "", dataLayout := ""
    llvmVersion := "14.0.0", entryName := "main", jobs := 0 }

def set? (name : String) (c : Config) (d : Data) : Option (Decoding Config) :=
  match name with
  | "verbose" => some do return { c with verbose := (← Decoding.bool d).getD c.verbose }
  | "debug" => some do return { c with debug := (← Decoding.bool d).getD c.debug }
  | "output_dir" => some do return { c with outputDir := (← Decoding.text d).getD c.outputDir }
  | "target_triple" =>
    some do return { c with targetTriple := (← Decoding.text d).getD c.targetTriple }
  | "data_layout" => some do return { c with dataLayout := (← Decoding.text d).getD c.dataLayout }
  | "llvm_version" =>
    some do return { c with llvmVersion := (← Decoding.text d).getD c.llvmVersion }
  | "entry_name" => some do return { c with entryName := (← Decoding.text d).getD c.entryName }
  | "jobs" => some do return { c with jobs := (← Decoding.int d).getD c.jobs }
  | _ => none

def read (text : String) : Except Refusal Config := do
  Decoding.whole (Decoding.fields set?) default (← Document.read text)

def validate (c : Config) : Except Cause Unit := do
  if c.entryName.isEmpty then throw (.invalidConfig "entry_name" "must not be empty")
  if c.jobs < 0 then
    throw (.invalidConfig "jobs" ("must not be negative, got " ++ toString c.jobs))
  match Layout.Target.ofTriple c.targetTriple with
  | .error reason => throw (.invalidConfig "target_triple" reason)
  | .ok _ => pure ()
  if !c.llvmVersion.isEmpty then
    match Release.Version.parse c.llvmVersion with
    | .error e => throw (.invalidConfig "llvm_version" e.message)
    | .ok _ => pure ()

def ofText (path text : String) : Except Fault Config :=
  match read text with
  | .error e =>
    Program.labelled ("failed to parse config file " ++ path) (throw (Program.refusalFault e))
  | .ok c =>
    match c.validate with
    | .error e => Program.labelled ("config file " ++ path) (throw (.cause e))
    | .ok _ => pure c

def text (c : Config) : String :=
  let flag := fun (b : Bool) => if b then "true" else "false"
  writeEntry "verbose" (flag c.verbose) ++ writeEntry "debug" (flag c.debug) ++
    writeEntry "output_dir" (writeText c.outputDir) ++
    writeEntry "target_triple" (writeText c.targetTriple) ++
    writeEntry "data_layout" (writeText c.dataLayout) ++
    writeEntry "llvm_version" (writeText c.llvmVersion) ++
    writeEntry "entry_name" (writeText c.entryName) ++ writeEntry "jobs" (toString c.jobs)

end Config

end CheckedIR.Command

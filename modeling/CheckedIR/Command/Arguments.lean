import CheckedIR.Command.Config
import CheckedIR.Command.Help
import CheckedIR.Lowering.Compile
import CheckedIR.Text.Integer

/-!
# Command line arguments

Flags come first, with one dash or two, and end at the first argument that is no flag or behind a
lone `--`. A flag with a value takes it behind an equals sign or as the next argument; a switch
takes one behind an equals sign only.
-/

namespace CheckedIR.Command

/-- What the command is asked to do. A setting that no flag gives is absent. -/
structure Arguments where
  configPath : String
  outputDir? : Option String
  target? : Option String
  llvmVersion? : Option String
  entry? : Option String
  jobs? : Option Int
  watch : Bool
  verbose? : Option Bool
  debug? : Option Bool
  showVersion : Bool
  json : Bool
  inputs : List String
  deriving DecidableEq, Repr

inductive ArgumentError
  | help
  | badForm (arg : String)
  | unknownFlag (name : String)
  | missingValue (name : String)
  | badSwitch (value name : String)
  | badValue (value name reason : String)
  deriving DecidableEq, Repr

def ArgumentError.message : ArgumentError → String
  | .help => ""
  | .badForm arg => "bad flag syntax: " ++ arg ++ "\n"
  | .unknownFlag name => "flag provided but not defined: -" ++ name ++ "\n"
  | .missingValue name => "flag needs an argument: -" ++ name ++ "\n"
  | .badSwitch value name =>
    "invalid boolean value " ++ Text.quoted value ++ " for -" ++ name ++ ": parse error\n"
  | .badValue value name reason =>
    "invalid value " ++ Text.quoted value ++ " for flag -" ++ name ++ ": " ++ reason ++ "\n"

inductive Argument
  | operand
  | endOfFlags
  | malformed
  | flag (name : String) (value? : Option String)
  deriving DecidableEq, Repr

def flagParts : List Char → Argument
  | [] => .malformed
  | c :: cs =>
    if c == '-' || c == '=' then .malformed
    else
      match cs.span (· != '=') with
      | (name, _ :: value) => .flag (String.ofList (c :: name)) (some (String.ofList value))
      | (name, []) => .flag (String.ofList (c :: name)) none

def Argument.ofString (s : String) : Argument :=
  match s.toList with
  | ['-', '-'] => .endOfFlags
  | '-' :: '-' :: cs => flagParts cs
  | '-' :: c :: cs => flagParts (c :: cs)
  | _ => .operand

namespace Arguments

def none : Arguments :=
  { configPath := "", outputDir? := .none, target? := .none, llvmVersion? := .none
    entry? := .none, jobs? := .none, watch := false, verbose? := .none, debug? := .none
    showVersion := false, json := false, inputs := [] }

def switch? (name : String) : Option (Bool → Arguments → Arguments) :=
  match name with
  | "watch" => some fun b a => { a with watch := b }
  | "v" => some fun b a => { a with verbose? := some b }
  | "debug" => some fun b a => { a with debug? := some b }
  | "version" => some fun b a => { a with showVersion := b }
  | "json" => some fun b a => { a with json := b }
  | _ => .none

def setting? (name : String) :
    Option (String → Arguments → Except Text.IntegerError Arguments) :=
  match name with
  | "config" => some fun v a => pure { a with configPath := v }
  | "o" => some fun v a => pure { a with outputDir? := some v }
  | "target" => some fun v a => pure { a with target? := some v }
  | "llvm-version" => some fun v a => pure { a with llvmVersion? := some v }
  | "entry" => some fun v a => pure { a with entry? := some v }
  | "j" => some fun v a => return { a with jobs? := some (← Text.integer v) }
  | _ => .none

def assign (set : String → Arguments → Except Text.IntegerError Arguments) (name value : String)
    (a : Arguments) : Except ArgumentError Arguments :=
  match set value a with
  | .ok a => pure a
  | .error e => throw (.badValue value name e.message)

def parseFrom (a : Arguments) : List String → Except ArgumentError Arguments
  | [] => pure { a with inputs := [] }
  | arg :: rest =>
    match Argument.ofString arg with
    | .operand => pure { a with inputs := arg :: rest }
    | .endOfFlags => pure { a with inputs := rest }
    | .malformed => throw (.badForm arg)
    | .flag name value? =>
      match switch? name, setting? name with
      | some set, _ =>
        match value? with
        | .none => parseFrom (set true a) rest
        | some v =>
          match Text.truth? v with
          | some b => parseFrom (set b a) rest
          | .none => throw (.badSwitch v name)
      | .none, some set =>
        match value?, rest with
        | some v, rest => do parseFrom (← assign set name v a) rest
        | .none, v :: rest => do parseFrom (← assign set name v a) rest
        | .none, [] => throw (.missingValue name)
      | .none, .none =>
        if name == "help" || name == "h" then throw .help else throw (.unknownFlag name)

def parse (args : List String) : Except ArgumentError Arguments := parseFrom none args

def override (a : Arguments) (c : Config) : Config :=
  { verbose := a.verbose?.getD c.verbose
    debug := a.debug?.getD c.debug
    outputDir := a.outputDir?.getD c.outputDir
    targetTriple := a.target?.getD c.targetTriple
    dataLayout := c.dataLayout
    llvmVersion := a.llvmVersion?.getD c.llvmVersion
    entryName := a.entry?.getD c.entryName
    jobs := a.jobs?.getD c.jobs }

end Arguments

def commandHelp : CommandHelp :=
  { name := "nativets"
    usage := "nativets [OPTIONS] <program.yaml>..."
    description := "compile checked TypeScript programs to LLVM IR"
    examples := ["nativets -o build hello.yaml",
      "nativets -config nativets.yaml -watch app.yaml lib.yaml"]
    flags := [
      ⟨"config", "configuration file (YAML or JSON)", ""⟩,
      ⟨"o", "output directory for .ll files", "."⟩,
      ⟨"target", "target triple recorded in each module", ""⟩,
      ⟨"llvm-version", "LLVM release the IR is meant for", "14.0.0"⟩,
      ⟨"entry", "name of the entry function", Lowering.defaultEntryName⟩,
      ⟨"j", "number of programs compiled concurrently (0 = all CPUs)", "0"⟩,
      ⟨"watch", "recompile inputs when they change", ""⟩,
      ⟨"v", "verbose output", ""⟩,
      ⟨"debug", "debug output, including full error reports", ""⟩,
      ⟨"version", "show version information", ""⟩,
      ⟨"json", "print version information as JSON", ""⟩] }

end CheckedIR.Command

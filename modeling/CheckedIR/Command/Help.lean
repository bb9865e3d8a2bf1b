import CheckedIR.Text.Escapes

/-!
# Help

What a command is for, which flags it takes and how it is called, and what a tool says about its
version.
-/

namespace CheckedIR.Command

/-! ## Usage -/

structure FlagHelp where
  name : String
  usage : String
  /-- The value without the flag; empty if there is nothing to say. -/
  default : String
  deriving DecidableEq, Repr

structure CommandHelp where
  name : String
  usage : String
  description : String
  examples : List String
  flags : List FlagHelp
  deriving DecidableEq, Repr

def padded (width : Nat) (s : String) : String :=
  s ++ String.ofList (List.replicate (width - s.length) ' ')

def FlagHelp.text (f : FlagHelp) : String :=
  padded 24 ("    -" ++ f.name) ++ " " ++ f.usage ++ "\n" ++
    if f.default.isEmpty then "" else padded 24 "" ++ " Default: " ++ f.default ++ "\n"

def usageSection (title : String) (lines : List String) : String :=
  if lines.isEmpty then "" else title ++ ":\n" ++ String.join lines ++ "\n"

def CommandHelp.text (c : CommandHelp) : String :=
  c.name ++ " - " ++ c.description ++ "\n\nUSAGE:\n    " ++ c.usage ++ "\n\n" ++
    usageSection "OPTIONS" (c.flags.map FlagHelp.text) ++
    usageSection "EXAMPLES" (c.examples.map fun e => "    " ++ e ++ "\n")

def requireArguments (args : List String) (least : Int) (usage : String) : Except String Unit :=
  if (args.length : Int) < least then throw ("insufficient arguments\nUsage: " ++ usage)
  else pure ()

/-! ## Version -/

structure BuildInfo where
  version : String
  date : String
  commit : String
  toolchain : String
  platform : String
  arch : String
  deriving DecidableEq, Repr

namespace BuildInfo

def current (toolchain : String) : BuildInfo :=
  ⟨"0.3.0", "2026-10-17", "unknown", toolchain, "linux", "amd64"⟩

def text (b : BuildInfo) (tool : String) : String :=
  tool ++ " v" ++ b.version ++ "\nBuild Date: " ++ b.date ++ "\n" ++
    (if b.commit == "unknown" || b.commit.isEmpty then "" else "Commit: " ++ b.commit ++ "\n") ++
    "Go Version: " ++ b.toolchain ++ "\nPlatform: " ++ b.platform ++ "/" ++ b.arch ++ "\n"

def member (indent name value : String) : String :=
  indent ++ Text.jsonQuoted name ++ ": " ++ value

def json (b : BuildInfo) (tool : String) : String :=
  let fields := [("version", b.version), ("build_date", b.date), ("commit_sha", b.commit),
    ("go_version", b.toolchain), ("platform", b.platform), ("arch", b.arch)]
  let inner := ",\n".intercalate (fields.map fun (k, v) => member "    " k (Text.jsonQuoted v))
  "\x7b\n" ++ member "  " "tool" (Text.jsonQuoted tool) ++ ",\n" ++
    member "  " "version_info" ("\x7b\n" ++ inner ++ "\n  \x7d") ++ "\n\x7d\n"

end BuildInfo

end CheckedIR.Command

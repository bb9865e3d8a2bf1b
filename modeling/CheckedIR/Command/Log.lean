import CheckedIR.Lowering.State

/-!
# Log lines

Messages with a level. Warnings and errors are always shown, information only on request, and the
messages of the lowering itself only for debugging.
-/

namespace CheckedIR.Command

inductive Level
  | info
  | debug
  | warn
  | error
  deriving DecidableEq, Repr

def Level.name : Level → String
  | .info => "INFO"
  | .debug => "DEBUG"
  | .warn => "WARN"
  | .error => "ERROR"

structure Logger where
  verbose : Bool
  debug : Bool
  clock : String
  deriving DecidableEq, Repr

namespace Logger

def shows (l : Logger) : Level → Bool
  | .info => l.verbose
  | .debug => l.debug
  | .warn | .error => true

def line (l : Logger) (level : Level) (message : String) : String :=
  if l.shows level then "[" ++ level.name ++ "] " ++ l.clock ++ ": " ++ message ++ "\n" else ""

def lines (l : Logger) (log : List Lowering.LogLine) : String :=
  String.join (log.map fun m =>
    match m.level with
    | .debug => l.line .debug m.text
    | .warning => l.line .warn m.text)

end Logger

end CheckedIR.Command

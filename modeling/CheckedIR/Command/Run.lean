import CheckedIR.Command.Arguments
import CheckedIR.Command.Help
import CheckedIR.Command.Build
import CheckedIR.Command.Watch
import CheckedIR.Release.Version

/-!
# Running the command

From arguments and files to output, exit code and new files. A run that watches its inputs goes on
as a session, which rebuilds inputs when they change.
-/

namespace CheckedIR.Command

structure Surroundings where
  clock : String
  toolchain : String
  deriving DecidableEq, Repr

structure Session where
  config : Config
  logger : Logger
  watcher : Watcher
  deriving DecidableEq, Repr

inductive Progress
  | done (exit : Nat) (w : World)
  | watching (s : Session) (w : World)
  deriving Repr

def loadConfig (s : Store) (path : String) : Except Fault Config :=
  if path.isEmpty then pure .default
  else
    match s.read path with
    | .error e =>
      if e.reason = .missing then pure .default
      else Program.labelled "failed to read config file" (throw (.plain e.text))
    | .ok text => Config.ofText path text

/-- The settings of a run: the flags win over the configuration file. -/
def settle (s : Store) (a : Arguments) : Except Fault Config := do
  let c := a.override (← loadConfig s a.configPath)
  match c.validate with
  | .error e => throw (.cause e)
  | .ok _ => pure ()
  if !c.llvmVersion.isEmpty then
    match Release.check c.llvmVersion with
    | .error e => throw (.cause e)
    | .ok _ => pure ()
  return c

def exitWith (w : World) (message : String) : Progress :=
  .done 1 (w.warn ("Error: " ++ message ++ "\n"))

def watchInputs (s : Store) (w : Watcher) : List String → Except StoreError Watcher
  | [] => pure w
  | input :: rest => do
    let path := Text.Path.absolute s.workingPath input
    let dir := Text.Path.dir path
    if !w.watchesDir dir then
      let place ← s.locate dir.toList
      if !s.isDir place && (s.file? place).isNone then throw .missing
    watchInputs s { w with watched := w.watched ++ [path] } rest

def start (r : Surroundings) (args : List String) (store : Store) : Progress :=
  let w : World := ⟨store, "", ""⟩
  match Arguments.parse args with
  | .error .help => .done 0 (w.warn commandHelp.text)
  | .error e => .done 2 (w.warn (e.message ++ commandHelp.text))
  | .ok a =>
    if a.showVersion then
      let info := BuildInfo.current r.toolchain
      .done 0 (w.print (if a.json then info.json commandHelp.name else info.text commandHelp.name))
    else
      match requireArguments a.inputs 1 commandHelp.usage with
      | .error _ => .done 2 (w.warn commandHelp.text)
      | .ok _ =>
        match settle store a with
        | .error (.refused f) => exitWith w f.text
        | .error _ => .done 2 w
        | .ok c =>
          let l : Logger := ⟨c.verbose, c.debug, r.clock⟩
          match buildAll c l w a.inputs with
          | (w, .crashed) => .done 2 w
          | (w, result) =>
            if a.watch then
              match watchInputs w.store ⟨[], []⟩ a.inputs with
              | .error e => exitWith w ("watch: " ++ e.text)
              | .ok watcher =>
                let message := "watching " ++ toString a.inputs.length ++ " program(s)"
                .watching ⟨c, l, watcher⟩ (w.warn (l.line .info message))
            else .done (if result = .succeeded then 0 else 1) w

namespace Session

def rebuild (s : Session) (w : World) (paths : List String) : World :=
  let w := w.warn (s.logger.line .info ("change detected in " ++ ", ".intercalate paths))
  match buildAll s.config s.logger w paths with
  | (w, .succeeded) =>
    w.warn (s.logger.line .info ("rebuilt " ++ toString paths.length ++ " program(s)"))
  | (w, _) => w

def deliver (s : Session) (w : World) (events : List FileEvent) : World :=
  (s.watcher.run (s.watcher.signals events none)).1.foldl s.rebuild w

end Session

end CheckedIR.Command

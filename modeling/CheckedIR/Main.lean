import CheckedIR.Command.Run
import Std.Time.Format

/-!
# The command

Runs the command on the files of the machine. The files that a run may look at are read into a
store, the run itself is a function of that store, and what it changed is written back.
-/

namespace CheckedIR.Command

def placeOf (path : String) : Place :=
  ((path.toList.splitOn '/').map String.ofList).filter (! ·.isEmpty)

def pathOf (p : Place) : String := "/" ++ "/".intercalate p

def look (s : Store) (path : String) : IO Store := do
  let root ← IO.currentDir
  let place := placeOf (Text.Path.absolute s.workingPath path)
  let mut s := s
  for p in waypoints place do
    if ← (root / pathOf p).isDir then s := s.addDir p
  if (← (root / pathOf place).pathExists) && !s.isDir place then
    try s := s.setFile place (← IO.FS.readFile (root / pathOf place))
    catch _ => pure ()
  return s

def snapshot (args : List String) : IO Store := do
  let s := Store.empty (placeOf (← IO.currentDir).toString)
  match Arguments.parse args with
  | .error _ => return s
  | .ok a =>
    let mut s := s
    if !a.configPath.isEmpty then s ← look s a.configPath
    let c := (settle s a).toOption.getD .default
    for path in a.inputs do
      s ← look s path
      s ← look s (outputPath c path)
    look s c.outputDir

def commit (before : Store) (w : World) : IO Unit := do
  let root ← IO.currentDir
  for p in w.store.dirs do
    if !before.isDir p then IO.FS.createDirAll (root / pathOf p)
  for (p, text) in w.store.files do
    if before.file? p != some text then IO.FS.writeFile (root / pathOf p) text
  IO.print w.out
  IO.eprint w.err

def surroundings : IO Surroundings :=
  return ⟨(← Std.Time.PlainTime.now).toTime24Hour, "unknown"⟩

def changedFiles (s : Session) (store : Store) : IO (Store × List FileEvent) := do
  let mut store := store
  let mut events := []
  for path in s.watcher.watched do
    let before := store.file? (placeOf path)
    store ← look store path
    if store.file? (placeOf path) != before then
      events := events ++ [⟨path, Changes.written⟩]
  return (store, events)

partial def watchLoop (s : Session) (store : Store) : IO UInt32 := do
  IO.sleep 100
  let (store, events) ← changedFiles s store
  if events.isEmpty then watchLoop s store
  else
    let logger := { s.logger with clock := (← surroundings).clock }
    let w := { s with logger := logger }.deliver ⟨store, "", ""⟩ events
    commit store w
    watchLoop s w.store

end CheckedIR.Command

open CheckedIR.Command in
def main (args : List String) : IO UInt32 := do
  let store ← snapshot args
  match start (← surroundings) args store with
  | .done exit w =>
    commit store w
    return exit.toUInt32
  | .watching s w =>
    commit store w
    watchLoop s w.store

import CheckedIR.Text.Path

/-!
# Watching files

A watcher collects the watched files that changed and asks for a rebuild of them once it has been
quiet for a while. Changes of other files, and changes of permissions only, do not count. The
files to rebuild are kept in increasing order, so a file that changes twice is rebuilt once.
-/

namespace CheckedIR.Command

/-- Kinds of change as a set of bits: created 1, written 2, removed 4, renamed 8, permissions 16. -/
structure Changes where
  bits : Nat
  deriving DecidableEq, Repr

namespace Changes

def written : Changes := ⟨2⟩

def permissions : Changes := ⟨16⟩

def ofNotification (bits : Nat) : Changes := ⟨bits % 32⟩

end Changes

structure FileEvent where
  path : String
  changes : Changes
  deriving DecidableEq, Repr

inductive Signal
  | event (e : FileEvent)
  | expired
  | fault (reason : String)
  | closed
  | stopped
  deriving DecidableEq, Repr

structure Watcher where
  watched : List String
  pending : List String
  deriving DecidableEq, Repr

inductive Reaction
  | wait (w : Watcher)
  | rebuild (paths : List String) (w : Watcher)
  | finish (fault? : Option String)
  deriving DecidableEq, Repr

def insertPath (path : String) : List String → List String
  | [] => [path]
  | p :: ps =>
    if path < p then path :: p :: ps
    else if path = p then p :: ps
    else p :: insertPath path ps

namespace Watcher

def concerns (w : Watcher) (e : FileEvent) : Bool :=
  w.watched.contains e.path && e.changes != .permissions

def react (w : Watcher) : Signal → Reaction
  | .event e =>
    if w.concerns e then .wait { w with pending := insertPath e.path w.pending } else .wait w
  | .expired => .rebuild w.pending { w with pending := [] }
  | .fault reason => .finish (some reason)
  | .closed | .stopped => .finish none

inductive Ending
  | returned (fault? : Option String)
  | waiting (w : Watcher)
  deriving DecidableEq, Repr

def run (w : Watcher) : List Signal → List (List String) × Ending
  | [] => ([], .waiting w)
  | s :: rest =>
    match w.react s with
    | .wait w => w.run rest
    | .rebuild paths w =>
      let (rebuilds, ending) := w.run rest
      (paths :: rebuilds, ending)
    | .finish fault? => ([], .returned fault?)

/-- The signals from a queue of events: at its end `last`, or else the quiet period is over if
some event asked for a rebuild. -/
def signals (w : Watcher) (events : List FileEvent) (last : Option Signal) : List Signal :=
  events.map .event ++
    match last with
    | some s => [s]
    | none => if events.any w.concerns then [.expired] else []

def watchesDir (w : Watcher) (dir : String) : Bool :=
  w.watched.any fun f => Text.Path.dir f == dir

end Watcher

end CheckedIR.Command

import CheckedIR.Command.Build

/-!
# Building with several jobs

Every input has a job. Jobs are started in the order of the inputs, as long as fewer than a limit
are at work, and then each goes on at its own pace: it compiles its program, makes the file of the
module and fills it. All jobs share the store and the output streams, and one step of one job is
done at a time.
-/

namespace CheckedIR.Command

inductive Stage
  | waiting
  | started
  | compiled (text : String)
  /-- The file of the module has been made, or emptied if it was there. -/
  | opened (text : String)
  | finished (ok : Bool)
  deriving DecidableEq, Repr

structure Job where
  input : String
  stage : Stage
  deriving DecidableEq, Repr

def Job.isAtWork (j : Job) : Bool :=
  match j.stage with
  | .started | .compiled _ | .opened _ => true
  | .waiting | .finished _ => false

def reportLine (c : Config) (input : String) (ok : Bool) : String :=
  if ok then "[OK] " ++ input ++ " -> " ++ outputPath c input ++ "\n"
  else "[FAIL] " ++ input ++ "\n"

inductive JobStep (c : Config) (l : Logger) (input : String) : World → Stage → World → Stage → Prop
  | compile {w : World} {text : String} {log : List Lowering.LogLine}
      (h : compileFile c w.store input = (.ok text, log)) :
      JobStep c l input w .started (w.warn (l.lines log)) (.compiled text)
  | refuse {w : World} {f : Failure} {log : List Lowering.LogLine}
      (h : compileFile c w.store input = (.error (.refused f), log)) :
      JobStep c l input w .started (reportFailure c l input f (w.warn (l.lines log)))
        (.finished false)
  | create {w : World} {text : String} {store : Store}
      (h : w.store.write (outputPath c input) "" = .ok store) :
      JobStep c l input w (.compiled text) { w with store } (.opened text)
  | block {w : World} {text : String} {e : StoreFailure}
      (h : w.store.write (outputPath c input) "" = .error e) : JobStep c l input w (.compiled text)
        (reportFailure c l input
          (.within ("failed to write " ++ outputPath c input) (.plain e.text)) w) (.finished false)
  | fill {w : World} {text : String} {store : Store}
      (hempty : w.store.read (outputPath c input) = .ok "")
      (h : w.store.write (outputPath c input) text = .ok store) :
      JobStep c l input w (.opened text) ({ w with store }.print (reportLine c input true))
        (.finished true)
  /-- If another job has written to the file in between, the file can become any mixture of the
  texts. -/
  | mix {w : World} {text other mixture : String} {store : Store}
      (hother : w.store.read (outputPath c input) = .ok other) (hne : other ≠ "")
      (h : w.store.write (outputPath c input) mixture = .ok store) :
      JobStep c l input w (.opened text) ({ w with store }.print (reportLine c input true))
        (.finished true)

structure Batch where
  world : World
  jobs : List Job
  failures : Nat
  deriving DecidableEq, Repr

namespace Batch

def start (w : World) (inputs : List String) : Batch := ⟨w, inputs.map (⟨·, .waiting⟩), 0⟩

/-- A step of a build with at most `limit` jobs at work. -/
inductive Step (c : Config) (l : Logger) (limit : Nat) : Batch → Batch → Prop
  | start {w : World} {before after : List Job} {input : String} {failures : Nat}
      (hfirst : ∀ j ∈ before, j.stage ≠ .waiting)
      (hfree : (before ++ ⟨input, .waiting⟩ :: after).countP Job.isAtWork < limit) :
      Step c l limit ⟨w, before ++ ⟨input, .waiting⟩ :: after, failures⟩ ⟨w,
        before ++ ⟨input, .started⟩ :: after, failures⟩
  | work {w w' : World} {before after : List Job} {input : String} {stage stage' : Stage}
      {failures : Nat} (h : JobStep c l input w stage w' stage') :
      Step c l limit ⟨w, before ++ ⟨input, stage⟩ :: after, failures⟩
        ⟨w', before ++ ⟨input, stage'⟩ :: after,
          if stage' = .finished false then failures + 1 else failures⟩

def result (b : Batch) : BuildResult := if 0 < b.failures then .failed else .succeeded

end Batch

end CheckedIR.Command

import FilterScript.Config
import FilterScript.Thread

/-
The interpreter: the side of the host.

The host starts scripts, delivers frames and collects messages.  Each script is a run with a number
of its own, and at most one run is current.  A run that is replaced is never heard from again, not
even with messages that the host has not collected yet; every other run ends with one `done`, behind
an `error` if it failed.  A run that the platform has no thread for fails while it is started.

The functions of this module only decide; the signals that they send to waiting runs are part of
their answers.
-/
namespace FilterScript

/-- The run that is current. -/
structure CurrentRun where
  id : RunId
  /-- Whether it waits for a frame. -/
  isSuspended : Bool
deriving DecidableEq, Repr

/-- What the interpreter does. -/
inductive InterpreterState where
  | idle
  | running
  | suspended
deriving DecidableEq, Repr

/-- The state of the interpreter. -/
structure Interpreter where
  config : Config
  scheduler : Scheduler
  /-- The number of the newest run, zero before the first. -/
  generation : RunId
  current : Option CurrentRun
  /-- The messages that were not collected yet, each with its run. -/
  outbox : List (RunId × WorkerMessage)
  diagnostics : List Diagnostic
deriving DecidableEq, Repr

namespace Interpreter

/-- How many diagnostics are kept; older ones are dropped. -/
def mostDiagnostics : Nat := 32

/-- The interpreter before the first run. -/
def ofConfig (config : Config) : Interpreter := ⟨config, .idle, 0, none, [], []⟩

/-- What the interpreter does. -/
def state (i : Interpreter) : InterpreterState :=
  match i.current with
  | none => .idle
  | some run => if run.isSuspended then .suspended else .running

/-- Forgets the current run, with everything that it said and nobody collected. -/
def supersede (i : Interpreter) : Interpreter :=
  match i.current with
  | none => i
  | some run =>
    { i with current := none, outbox := i.outbox.filter fun m => m.1 ≠ run.id }

/-- Makes a new run current. -/
def start (i : Interpreter) : Interpreter × List Wakeup :=
  let id := i.generation + 1
  let (scheduler, wakeups) := i.scheduler.start id
  ({ i with generation := id, scheduler, current := some ⟨id, false⟩ }, wakeups)

/-- Keeps a diagnostic, and of all of them only the newest. -/
def keep (i : Interpreter) (d : Diagnostic) : Interpreter :=
  let all := i.diagnostics ++ [d]
  { i with diagnostics := all.drop (all.length - mostDiagnostics) }

/-- Says something for a run. -/
def say (i : Interpreter) (run : RunId) (m : WorkerMessage) : Interpreter :=
  { i with outbox := i.outbox ++ [(run, m)] }

/-- The current run has ended. -/
def finish (i : Interpreter) (outcome : Outcome) : Interpreter × List Wakeup :=
  match i.current with
  | none => (i, [])
  | some run =>
    let i := { i with current := none }
    let i := match outcome with
      | .failed failure diagnostic => (i.say run.id (.error failure.message)).keep diagnostic
      | _ => i
    let i := i.say run.id .done
    let (scheduler, wakeups) := i.scheduler.stop
    ({ i with scheduler }, wakeups)

/-- Nobody is current any longer. -/
def leave (i : Interpreter) : Interpreter := { i with current := none }

/-- No run is served any longer, and whoever waits is rejected. -/
def stop (i : Interpreter) : Interpreter × List Wakeup :=
  let (scheduler, wakeups) := i.scheduler.stop
  ({ i with scheduler }, wakeups)

/-- What is said of a run whose thread went away. -/
def lostText : String := "script terminated unexpectedly"

/-- The thread of the current run went away and did not say how it ended. -/
def lose (i : Interpreter) : Interpreter × List Wakeup :=
  i.finish (.failed (.runtime lostText) (.internal lostText))

/-- What is said of a run that got no thread. -/
def unstartedText (reason : String) : String := "failed to start script: " ++ reason

/-- The current run got no thread. -/
def fail (reason : String) (i : Interpreter) : Interpreter × List Wakeup :=
  i.finish (.failed (.runtime (unstartedText reason)) (.internal (unstartedText reason)))

/-- Takes in what the current run sent. -/
def dispatch (i : Interpreter) (e : RunEvent) : Interpreter × List Wakeup :=
  match i.current with
  | none => (i, [])
  | some run =>
    match e with
    | .message m => (i.say run.id m, [])
    | .suspend c =>
      let (scheduler, wakeups) := i.scheduler.suspend c
      ({ i with scheduler, current := some { run with isSuspended := true } }, wakeups)
    | .finished outcome => i.finish outcome

/-- Delivers a frame: whoever waits is woken. -/
def tick (i : Interpreter) : Interpreter × List Wakeup :=
  let (scheduler, wakeups) := i.scheduler.tick
  ({ i with scheduler }, wakeups)

/-- The current run goes on. -/
def resume (i : Interpreter) : Interpreter :=
  { i with current := i.current.map fun run => { run with isSuspended := false } }

end Interpreter

end FilterScript

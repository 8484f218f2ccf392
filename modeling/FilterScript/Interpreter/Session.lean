import FilterScript.Interpreter.Basic
import FilterScript.Script.Outcome
import FilterScript.Thread.Step

/-
A session: the interpreter and the threads of all runs that it started.

The host and the threads take turns in steps of any order.  Whoever wants to know what the library
does under some order composes `advanceRun`, which is one step of one thread, with the calls of the
host.
-/
namespace FilterScript

/-- A run with its thread. -/
structure Worker where
  link : Link
  thread : Thread Unit

/-- The interpreter, the runs that it started with the newest in front, what they share, and the
machine that has threads for them. -/
structure Session where
  interpreter : Interpreter
  workers : List Worker
  surroundings : Surroundings
  platform : Platform

namespace Session

/-- The thread of a script: it runs the script and says how that ended. -/
def scriptThread (config : Config) (id : RunId) (script : String) : Thread Unit := do
  let (outcome, _) ← Script.run config id script
  Thread.request (.finish outcome)

/-- The session before the first run. -/
def ofConfig (config : Config) (platform : Platform := .usual) : Session :=
  ⟨.ofConfig config, [], ⟨.empty, 0, []⟩, platform⟩

/-- The time. -/
def now (s : Session) : Moment := s.surroundings.now

/-- The run of a number. -/
def worker? (s : Session) (id : RunId) : Option Worker := s.workers.find? fun w => w.link.run = id

/-- Changes the link of the first run of a number. -/
def modifyFirst (id : RunId) (f : Link → Link) : List Worker → List Worker
  | [] => []
  | w :: ws =>
    if w.link.run = id then { w with link := f w.link } :: ws else w :: modifyFirst id f ws

/-- Changes what a run and the host share. -/
def onLink (s : Session) (id : RunId) (f : Link → Link) : Session :=
  { s with workers := modifyFirst id f s.workers }

/-- Changes what the current run and the host share. -/
def onCurrent (s : Session) (f : Link → Link) : Session :=
  match s.interpreter.current with
  | none => s
  | some run => s.onLink run.id f

/-- Sends signals to the runs that wait for them. -/
def deliver (s : Session) (wakeups : List Wakeup) : Session :=
  wakeups.foldl (fun s w => s.onLink w.continuation.run fun l => l.wake w) s

/-- Lets the interpreter do something, and delivers its signals. -/
def decide (s : Session) (f : Interpreter → Interpreter × List Wakeup) : Session :=
  let (interpreter, wakeups) := f s.interpreter
  { s with interpreter }.deliver wakeups

/-! ### Threads -/

/-- Whether the host holds a continuation. -/
def isQueued (s : Session) (c : Continuation) : Bool := s.interpreter.scheduler.pending.contains c

/-- One step of the thread of the first run of a number. -/
def stepFirst (queued : Continuation → Bool) (id : RunId) (shared : Surroundings) :
    List Worker → Option (List Worker × Surroundings)
  | [] => none
  | w :: ws =>
    if w.link.run = id then
      match w.thread.step queued w.link shared with
      | some (thread, link, shared) => some (⟨link, thread⟩ :: ws, shared)
      | none => none
    else
      match stepFirst queued id shared ws with
      | some (ws, shared) => some (w :: ws, shared)
      | none => none

/-- One step of the thread of a run, if it has one. -/
def advanceRun (s : Session) (id : RunId) : Option Session :=
  match stepFirst s.isQueued id s.surroundings s.workers with
  | some (workers, surroundings) => some { s with workers, surroundings }
  | none => none

/-! ### Starting and collecting -/

/-- Tells the current run that it is replaced, or that its host goes away. -/
def flag (s : Session) : Session := s.onCurrent Link.cancel

/-- Lets go of the current run, which is not heard from again. -/
def forget (s : Session) : Session :=
  let s := s.onCurrent Link.shut
  { s with interpreter := s.interpreter.supersede }

/-- Why there is no thread for the next run, if there is none. -/
def refusal? (s : Session) : Option String :=
  s.platform.refusal? (s.interpreter.generation + 1) s.interpreter.config.stackSize

/-- Makes a new run current, of a script whose clock starts at a moment.  A run that gets no thread is
like one whose thread went away before it did anything. -/
def begin (s : Session) (script : String) (moment : Moment) : Session :=
  let refused := s.refusal?.isSome
  let s := s.decide Interpreter.start
  let id := s.interpreter.generation
  let thread := if refused then .crash else scriptThread s.interpreter.config id script
  { s with workers := ⟨.ofRun id moment, thread⟩ :: s.workers }

/-- Ends the current run on the side of the host, and lets go of the channel. -/
def closing (s : Session) (id : RunId) (f : Interpreter → Interpreter × List Wakeup) :
    Session :=
  let s := s.decide f
  if s.interpreter.current.isNone then s.onLink id Link.shut else s

/-- Ends the current run, which got no thread. -/
def fail (s : Session) (reason : String) : Session :=
  match s.interpreter.current with
  | none => s
  | some run => s.closing run.id (Interpreter.fail reason)

/-- Replaces whatever runs by a script whose clock starts at a moment. -/
def start (s : Session) (script : String) (moment : Moment) : Session :=
  let s := s.flag.forget
  match s.refusal? with
  | none => s.begin script moment
  | some reason => (s.begin script moment).fail reason

/-- Takes in the next thing that the current run sent.  A run with nothing left to take in whose
thread is over has been lost. -/
def receive (s : Session) : Option Session :=
  match s.interpreter.current with
  | none => none
  | some run =>
    match s.worker? run.id with
    | none => none
    | some w =>
      match w.link.events with
      | e :: rest =>
        let s := s.onLink run.id (Link.remaining rest)
        some (s.closing run.id fun i => i.dispatch e)
      | [] => if w.thread.isOver then some (s.closing run.id Interpreter.lose) else none

/-- How much the current run has sent. -/
def unread (s : Session) : Nat :=
  match s.interpreter.current.bind fun run => s.worker? run.id with
  | some w => w.link.events.length
  | none => 0

/-- Takes in at most so many things that the current run sent, as long as a condition holds. -/
def receiveWhile (p : Session → Bool) : Nat → Session → Session
  | 0, s => s
  | n + 1, s =>
    if p s then
      match s.receive with
      | some s => receiveWhile p n s
      | none => s
    else s

/-- Takes in everything that the current run has sent. -/
def collect (s : Session) : Session := s.receiveWhile (fun _ => true) (s.unread + 1)

/-- Takes every message that was taken in. -/
def take (s : Session) : List (RunId × WorkerMessage) × Session :=
  (s.interpreter.outbox, { s with interpreter := { s.interpreter with outbox := [] } })

/-- Takes every message that was not taken before, in order. -/
def poll (s : Session) : List WorkerMessage × Session :=
  let (messages, s) := s.collect.take
  (messages.map (·.2), s)

/-- Takes the diagnostics that are kept, the oldest first. -/
def takeDiagnostics (s : Session) : List Diagnostic × Session :=
  (s.interpreter.diagnostics,
    { s with interpreter := { s.interpreter with diagnostics := [] } })

/-! ### Frames -/

/-- Whether somebody waits for a frame. -/
def isAwaited (s : Session) : Bool := !s.interpreter.scheduler.pending.isEmpty

/-- The clock of the current run records a tick and may be read again; a run that was woken goes on. -/
def release (s : Session) (moment : Moment) (woken : Bool) : Session :=
  let s := s.onCurrent fun l => (l.advance moment).releaseClock
  if woken then { s with interpreter := s.interpreter.resume } else s

/-- Delivers a frame at a moment.  The clock is held while the run is woken, so that the run reads it
only when it has been advanced. -/
def frame (s : Session) (moment : Moment) : Session :=
  let s := s.collect
  if s.interpreter.current.isNone then s
  else
    let s := s.onCurrent Link.holdClock
    (s.decide Interpreter.tick).release moment s.isAwaited

/-! ### Widgets and messages -/

/-- Changes the widgets. -/
def onWidgets (s : Session) (f : Widget.Registry → Widget.Registry) : Session :=
  { s with surroundings := { s.surroundings with widgets := f s.surroundings.widgets } }

/-- The widgets that the newest script did not declare. -/
def orphans (s : Session) : List String := s.surroundings.widgets.orphans s.interpreter.generation

/-- Forgets the widgets that the newest script did not declare. -/
def prune (s : Session) : Session := s.onWidgets fun r => r.prune s.interpreter.generation

/-- Takes in a message of the host. -/
def handle (s : Session) (m : HostMessage) : Session :=
  match m.update? with
  | some (name, value) => s.onWidgets fun r => r.update name value
  | none =>
    match m with
    | .script source => s.start source s.now
    | .frame => s.frame s.now
    | .clearWidgets => s.onWidgets fun _ => .empty
    | _ => s

/-- Lets go of the current run, of which nothing more is taken in. -/
def leave (s : Session) : Session :=
  let s := s.onCurrent Link.shut
  { s with interpreter := s.interpreter.leave }

/-- The host goes away: it tells the current run, lets go of its channel, and rejects whoever waits. -/
def close (s : Session) : Session := s.flag.leave.decide Interpreter.stop

/-- Takes the records in the log. -/
def takeLog (s : Session) : List LogRecord × Session :=
  (s.surroundings.log, { s with surroundings := { s.surroundings with log := [] } })

/-! ### Time -/

/-- Lets time pass. -/
def wait (s : Session) (time : Duration) : Session :=
  { s with surroundings := { s.surroundings with now := s.now + time } }

end Session

end FilterScript

import FilterScript.Failure
import FilterScript.Logger
import FilterScript.Message
import FilterScript.Scheduler
import FilterScript.Widget.Registry

/-
Threads: how the run of a script looks from outside.

A run shares nothing with its host but what it asks for, one request at a time.  Between two requests
the host and the other runs may do anything; a request itself is answered in one step.

Whether a run gets a thread at all is up to the machine, the `Platform`.
-/
namespace FilterScript

/-- What a run asks for. -/
inductive Request where
  /-- Whether the run was replaced. -/
  | isCancelled
  /-- Send a message to the host; answers whether somebody still receives. -/
  | post (message : WorkerMessage)
  /-- Hand in a continuation; answers whether somebody still receives. -/
  | suspend
  /-- Wait for the signal of the continuation that was handed in last.  Answers nothing when nobody
  is left who could send it. -/
  | await
  /-- Mark a widget as declared by this run. -/
  | declare (name : String)
  /-- The value that the host reported for a widget. -/
  | widgetValue (name : String)
  /-- The time since the run started. -/
  | elapsed
  /-- The time between the two most recent ticks. -/
  | delta
  /-- Sleep for a while. -/
  | pause (time : Duration)
  /-- Write to the log. -/
  | log (record : LogRecord)
  /-- Report how the run ended. -/
  | finish (outcome : Outcome)

/-- What a request is answered with. -/
def Request.Reply : Request → Type
  | isCancelled => Bool
  | post _ => Bool
  | suspend => Bool
  | await => Option Resume
  | declare _ => Unit
  | widgetValue _ => Option Widget.Value
  | elapsed => Duration
  | delta => Duration
  | pause _ => Unit
  | log _ => Unit
  | finish _ => Unit

/-- A computation that asks. -/
inductive Thread (α : Type) where
  | done (a : α)
  /-- The thread died without an answer. -/
  | crash
  /-- The thread works on without end and without asking. -/
  | spin
  | ask (r : Request) (k : r.Reply → Thread α)

namespace Thread

variable {α β : Type}

/-- Goes on with what a thread answers. -/
def bind : Thread α → (α → Thread β) → Thread β
  | done a, f => f a
  | crash, _ => crash
  | spin, _ => spin
  | ask r k, f => ask r fun x => (k x).bind f

instance : Monad Thread where
  pure := done
  bind := bind

/-- Asks for one thing. -/
def request (r : Request) : Thread r.Reply := ask r done

end Thread

/-- What a run sends to its host. -/
inductive RunEvent where
  | message (m : WorkerMessage)
  | suspend (c : Continuation)
  | finished (outcome : Outcome)
deriving DecidableEq, Repr

/-- What a run and its host share: the channel with what was sent and not yet received, whether
somebody receives, whether the run was cancelled, its clock and whether the host is setting it, how
often the run handed in a continuation, and the signal that the last of these got. -/
structure Link where
  run : RunId
  events : List RunEvent
  isOpen : Bool
  isCancelled : Bool
  clock : Clock
  isClockHeld : Bool
  waits : Nat
  signal : Option Resume
deriving DecidableEq, Repr

namespace Link

/-- The link of a run whose clock starts at a moment. -/
def ofRun (run : RunId) (start : Moment) : Link where
  run
  events := []
  isOpen := true
  isCancelled := false
  clock := .startingAt start
  isClockHeld := false
  waits := 0
  signal := none

/-- Sends an event, if somebody receives. -/
def send (l : Link) (e : RunEvent) : Link :=
  if l.isOpen then { l with events := l.events ++ [e] } else l

/-- The continuation that was handed in last. -/
def continuation (l : Link) : Continuation := ⟨l.run, l.waits⟩

/-- Hands in a continuation. -/
def suspend (l : Link) : Link :=
  let l := { l with waits := l.waits + 1, signal := none }
  l.send (.suspend l.continuation)

/-- Somebody received, and left these events. -/
def remaining (rest : List RunEvent) (l : Link) : Link := { l with events := rest }

/-- Whether the last continuation is still on its way to the host. -/
def isUnread (l : Link) : Bool := l.isOpen && l.events.contains (.suspend l.continuation)

/-- Delivers a signal.  One for an earlier wait finds nobody. -/
def wake (l : Link) (w : Wakeup) : Link :=
  if w.continuation = l.continuation then { l with signal := some w.resume } else l

/-- Cancels the run. -/
def cancel (l : Link) : Link := { l with isCancelled := true }

/-- Nobody receives any longer. -/
def shut (l : Link) : Link := { l with isOpen := false, events := [] }

/-- The host begins to set the clock; until it is done nobody reads it. -/
def holdClock (l : Link) : Link := { l with isClockHeld := true }

/-- The clock records a tick. -/
def advance (l : Link) (now : Moment) : Link := { l with clock := l.clock.tick now }

/-- The clock may be read again. -/
def releaseClock (l : Link) : Link := { l with isClockHeld := false }

end Link

/-- The machine under the host: why it has no thread for the run of a number with so many bytes of
stack, if it has none. -/
structure Platform where
  refusal? : RunId → Nat → Option String

namespace Platform

/-- How many bytes a process can address. -/
def addressable : Nat := 2 ^ 47

/-- The bytes of the page that guards a stack. -/
def guardPage : Nat := 4096

/-- A usual machine, which only refuses stacks that no process can have: with its guard a stack has to
fit into a word, and then it has to be addressed. -/
def usual : Platform where
  refusal? _ bytes :=
    if 2 ^ 64 ≤ bytes + guardPage then some "Invalid argument (os error 22)"
    else if addressable ≤ bytes then some "Resource temporarily unavailable (os error 11)"
    else none

end Platform

end FilterScript

import FilterScript.Clock

/-
The frame scheduler: how suspended runs wait for the display.

A run that waits for a frame hands in a continuation.  A tick wakes all that are queued, in the
order in which they came.  A continuation of a run that is not the current one is never woken by a
frame: it is rejected when it arrives, or when the run it belongs to is replaced or ends.
-/
namespace FilterScript

/-- Names a run; later runs have larger numbers. -/
abbrev RunId := Nat

/-- How a waiting run is woken. -/
inductive Resume where
  /-- A frame came; go on. -/
  | frame
  /-- The run was replaced; give up. -/
  | cancelled
deriving DecidableEq, Repr

/-- A run that waits for a frame; `waiter` tells the waits apart. -/
structure Continuation where
  run : RunId
  waiter : Nat
deriving DecidableEq, Repr

/-- A signal sent to a waiting run. -/
structure Wakeup where
  continuation : Continuation
  resume : Resume
deriving DecidableEq, Repr

/-- The scheduler: the run that is current, who waits, and how many ticks there were. -/
structure Scheduler where
  running : Option RunId
  pending : List Continuation
  ticks : Nat
deriving DecidableEq, Repr

namespace Scheduler

/-- The scheduler before the first run. -/
def idle : Scheduler := ⟨none, [], 0⟩

/-- The same signal for some who wait. -/
def wake (resume : Resume) (cs : List Continuation) : List Wakeup :=
  cs.map fun c => ⟨c, resume⟩

/-- Makes a run current.  Whoever still waits belongs to an older run and is rejected. -/
def start (s : Scheduler) (run : RunId) : Scheduler × List Wakeup :=
  ({ s with running := some run, pending := [] }, wake .cancelled s.pending)

/-- Ends the current run; whoever still waits is rejected. -/
def stop (s : Scheduler) : Scheduler × List Wakeup :=
  ({ s with running := none, pending := [] }, wake .cancelled s.pending)

/-- Takes in a continuation.  One of any run but the current is rejected on the spot. -/
def suspend (s : Scheduler) (c : Continuation) : Scheduler × List Wakeup :=
  if s.running = some c.run then ({ s with pending := s.pending ++ [c] }, [])
  else (s, wake .cancelled [c])

/-- Delivers a frame: whoever waits is woken, first come first. -/
def tick (s : Scheduler) : Scheduler × List Wakeup :=
  ({ s with pending := [], ticks := s.ticks + 1 }, wake .frame s.pending)

end Scheduler

end FilterScript

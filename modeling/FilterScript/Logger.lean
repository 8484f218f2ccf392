import FilterScript.Number.Power

/-
The log of a script.

A script that loops between frames can produce a lot of output, so each frame has a budget of
messages; it starts anew when the run is resumed.  The first message beyond the budget is answered
by one warning, and the others are dropped in silence.
-/
namespace FilterScript

/-- How urgent a message is. -/
inductive LogLevel where
  | debug
  | info
  | warn
  | error
deriving DecidableEq, Repr

/-- The name of a level. -/
def LogLevel.name : LogLevel → String
  | debug => "debug"
  | info => "info"
  | warn => "warn"
  | error => "error"

/-- A message in the log. -/
structure LogRecord where
  level : LogLevel
  text : String
deriving DecidableEq, Repr

/-- The budget of a frame: how many messages it allows, how many there were, and whether the warning
was given. -/
structure Logger where
  limit : Nat
  count : Nat
  warned : Bool
deriving DecidableEq, Repr

namespace Logger

/-- The budget that is allowed unless something else is said. -/
def defaultLimit : Nat := 100

/-- A fresh budget. -/
def ofLimit (limit : Nat) : Logger := ⟨limit, 0, false⟩

/-- Starts the budget of the next frame. -/
def resetFrame (l : Logger) : Logger := ofLimit l.limit

/-- The largest count that is kept. -/
def largestCount : Nat := 2 ^ 32 - 1

/-- The warning that the budget is spent. -/
def overrun (l : Logger) : LogRecord :=
  ⟨.warn, "Script log limit exceeded (" ++ toString l.limit
    ++ " messages/frame). Further logs dropped."⟩

/-- Counts one message, and answers whether it is within the budget. -/
def accept (l : Logger) : Bool × Logger :=
  (l.count < l.limit, { l with count := min (l.count + 1) largestCount })

/-- Logs a message if the budget allows.  Answers whether it does, and what goes to the log. -/
def log (l : Logger) (level : LogLevel) (text : String) : Bool × List LogRecord × Logger :=
  let (accepted, l') := l.accept
  if accepted then (true, [⟨level, text⟩], l')
  else if l.warned then (false, [], l')
  else (false, [l.overrun], { l' with warned := true })

end Logger

end FilterScript

import FilterScript.Number.Single

/-
The clock of a run.

Times are nanoseconds from an origin that nobody looks at; only their differences count, and a
difference that would be negative is zero.
-/
namespace FilterScript

/-- A moment, in nanoseconds. -/
abbrev Moment := Int

/-- A length of time, in nanoseconds. -/
abbrev Duration := Nat

namespace Duration

/-- How many nanoseconds a second has. -/
def perSecond : Nat := 10 ^ 9

/-- How many nanoseconds a millisecond has. -/
def perMilli : Nat := 10 ^ 6

/-- A length of time in milliseconds: the whole seconds and the rest are rounded on their own. -/
def millis (d : Duration) : Single :=
  (Single.ofNat (d / perSecond)
    + Single.ofNat (d % perSecond) / Single.ofNat perSecond) * Single.ofNat 1000

/-- A length of time in a unit of `k` digits of nanoseconds, with no zeros behind the point. -/
private def inUnit (d : Duration) (k : Nat) (unit : String) : String :=
  let fraction := ((Nat.toDigits 10 (10 ^ k + d % 10 ^ k)).drop 1).reverse.dropWhile (· = '0')
  let point := if fraction.isEmpty then [] else '.' :: fraction.reverse
  toString (d / 10 ^ k) ++ String.ofList point ++ unit

/-- A length of time in the largest unit of which it has at least one. -/
def text (d : Duration) : String :=
  if 10 ^ 9 ≤ d then inUnit d 9 "s"
  else if 10 ^ 6 ≤ d then inUnit d 6 "ms"
  else if 10 ^ 3 ≤ d then inUnit d 3 "µs"
  else inUnit d 0 "ns"

end Duration

/-- The time from one moment to a later one, zero if it is earlier. -/
def Moment.since (now earlier : Moment) : Duration := (now - earlier).toNat

/-- The clock of a run. -/
structure Clock where
  start : Moment
  lastFrame : Option Moment
  /-- The time between the two most recent ticks. -/
  delta : Duration
deriving DecidableEq, Repr

namespace Clock

/-- A clock that starts at a moment. -/
def startingAt (start : Moment) : Clock := ⟨start, none, 0⟩

/-- Records a tick. -/
def tick (c : Clock) (now : Moment) : Clock :=
  { c with
    lastFrame := some now
    delta := match c.lastFrame with
      | some last => Moment.since now last
      | none => c.delta }

/-- The time since the clock started. -/
def elapsed (c : Clock) (now : Moment) : Duration := Moment.since now c.start

end Clock

end FilterScript

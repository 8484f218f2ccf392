/-
What a script does when nobody disturbs it.

A run that is not replaced, and whose widgets keep their values, gets one reply to each
of its requests, but for the time.  So what it posts from its start to its first
suspension, from there to the second, and so on, is fixed by the script alone, unless
the script makes it depend on the time that it reads.

`Stretch` is one such part, `Behaviour` the whole of it, and `Describes` ties it to a
thread.  For a thread that reads no time the behaviour can be computed: `outline` does.
-/
import FilterScript.Headless
import FilterScript.Proofs.Interpreter.Ledger

namespace FilterScript

/-- How a part of a script ends. -/
inductive Halt where
  /-- The script waits for a frame, and goes on with `k`. -/
  | parked (k : Option Resume → Thread Unit)
  | ended (outcome : Outcome)

/-- What a thread posts until it waits for a frame or has ended, and how that part ends,
if nobody disturbs it and the widgets have the values `value?`.  It may read the time
where that makes no difference. -/
inductive Stretch (value? : String → Option Widget.Value) :
    Thread Unit → List WorkerMessage → Halt → Prop where
  | look {k : Bool → Thread Unit} {ms : List WorkerMessage} {halt : Halt}
      (h : Stretch value? (k false) ms halt) : Stretch value? (.ask .isCancelled k) ms halt
  | post {k : Bool → Thread Unit} {ms : List WorkerMessage} {halt : Halt} (m : WorkerMessage)
      (h : Stretch value? (k true) ms halt) : Stretch value? (.ask (.post m) k) (m :: ms) halt
  | declare {k : Unit → Thread Unit} {ms : List WorkerMessage} {halt : Halt} (name : String)
      (h : Stretch value? (k ()) ms halt) : Stretch value? (.ask (.declare name) k) ms halt
  | widgetValue {k : Option Widget.Value → Thread Unit} {ms : List WorkerMessage} {halt : Halt}
      (name : String) (h : Stretch value? (k (value? name)) ms halt) :
      Stretch value? (.ask (.widgetValue name) k) ms halt
  | elapsed {k : Duration → Thread Unit} {ms : List WorkerMessage} {halt : Halt}
      (h : ∀ time, Stretch value? (k time) ms halt) : Stretch value? (.ask .elapsed k) ms halt
  | delta {k : Duration → Thread Unit} {ms : List WorkerMessage} {halt : Halt}
      (h : ∀ time, Stretch value? (k time) ms halt) : Stretch value? (.ask .delta k) ms halt
  | pause {k : Unit → Thread Unit} {ms : List WorkerMessage} {halt : Halt} (time : Duration)
      (h : Stretch value? (k ()) ms halt) : Stretch value? (.ask (.pause time) k) ms halt
  | log {k : Unit → Thread Unit} {ms : List WorkerMessage} {halt : Halt} (record : LogRecord)
      (h : Stretch value? (k ()) ms halt) : Stretch value? (.ask (.log record) k) ms halt
  | suspend {k : Bool → Thread Unit} {j : Option Resume → Thread Unit}
      (h : k true = .ask .await j) : Stretch value? (.ask .suspend k) [] (.parked j)
  | finish {k : Unit → Thread Unit} (o : Outcome) :
      Stretch value? (.ask (.finish o) k) [] (.ended o)
  /-- The thread goes away without a report. -/
  | crash : Stretch value? .crash [] (.ended Session.lostOutcome)

/-- What a script posts before its first suspension and between two of them, and after
how many suspensions it ends in what way, if it ends. -/
structure Behaviour where
  segment : Nat → List WorkerMessage
  ending : Option (Nat × Outcome)

namespace Behaviour

variable {b : Behaviour} {value? : String → Option Widget.Value} {start : Nat → Thread Unit}
  {n : Nat}

/-- Everything that is posted up to the end of a segment. -/
def posts (b : Behaviour) : Nat → List WorkerMessage
  | 0 => b.segment 0
  | n + 1 => b.posts n ++ b.segment (n + 1)

/-- Whether the script comes to a segment. -/
def Reaches (b : Behaviour) (i : Nat) : Prop := ∀ n o, b.ending = some (n, o) → i ≤ n

/-- How a segment ends, where `start` is the thread at the start of each. -/
def Halts (b : Behaviour) (start : Nat → Thread Unit) (i : Nat) : Halt → Prop
  | .parked k => start (i + 1) = k (some .frame) ∧ b.Reaches (i + 1)
  | .ended o => b.ending = some (i, o)

/-- Whether the threads at the start of all segments behave like this. -/
def Follows (b : Behaviour) (value? : String → Option Widget.Value) (start : Nat → Thread Unit) :
    Prop :=
  ∀ i, b.Reaches i → ∃ halt, Stretch value? (start i) (b.segment i) halt ∧ b.Halts start i halt

theorem countP_isDone {ms : List WorkerMessage} (h : ∀ m ∈ ms, m.isFinal = false) :
    ms.countP (·.isDone) = 0 := by
  rw [List.countP_eq_zero]
  intro m hm hdone
  have hfinal : m.isFinal = true := by
    rw [of_decide_eq_true hdone]
    rfl
  rw [h m hm] at hfinal
  cases hfinal

end Behaviour

/-! ### Computing a behaviour

A script that ends and reads no time can be run without a host: each request has one
reply.
-/

namespace Thread

variable {value? : String → Option Widget.Value} {n m : Nat} {t : Thread Unit}
  {ms : List WorkerMessage} {halt : Halt}

end Thread

namespace Behaviour

variable {value? : String → Option Widget.Value} {n m : Nat} {t : Thread Unit}
  {segments : List (List WorkerMessage)} {o : Outcome}

end Behaviour

end FilterScript

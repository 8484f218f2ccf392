import FilterScript.Script.Evaluator.Rules
import FilterScript.Script.Simplify

/-
Running a script.

`evaluator n` ties the rules together so that they may refer to one another `n` deep; each round of a
loop goes one deeper.  A script that needs more works on without end, as far as anyone can see.
-/
namespace FilterScript.Script

namespace Evaluator

open Eval

/-- Works on without end. -/
def endless {α : Type} : Eval α := ExceptT.lift (StateT.lift Thread.spin)

/-- The rules, which may refer to one another `n` deep. -/
def ofDepth : Nat → Evaluator
  | 0 => ⟨fun _ => endless, fun _ => endless, fun _ => endless⟩
  | n + 1 =>
    { expr := fun e => do
        tick e.position
        exprRule (ofDepth n) e
      stmt := fun s => stmtRule (ofDepth n) s
      loop := fun s => loopRule (ofDepth n) s }

/-- The depth of a run.  No host waits for so many rounds of a loop. -/
def runDepth : Nat := 10 ^ 15

end Evaluator

/-- How a script ended. -/
inductive Ending where
  | completed
  | failed (e : Error)

/-- Runs a script on a fresh machine. -/
def Program.run (p : Program) (limits : Limits) (c : Context) : Thread (Ending × Context) := do
  let machine : Machine := ⟨limits, c, [], none, [], p.functions, 0, 0⟩
  let (r, m) ← (((Evaluator.ofDepth Evaluator.runDepth).stmts p.body).run).run machine
  match r with
  | .error (.error e) => return (.failed e, m.context)
  | _ => return (.completed, m.context)

end FilterScript.Script

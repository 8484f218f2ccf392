import FilterScript.Config
import FilterScript.Script.Evaluator

/-
What becomes of a script.

A script that cannot be read fails before anything was run.  A script that runs ends in one of three
ways: it completes, it gives up because its run was replaced, or it fails, and then the host gets a
failure and a diagnostic with the same text.
-/
namespace FilterScript

/-- The limits of a configuration, as the language knows them. -/
def Config.limits (c : Config) : Script.Limits where
  depth := c.maxExprDepth.toNat
  calls := c.maxCallLevels.toNat
  bytes := c.maxStringSize.toNat
  items := c.maxArraySize.toNat
  members := c.maxMapSize.toNat
  operations := c.maxOperations.toNat

namespace Script

/-- The place that a diagnostic gives. -/
def Position.location? (p : Position) : Option Location :=
  if p.isNone then Option.none else some ⟨p.line, max 1 p.column⟩

/-- The diagnostic of a failure. -/
private def diagnosticOf (f : Failure) (phase : Phase) (pos : Position) (raw : String) :
    Diagnostic :=
  ⟨f.kind, phase, f.message, pos.location?, some raw⟩

/-- The failure of a script that cannot be read. -/
def ParseError.failure (e : ParseError) : Failure := .compile e.text

/-- The diagnostic of a script that cannot be read. -/
def ParseError.diagnostic (e : ParseError) : Diagnostic :=
  diagnosticOf e.failure .compile e.position e.text

/-- The failure of a script that ended in an error.  A string that was thrown speaks for itself. -/
def Error.failure (e : Error) : Failure :=
  match e.fault with
  | .thrown (.refusal text) => .invalidArgument text
  | .thrown (.string text) => .runtime text
  | _ => .runtime e.text

/-- The diagnostic of a script that ended in an error. -/
def Error.diagnostic (e : Error) : Diagnostic := diagnosticOf e.failure .run e.position e.text

/-- How a run ended that ended in an error: `replaced` says whether it was replaced. -/
def Error.outcome (e : Error) (replaced : Bool) : Outcome :=
  match e.fault with
  | .terminated => .cancelled
  | _ => if replaced then .cancelled else .failed e.failure e.diagnostic

/-- Reads a script without running it, and answers what is wrong with it. -/
def check (config : Config) (script : String) : List Diagnostic :=
  match parse config.limits script with
  | .ok _ => []
  | .error e => [e.diagnostic]

/-- Runs a script in a fresh context.  Answers how the run ended, and its context afterwards. -/
def run (config : Config) (id : RunId) (script : String) : Thread (Outcome × Context) := do
  let c := Context.fresh id config.logLimitPerFrame.toNat
  match parse config.limits script with
  | .error e => return (.failed e.failure e.diagnostic, c)
  | .ok p =>
    let (ending, c) ← p.simplify.run config.limits c
    match ending with
    | .completed => return (.completed, c)
    | .failed e => return (e.outcome (← Thread.request .isCancelled), c)

end Script

end FilterScript

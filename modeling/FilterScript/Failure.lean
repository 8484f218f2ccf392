import FilterScript.Json.Printer

/-
How a script can fail, and what is reported of it.

A failure is told to the host as a plain text; beside it a diagnostic is kept, with the kind of the
failure and the place in the script, for editors that underline the line.
-/
namespace FilterScript

/-- A place in a script: line and column, both counted from one. -/
structure Location where
  line : Nat
  column : Nat
deriving DecidableEq, Repr

/-- Why a script failed. -/
inductive Failure where
  /-- The text is no script.  Nothing was run. -/
  | compile (text : String)
  /-- A primitive refused one of its arguments. -/
  | invalidArgument (text : String)
  /-- Anything else. -/
  | runtime (text : String)
deriving DecidableEq, Repr

/-- The text that the host receives. -/
def Failure.message : Failure → String
  | .compile text => "compile error: " ++ text
  | .invalidArgument text => "invalid argument: " ++ text
  | .runtime text => text

/-- Whether a failure showed before or during the run. -/
inductive Phase where
  | compile
  | run
deriving DecidableEq, Repr

/-- The kind of a failure. -/
inductive FailureKind where
  | parseError
  | invalidArgument
  | runtimeError
deriving DecidableEq, Repr

/-- The kind of a failure. -/
def Failure.kind : Failure → FailureKind
  | .compile _ => .parseError
  | .invalidArgument _ => .invalidArgument
  | .runtime _ => .runtimeError

/-- What is kept of a failure. -/
structure Diagnostic where
  kind : FailureKind
  phase : Phase
  message : String
  location : Option Location
  /-- The text of the failure as the language gives it. -/
  raw : Option String
deriving DecidableEq, Repr

/-- How a run ended. -/
inductive Outcome where
  | completed
  | failed (failure : Failure) (diagnostic : Diagnostic)
  /-- The run was replaced and gave up. -/
  | cancelled
deriving DecidableEq, Repr

namespace Diagnostic

/-- A failure of the machinery around a script. -/
def internal (message : String) : Diagnostic := ⟨.runtimeError, .run, message, none, none⟩

private def kindName : FailureKind → String
  | .parseError => "parse_error"
  | .invalidArgument => "invalid_argument"
  | .runtimeError => "runtime_error"

private def phaseName : Phase → String
  | .compile => "compile"
  | .run => "run"

private def locationJson (l : Location) : Json :=
  .record [("line", .nat l.line), ("column", .nat l.column)]

/-- A diagnostic as an editor receives it. -/
def toJson (d : Diagnostic) : Json :=
  .record [("kind", .string (kindName d.kind)), ("phase", .string (phaseName d.phase)),
    ("message", .string d.message), ("location", Json.optional locationJson d.location),
    ("raw", Json.optional Json.string d.raw)]

end Diagnostic

end FilterScript

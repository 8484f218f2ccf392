import FilterScript.Interpreter.Settle
import FilterScript.Job.Basic

/-
Running a script without a display.

The host starts the script, and then takes turns: it lets the run settle, and delivers a frame.  This
ends when the script has ended or the frames are spent.
-/
namespace FilterScript

/-- What a host without a display grants a run. -/
structure Allowance where
  /-- How many frames are delivered at most. -/
  frames : Nat
  /-- The pause in front of each frame. -/
  interval : Duration
  /-- How long the run may go on without yielding. -/
  settleTimeout : Duration
deriving DecidableEq, Repr

/-- What a job grants its run. -/
def Job.allowance (job : Job) : Allowance :=
  ⟨job.frames.toNat, job.intervalMs.toNat * Duration.perMilli,
    job.settleTimeoutMs.toNat * Duration.perMilli⟩

/-- A run that neither yielded nor ended in time. -/
structure Stall where
  frames : Nat
  timeout : Duration
deriving DecidableEq, Repr

/-- What is said of a run that stalled. -/
def Stall.message (s : Stall) : String :=
  "script neither yielded nor finished within " ++ Duration.text s.timeout ++ " (after "
    ++ toString s.frames ++ " frames)"

namespace Session

/-- Lets the current run settle and delivers frames, of which `left` are left after `delivered`;
`said` holds the messages so far, the newest first. -/
def turns (a : Allowance) : Nat → Nat → List WorkerMessage → Session →
    Except Stall Transcript × Session
  | left, delivered, said, s =>
    match s.settle a.settleTimeout with
    | (false, s) => (.error ⟨delivered, a.settleTimeout⟩, s)
    | (true, s) =>
      let (messages, s) := s.poll
      let said := messages.reverse ++ said
      let ended : Bool := s.interpreter.state = .idle
      match ended, left with
      | false, left + 1 =>
        let s := s.wait a.interval
        turns a left (delivered + 1) said (s.frame s.now)
      | _, _ =>
        let (diagnostics, s) := s.takeDiagnostics
        (.ok ⟨said.reverse, delivered, ended, diagnostics⟩, s)

/-- Runs a script to its end, or until its frames are spent. -/
def runHeadless (s : Session) (script : String) (a : Allowance) :
    Except Stall Transcript × Session :=
  turns a a.frames 0 [] (s.start script s.now)

end Session

end FilterScript

import FilterScript.Message
import FilterScript.Failure

/-
Transcripts: what a script said from its start to its end or to the last frame that it was given.
-/
namespace FilterScript

/-- What a headless run produced. -/
structure Transcript where
  messages : List WorkerMessage
  /-- How many frames were delivered. -/
  frames : Nat
  /-- Whether the script ended within its frames. -/
  finished : Bool
  diagnostics : List Diagnostic
deriving DecidableEq, Repr

/-- How a run ended, as it is recorded. -/
inductive RunStatus where
  | finished
  | failed
  /-- The frames ran out first. -/
  | truncated
deriving DecidableEq, Repr

namespace RunStatus

/-- The name of a status. -/
def name : RunStatus → String
  | finished => "finished"
  | failed => "failed"
  | truncated => "truncated"

/-- The status of a name. -/
def ofName? : String → Option RunStatus
  | "finished" => some finished
  | "failed" => some failed
  | "truncated" => some truncated
  | _ => none

end RunStatus

namespace Transcript

/-- The filters that were shown. -/
def snapshots (t : Transcript) : List Filter := t.messages.filterMap (·.filter?)

/-- The texts of the errors. -/
def errors (t : Transcript) : List String := t.messages.filterMap (·.errorText?)

/-- How often an end was announced. -/
def doneCount (t : Transcript) : Nat := t.messages.countP (·.isDone)

/-- One message a line. -/
def lines (t : Transcript) : String :=
  String.join (t.messages.map fun m => m.toJson.render ++ "\n")

/-- The digest of the lines. -/
def hash (t : Transcript) : String := Digest.ofString t.lines

/-- How the run ended: an error outweighs the end. -/
def status (t : Transcript) : RunStatus :=
  if !t.errors.isEmpty then .failed else if t.finished then .finished else .truncated

/-- A transcript on the wire, without its diagnostics. -/
def toJson (t : Transcript) : Json :=
  .record [("messages", .list (t.messages.map (·.toJson))), ("frames", .nat t.frames),
    ("finished", .bool t.finished)]

/-- Reads a transcript from the wire. -/
def ofJson (j : Json) : Json.Decoded Transcript := do
  let messages := Json.asList WorkerMessage.ofJson
  let count := Json.asNat Json.largest64
  let m ← Json.asRecord .text [("messages", Json.checking messages),
    ("frames", Json.checking count), ("finished", Json.checking Json.asBool)] j
  return ⟨← m.get "messages" messages, ← m.get "frames" count, ← m.get "finished" Json.asBool, []⟩

end Transcript

end FilterScript

import FilterScript.Config
import FilterScript.Job.Path
import FilterScript.Timestamp
import FilterScript.Transcript

/-
Jobs: what is to be run, and the record that is kept of it.

The record is written beside the transcript, so that a run can be compared with a later one.
-/
namespace FilterScript

/-- What is to be run. -/
structure Job where
  scriptPath : String
  /-- How many frames the script is given at most. -/
  frames : UInt64
  /-- The pause in front of each frame, in milliseconds. -/
  intervalMs : UInt64
  /-- How long the script may run without yielding, in milliseconds. -/
  settleTimeoutMs : UInt64
  /-- Where the transcript goes; nowhere means standard output. -/
  outputPath : Option String
  engine : Config
deriving DecidableEq, Repr

/-- Why a job is refused. -/
inductive Job.Fault where
  | scriptMissing (path : String)
  | noSettleTimeout
  | config (fault : Config.Fault)
deriving DecidableEq, Repr

namespace Job

/-- What is said of a job that is refused. -/
def Fault.message : Fault → String
  | scriptMissing path => "Script file not found: " ++ Path.quoted path
  | noSettleTimeout => "Settle timeout must be positive"
  | config fault => fault.message

/-- The frames of a job that does not say how many. -/
def standardFrames : UInt64 := 60

/-- The settle timeout of a job that gives none. -/
def standardSettleTimeoutMs : UInt64 := 10000

/-- The job that runs a script under standard conditions. -/
def ofScript (scriptPath : String) : Job where
  scriptPath
  frames := standardFrames
  intervalMs := 0
  settleTimeoutMs := standardSettleTimeoutMs
  outputPath := none
  engine := .standard

/-- Refuses a job that cannot be run; `present` says which paths there are. -/
def validate (present : String → Bool) (job : Job) : Except Fault Unit :=
  if !present job.scriptPath then .error (.scriptMissing job.scriptPath)
  else if job.settleTimeoutMs = 0 then .error .noSettleTimeout
  else job.engine.validate.mapError .config

/-- The extension of the record of a run. -/
def recordExtension : String := "meta.json"

/-- The path of the record where the transcript goes to standard output. -/
def standardRecordPath : String := "degenerate.meta.json"

/-- The path of the record: beside the transcript, if that has a path. -/
def recordPath (job : Job) : String :=
  match job.outputPath with
  | some path => Path.withExtension path recordExtension
  | none => standardRecordPath

/-- A job on the wire. -/
def toJson (job : Job) : Json :=
  .record [("scriptPath", .string job.scriptPath), ("frames", .nat job.frames.toNat),
    ("intervalMs", .nat job.intervalMs.toNat),
    ("settleTimeoutMs", .nat job.settleTimeoutMs.toNat),
    ("outputPath", Json.optional Json.string job.outputPath), ("engine", job.engine.toJson)]

/-- The path of a file, or `null`. -/
def asPath? : Json → Json.Decoded (Option String) := Json.asOption Json.asString

/-- The fields of a job on the wire. -/
def fields : Json.Fields :=
  [("scriptPath", Json.checking Json.asString), ("frames", Json.checking Json.asWord64),
    ("intervalMs", Json.checking Json.asWord64), ("settleTimeoutMs", Json.checking Json.asWord64),
    ("outputPath", Json.checking asPath?), ("engine", Json.checking Config.ofJson)]

/-- Reads a job from the wire.  All but the script may be left out. -/
def ofJson (j : Json) : Json.Decoded Job := do
  let m ← Json.asRecord .text fields j
  return {
    scriptPath := ← m.get "scriptPath" Json.asString
    frames := ← m.getD "frames" Json.asWord64 standardFrames
    intervalMs := ← m.getD "intervalMs" Json.asWord64 0
    settleTimeoutMs := ← m.getD "settleTimeoutMs" Json.asWord64 standardSettleTimeoutMs
    outputPath := ← m.getD "outputPath" asPath? none
    engine := ← m.getD "engine" Config.ofJson .standard }

/-- What a job looks like on the wire. -/
def form : Json.Form :=
  let word : Json.Form := .natural "u64" Json.largest64
  let path : Json.Form := .text "path string"
  .record "RunSpec" [("scriptPath", true, path), ("frames", false, word),
    ("intervalMs", false, word), ("settleTimeoutMs", false, word),
    ("outputPath", false, .optional path), ("engine", false, Config.form)]

end Job

end FilterScript

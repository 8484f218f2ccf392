import FilterScript.Job.Basic

/-
The record of a run.
-/
namespace FilterScript

/-- What is kept of a run, beside its transcript. -/
structure RunRecord where
  job : Job
  startedAt : Timestamp
  completedAt : Timestamp
  frames : UInt64
  snapshotCount : UInt64
  status : RunStatus
  /-- The digest of the script. -/
  scriptHash : String
  /-- The digest of the transcript. -/
  transcriptHash : String
  version : String
  errors : List String
deriving DecidableEq, Repr

namespace RunRecord

/-- The version that records are marked with. -/
def currentVersion : String := "0.1.0"

/-- The record of a run of `script` that gave `transcript`. -/
def ofTranscript (job : Job) (startedAt completedAt : Timestamp) (script : String)
    (transcript : Transcript) : RunRecord where
  job
  startedAt
  completedAt
  frames := UInt64.ofNat transcript.frames
  snapshotCount := UInt64.ofNat transcript.snapshots.length
  status := transcript.status
  scriptHash := Digest.ofString script
  transcriptHash := transcript.hash
  version := currentVersion
  errors := transcript.errors

/-- A record on the wire.  Errors are left out where there are none. -/
def toJson (r : RunRecord) : Json :=
  .record ([("spec", r.job.toJson), ("startedAt", r.startedAt.toJson),
    ("completedAt", r.completedAt.toJson), ("frames", .nat r.frames.toNat),
    ("snapshotCount", .nat r.snapshotCount.toNat), ("status", .string r.status.name),
    ("scriptHash", .string r.scriptHash), ("transcriptHash", .string r.transcriptHash),
    ("version", .string r.version)] ++
    if r.errors.isEmpty then [] else [("errors", .list (r.errors.map Json.string))])

/-- The status of a run, by its name. -/
def asStatus : Json → Json.Decoded RunStatus := Json.asName .text RunStatus.ofName?

/-- The texts of errors. -/
def asErrors : Json → Json.Decoded (List String) := Json.asList Json.asString

/-- The fields of a record on the wire. -/
def fields : Json.Fields :=
  [("spec", Json.checking Job.ofJson), ("startedAt", Json.checking Timestamp.ofJson),
    ("completedAt", Json.checking Timestamp.ofJson), ("frames", Json.checking Json.asWord64),
    ("snapshotCount", Json.checking Json.asWord64), ("status", Json.checking asStatus),
    ("scriptHash", Json.checking Json.asString), ("transcriptHash", Json.checking Json.asString),
    ("version", Json.checking Json.asString), ("errors", Json.checking asErrors)]

/-- Reads a record from the wire. -/
def ofJson (j : Json) : Json.Decoded RunRecord := do
  let m ← Json.asRecord .text fields j
  return {
    job := ← m.get "spec" Job.ofJson
    startedAt := ← m.get "startedAt" Timestamp.ofJson
    completedAt := ← m.get "completedAt" Timestamp.ofJson
    frames := ← m.get "frames" Json.asWord64
    snapshotCount := ← m.get "snapshotCount" Json.asWord64
    status := ← m.get "status" asStatus
    scriptHash := ← m.get "scriptHash" Json.asString
    transcriptHash := ← m.get "transcriptHash" Json.asString
    version := ← m.get "version" Json.asString
    errors := ← m.getD "errors" asErrors [] }

end RunRecord

end FilterScript

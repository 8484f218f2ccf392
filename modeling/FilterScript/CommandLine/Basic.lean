import FilterScript.CommandLine.Arguments
import FilterScript.CommandLine.Shell
import FilterScript.Headless
import FilterScript.Job.Record

/-
The commands.

A command either ends well or with a text that is printed as an error.  A failing script is such an
error too, but only after its transcript and its record have been written.
-/
namespace FilterScript

namespace CommandLine

/-- A computation of a command, which may end in an error. -/
abbrev Task := ExceptT String Shell

/-- Sends one errand. -/
def send (r : Errand) : Task r.Reply := ExceptT.lift (Shell.send r)

/-- What was answered, or an error. -/
def orFail {ε α : Type} (message : ε → String) : Except ε α → Task α
  | .ok a => return a
  | .error e => throw (message e)

/-- Reads a value of a form from a text. -/
private def parsed {α : Type} (decode : Json → Json.Decoded α) (form : Json.Form)
    (what text : String) : Task α :=
  match Json.decode decode text with
  | .ok a => return a
  | .error _ => throw (what ++ ": " ++ (form.complaint? text).getD "")

/-- The configuration in a file, or the standard one. -/
def loadConfig : Option String → Task Config
  | none => return .standard
  | some path => do
    let text ← orFail (fun (f : FileFault) => "failed to read config " ++ path ++ ": " ++ f.message)
      (← send (.read path))
    let config ← parsed Config.ofJson Config.form ("failed to parse config " ++ path) text
    orFail Config.Fault.message config.validate
    return config

/-- The job in a file. -/
def loadJob (path : String) : Task Job := do
  let text ← orFail
    (fun (f : FileFault) => "Failed to read run spec " ++ Path.quoted path ++ ": " ++ f.message)
    (← send (.read path))
  parsed Job.ofJson Job.form ("Failed to parse run spec " ++ Path.quoted path) text

/-- The script in a file. -/
def readScript (path : String) : Task String := do
  orFail (fun (_ : FileFault) => "failed to read script " ++ Path.quoted path) (← send (.read path))

/-- Runs a job: writes the transcript first, and the record behind it. -/
def runJob (job : Job) (platform : Platform) : Task Unit := do
  let present ← send (.look job.scriptPath)
  orFail Job.Fault.message (job.validate fun _ => present)
  let script ← readScript job.scriptPath
  let startedAt ← send .time
  let (result, _) := (Session.ofConfig job.engine platform).runHeadless script job.allowance
  let transcript ← orFail Stall.message result
  match job.outputPath with
  | some path =>
    orFail (fun (_ : FileFault) => "failed to write " ++ Path.quoted path)
      (← send (.write path transcript.lines))
  | none => send (.print transcript.lines)
  let record := RunRecord.ofTranscript job startedAt (← send .time) script transcript
  orFail (fun (f : FileFault) => "Failed to write metadata: " ++ f.message)
    (← send (.write job.recordPath record.toJson.renderIndented))
  if record.status = .failed then
    throw ("script failed: " ++ String.intercalate "; " record.errors)

/-- Reads a script without running it, and prints what is wrong with it. -/
def checkScript (path : String) (config : Option String) : Task Unit := do
  let config ← loadConfig config
  let script ← readScript path
  let diagnostics := Script.check config script
  send (.print ((Json.list (diagnostics.map Diagnostic.toJson)).renderIndented ++ "\n"))
  if !diagnostics.isEmpty then throw (toString diagnostics.length ++ " compile error(s)")

/-- The name of the program. -/
def programName : String := "degenerate"

/-- How the program is used. -/
def usage : String :=
  "Usage: " ++ programName ++ " run <SCRIPT> [--frames <N>] [--interval-ms <N>] [--out <FILE>] "
    ++ "[--config <FILE>]\n"
    ++ "       " ++ programName ++ " job <SPEC>\n"
    ++ "       " ++ programName ++ " check <SCRIPT> [--config <FILE>]\n"

/-- Does what a command line asks for. -/
def perform (platform : Platform) : Invocation → Task Unit
  | .run script frames intervalMs out config => do
    let engine ← loadConfig config
    runJob { Job.ofScript script with frames, intervalMs, outputPath := out, engine } platform
  | .job path => do runJob (← loadJob path) platform
  | .check script config => checkScript script config
  | .help => send (.print usage)
  | .version => send (.print (programName ++ " " ++ RunRecord.currentVersion ++ "\n"))

/-- How the program ends: its code, and what it says of its errors. -/
structure Exit where
  code : Nat
  errors : String
deriving DecidableEq, Repr

/-- The code of a command line that is misused. -/
def misuseCode : Nat := 2

/-- Runs the program. -/
def run (arguments : List String) (platform : Platform := .usual) : Shell Exit :=
  match Invocation.ofArguments? arguments with
  | none => return ⟨misuseCode, usage⟩
  | some invocation => do
    match ← (perform platform invocation).run with
    | .ok () => return ⟨0, ""⟩
    | .error text => return ⟨1, "Error: " ++ text ++ "\n"⟩

end CommandLine

end FilterScript

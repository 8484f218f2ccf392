import FilterScript.CommandLine.Basic
import Std.Time.DateTime.Timestamp

/-
The program.  It answers the errands of a command with the files, the output and the clock of the
machine.
-/
namespace FilterScript

private def faultOf : IO.Error → FileFault
  | .noFileOrDirectory .. => .missing
  | .inappropriateType .. => .notDirectory
  | e => .other (toString e)

private def guarded {α : Type} (act : IO α) : IO (Except FileFault α) := do
  try
    return .ok (← act)
  catch e =>
    return .error (faultOf e)

private def clockTime : IO Timestamp := do
  let n := (← Std.Time.Timestamp.now).toNanosecondsSinceUnixEpoch.toInt
  return ⟨n / 10 ^ 9, (n % 10 ^ 9).toNat⟩

/-- Runs a computation on the machine. -/
def Shell.execute {α : Type} : Shell α → IO α
  | .done a => return a
  | .ask r k =>
    match r, k with
    | .look path, k => do
      let found ← guarded (IO.FS.realPath path)
      (k found.toBool).execute
    | .read path, k => do (k (← guarded (IO.FS.readFile path))).execute
    | .write path text, k => do (k (← guarded (IO.FS.writeFile path text))).execute
    | .print text, k => do
      (← IO.getStdout).putStr text
      (k ()).execute
    | .time, k => do (k (← clockTime)).execute

end FilterScript

open FilterScript in
/-- Runs the program on its arguments. -/
def main (arguments : List String) : IO UInt32 := do
  let exit ← (CommandLine.run arguments).execute
  (← IO.getStderr).putStr exit.errors
  return UInt32.ofNat exit.code

import FilterScript.Job.Basic

/-
The arguments of the command line.

An option stands anywhere behind the name of its command, with its value behind it or behind an
equality sign, and at most once.  A word that starts with a dash is an option, except a dash alone;
behind two dashes nothing is.
-/
namespace FilterScript

/-- What a command line asks for. -/
inductive Invocation where
  /-- Run a script and record everything that it says. -/
  | run (script : String) (frames intervalMs : UInt64) (out config : Option String)
  /-- Run a job. -/
  | job (path : String)
  /-- Read a script without running it. -/
  | check (script : String) (config : Option String)
  | help
  | version
deriving DecidableEq, Repr

namespace Invocation

/-- What the words behind a command come to: options with their values, and other words. -/
structure Words where
  options : List (String × String)
  others : List String

/-- How the words behind a command are read. -/
inductive Reading where
  | words (w : Words)
  | help
  | misuse

private def startsWith (mark : String) (word : String) : Bool :=
  mark.toList.isPrefixOf word.toList

private def isFlag (word : String) : Bool := startsWith "-" word && word ≠ "-"

private def cut (word : String) : String × Option String :=
  match word.toList.span (· ≠ '=') with
  | (name, []) => (String.ofList name, none)
  | (name, _ :: value) => (String.ofList name, some (String.ofList value))

/-- Reads the words behind a command that has some options. -/
def read (names : List String) : List String → Words → Reading
  | [], w => .words w
  | word :: rest, w =>
    if word = "--" then .words { w with others := w.others ++ rest }
    else if startsWith "--" word then
      match cut word with
      | (name, value) =>
        if name = "--help" ∧ value = none then .help
        else if !names.contains name ∨ (w.options.lookup name).isSome then .misuse
        else
          match value, rest with
          | some v, rest => read names rest { w with options := (name, v) :: w.options }
          | none, v :: rest =>
            if isFlag v then .misuse
            else read names rest { w with options := (name, v) :: w.options }
          | none, [] => .misuse
    else if startsWith "-h" word then .help
    else if isFlag word then .misuse
    else read names rest { w with others := w.others ++ [word] }

private def path? (word : String) : Option String := if word.isEmpty then none else some word

/-- A natural number of sixty-four bits. -/
private def natural? (word : String) : Option UInt64 :=
  let ds := match word.toList with
    | '+' :: ds => ds
    | ds => ds
  if ds.isEmpty || !ds.all Char.isDigit then none
  else
    let n := ds.foldl (fun n c => n * 10 + (c.toNat - 48)) 0
    if n < 2 ^ 64 then some (UInt64.ofNat n) else none

/-- The one other word that a command needs. -/
private def Words.path? (w : Words) : Option String :=
  match w.others with
  | [word] => Invocation.path? word
  | _ => none

/-- The value of an option: nothing if it is not given, and misuse if it is wrong. -/
private def Words.option? {α : Type} (w : Words) (name : String) (value? : String → Option α) :
    Option (Option α) :=
  match w.options.lookup name with
  | none => some none
  | some word => (value? word).map some

private def ofWords? (names : List String) (words : List String)
    (make : Words → Option Invocation) : Option Invocation :=
  match read names words ⟨[], []⟩ with
  | .words w => make w
  | .help => some .help
  | .misuse => none

private def isHelp (word : String) : Bool := word = "--help" || startsWith "-h" word

private def isVersion (word : String) : Bool := word = "--version" || startsWith "-V" word

/-- What a command line asks for; nothing if it is misused. -/
def ofArguments? : List String → Option Invocation
  | [] => none
  | "run" :: words =>
    ofWords? ["--frames", "--interval-ms", "--out", "--config"] words fun w => do
      let script ← w.path?
      let frames ← w.option? "--frames" natural?
      let intervalMs ← w.option? "--interval-ms" natural?
      let out ← w.option? "--out" Invocation.path?
      let config ← w.option? "--config" Invocation.path?
      return run script (frames.getD Job.standardFrames) (intervalMs.getD 0) out config
  | "job" :: words => ofWords? [] words fun w => w.path?.map job
  | "check" :: words =>
    ofWords? ["--config"] words fun w => do
      return check (← w.path?) (← w.option? "--config" Invocation.path?)
  | ["help"] => some help
  | ["help", word] =>
    if ["run", "job", "check", "help"].contains word then some help else none
  | word :: _ => if isHelp word then some help else if isVersion word then some version else none

end Invocation

end FilterScript

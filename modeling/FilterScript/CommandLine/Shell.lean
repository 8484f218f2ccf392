import FilterScript.Timestamp

/-
What a command asks of the machine that it runs on.

A command touches files, the output and the clock only by asking, so that it can be run on real files
as well as on files that are only imagined.
-/
namespace FilterScript

/-- Why a file cannot be read or written. -/
inductive FileFault where
  | missing
  | isDirectory
  | notDirectory
  /-- Anything else, in the words of the machine. -/
  | other (text : String)
deriving DecidableEq, Repr

/-- What is said of a file that cannot be read or written. -/
def FileFault.message : FileFault → String
  | missing => "No such file or directory (os error 2)"
  | isDirectory => "Is a directory (os error 21)"
  | notDirectory => "Not a directory (os error 20)"
  | other text => text

/-- What a command asks for. -/
inductive Errand where
  /-- Whether something is at a path. -/
  | look (path : String)
  | read (path : String)
  | write (path text : String)
  | print (text : String)
  /-- The time. -/
  | time

/-- What an errand is answered with. -/
def Errand.Reply : Errand → Type
  | look _ => Bool
  | read _ => Except FileFault String
  | write _ _ => Except FileFault Unit
  | print _ => Unit
  | time => Timestamp

/-- A computation that sends errands. -/
inductive Shell (α : Type) where
  | done (a : α)
  | ask (r : Errand) (k : r.Reply → Shell α)

namespace Shell

variable {α β : Type}

/-- Goes on with what a computation answers. -/
def bind : Shell α → (α → Shell β) → Shell β
  | done a, f => f a
  | ask r k, f => ask r fun x => (k x).bind f

instance : Monad Shell where
  pure := done
  bind := bind

/-- Sends one errand. -/
def send (r : Errand) : Shell r.Reply := ask r done

end Shell

end FilterScript

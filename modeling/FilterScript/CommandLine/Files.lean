import FilterScript.CommandLine.Shell

/-
Files that are only imagined: a working directory with texts under names.

Names may hold slashes; whatever stands in front of one is a directory.  Of the world outside the
working directory only its root is known.
-/
namespace FilterScript

/-- The files below a working directory, each name once. -/
structure Files where
  entries : List (String × String)
deriving DecidableEq, Repr

namespace Files

/-- What a path leads to: a directory, or a name that a file has or may have. -/
inductive Place where
  | directory
  | entry (name : String)
deriving DecidableEq, Repr

/-- The parts of a path between its slashes. -/
def parts (path : String) : List String :=
  let (done, part) := path.toList.foldl
    (fun (acc : List String × List Char) c =>
      if c = '/' then (String.ofList acc.2.reverse :: acc.1, []) else (acc.1, c :: acc.2))
    ([], [])
  (String.ofList part.reverse :: done).reverse

/-- Parts with slashes between them. -/
def joined (names : List String) : String := String.intercalate "/" names

/-- The text of a file. -/
def text? (f : Files) (name : String) : Option String := f.entries.lookup name

/-- Whether something is below a name. -/
def hasDirectory (f : Files) (name : String) : Bool :=
  f.entries.any fun (n, _) => (name.toList ++ ['/']).isPrefixOf n.toList

/-- Follows the parts of a path from a directory on. -/
def walk (f : Files) : List String → List String → Except FileFault Place
  | _, [] => .ok .directory
  | dir, part :: rest =>
    if part = "" ∨ part = "." then walk f dir rest
    else if part = ".." then
      if dir.isEmpty then .error .missing else walk f dir.dropLast rest
    else
      let name := joined (dir ++ [part])
      if f.hasDirectory name then walk f (dir ++ [part]) rest
      else if rest.isEmpty then .ok (.entry name)
      else if (f.text? name).isSome then .error .notDirectory
      else .error .missing

/-- What a path leads to. -/
def place (f : Files) (path : String) : Except FileFault Place :=
  match path.toList with
  | [] => .error .missing
  | '/' :: _ =>
    if (parts path).all fun part => part = "" || part = "." || part = ".." then .ok .directory
    else .error .missing
  | _ => f.walk [] (parts path)

/-- The text of the file at a path. -/
def read (f : Files) (path : String) : Except FileFault String := do
  match ← f.place path with
  | .directory => .error .isDirectory
  | .entry name =>
    match f.text? name with
    | some text => .ok text
    | none => .error .missing

/-- Whether something is at a path. -/
def present (f : Files) (path : String) : Bool :=
  match f.place path with
  | .ok .directory => true
  | .ok (.entry name) => (f.text? name).isSome
  | .error _ => false

/-- The files with a text under a name. -/
def set (f : Files) (name text : String) : Files :=
  ⟨f.entries.filter (fun e => e.1 ≠ name) ++ [(name, text)]⟩

/-- Writes a text to the file at a path. -/
def write (f : Files) (path text : String) : Except FileFault Files := do
  match ← f.place path with
  | .directory => .error .isDirectory
  | .entry name => .ok (f.set name text)

end Files

/-- What is known after a command was run: the files, and what it printed. -/
structure Desk where
  files : Files
  output : String

/-- Runs a computation on imagined files, at a moment that does not pass. -/
def Shell.runOn {α : Type} (now : Timestamp) : Shell α → Desk → α × Desk
  | .done a, d => (a, d)
  | .ask r k, d =>
    match r, k with
    | .look path, k => (k (d.files.present path)).runOn now d
    | .read path, k => (k (d.files.read path)).runOn now d
    | .write path text, k =>
      match d.files.write path text with
      | .ok files => (k (.ok ())).runOn now { d with files }
      | .error fault => (k (.error fault)).runOn now d
    | .print text, k => (k ()).runOn now { d with output := d.output ++ text }
    | .time, k => (k now).runOn now d

end FilterScript

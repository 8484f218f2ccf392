import FilterScript.Text.Quoted

/-
Paths of files, as far as a job looks into them.
-/
namespace FilterScript.Path

/-- The parts of a path between its slashes, each with what stands in front of it. -/
def parts : List Char → List Char → List Char → List (List Char × List Char)
  | done, part, [] => [(done, part)]
  | done, part, c :: cs =>
    if c = '/' then (done, part) :: parts (done ++ part ++ [c]) [] cs
    else parts done (part ++ [c]) cs

/-- Whether a part names nothing: it is empty, or a point. -/
def isSkipped (part : List Char) : Bool := part = [] || part = ['.']

/-- The last part that names something, with what stands in front of it.  A path that ends in its
parent names nothing. -/
def fileName? (path : List Char) : Option (List Char × List Char) :=
  match (parts [] [] path).reverse.find? fun (_, part) => !isSkipped part with
  | some (before, part) => if part = ['.', '.'] then none else some (before, part)
  | none => none

/-- A name without the part behind its last point; a point at its start does not count. -/
def stem (name : List Char) : List Char :=
  match name with
  | [] => []
  | c :: rest =>
    if rest.contains '.' then
      c :: ((rest.reverse.dropWhile (· ≠ '.')).drop 1).reverse
    else name

/-- The path with the extension of its last name replaced. -/
def withExtension (path extension : String) : String :=
  match fileName? path.toList with
  | some (before, name) => String.ofList (before ++ stem name) ++ "." ++ extension
  | none => path

private def apostrophe : Char := Char.ofNat 39

/-- A path between quotes.  Beside what is escaped in any text, apostrophes are. -/
def quoted (path : String) : String :=
  let quote := Char.ofNat 34
  let escaped (c : Char) : List Char :=
    if c = apostrophe then [Char.ofNat 92, c] else Text.quotedChar c
  String.ofList (quote :: path.toList.flatMap escaped ++ [quote])

end FilterScript.Path

import FilterScript.Script.Library.Number

/-
Functions on strings and characters that every script can call.
-/
namespace FilterScript.Script.Library

private def string (cs : List Char) : Value := .string (String.ofList cs)

/-- The place that an index from the start, or a negative one from the end, stands for. -/
def place (size : Nat) (i : Int) : Nat := if i < 0 then size - i.natAbs else i.toNat

/-- The part of a list from a place on. -/
def part {α : Type} (xs : List α) (start len : Int) : List α :=
  (xs.drop (place xs.length start)).take len.toNat

/-- The part of a list that a range covers. -/
def rangePart {α : Type} (xs : List α) (first last : Int) (closed : Bool) : List α :=
  let first := max first 0
  let last := if closed then last + 1 else last
  part xs first (last - first)

private def isBlank (c : Char) : Bool := c.isWhitespace || c.toNat = 11 || c.toNat = 12

private def trimmed (cs : List Char) : List Char :=
  ((cs.dropWhile isBlank).reverse.dropWhile isBlank).reverse

private def strip : List Char → List Char → Option (List Char)
  | [], cs => some cs
  | _ :: _, [] => none
  | w :: ws, c :: cs => if w = c then strip ws cs else none

private def find (piece : List Char) : List Char → Option Nat
  | [] => if piece.isEmpty then some 0 else none
  | c :: cs =>
    match strip piece (c :: cs) with
    | some _ => some 0
    | none => (find piece cs).map (· + 1)

private def indexOf (piece cs : List Char) (start : Int) : Value :=
  let first := place cs.length start
  match find piece (cs.drop first) with
  | some i => if first ≤ cs.length then .int (first + i : Nat) else .int (-1)
  | none => .int (-1)

private def piecesAfter (mark : List Char) : Nat → List Char → List Char → List (List Char)
  | 0, done, cs => [done.reverse ++ cs]
  | _ + 1, done, [] => [done.reverse]
  | fuel + 1, done, c :: cs =>
    match strip mark (c :: cs) with
    | some rest => done.reverse :: piecesAfter mark fuel [] rest
    | none => piecesAfter mark fuel (c :: done) cs

/-- The pieces between the places where a mark stands.  The empty mark stands around every
character. -/
private def pieces (mark cs : List Char) : List (List Char) :=
  if mark.isEmpty then [] :: cs.map ([·]) ++ [[]] else piecesAfter mark (cs.length + 1) [] cs

private def words (cs : List Char) : List (List Char) :=
  (cs.splitBy fun a b => isBlank a == isBlank b).filter fun w => !w.all isBlank

/-- The same text in small letters; only the letters without accents have two cases here. -/
private def lower (cs : List Char) : List Char := cs.map Char.toLower

/-- The same text in capital letters; only the letters without accents have two cases here. -/
private def upper (cs : List Char) : List Char := cs.map Char.toUpper

private def unary? (name : String) (s : String) : Option Call :=
  let cs := s.toList
  match name with
  | "len" => some (gives (.int cs.length))
  | "bytes" => some (gives (.int s.utf8ByteSize))
  | "is_empty" => some (gives (.bool cs.isEmpty))
  | "to_upper" => some (gives (string (upper cs)))
  | "to_lower" => some (gives (string (lower cs)))
  | "make_upper" => some (changed (string (upper cs)))
  | "make_lower" => some (changed (string (lower cs)))
  | "trim" => some (changed (string (trimmed cs)))
  | "clear" => some (changed (.string ""))
  | "chars" => some (gives (.array (cs.map Value.char)))
  | "to_chars" => some (gives (.array (cs.map Value.char)))
  | "split" => some (gives (.array ((words cs).map string)))
  | "pop" =>
    some (match cs.reverse with
      | [] => gives .unit
      | c :: rest => changedTo (string rest.reverse) (.char c))
  | _ => none

/-- The characters of a string or of a character. -/
private def piece? : Value → Option (List Char)
  | .string s => some s.toList
  | .char c => some [c]
  | _ => none

private def onPiece? (name : String) (s : String) (v : Value) : Option Call := do
  let piece ← piece? v
  let cs := s.toList
  match name with
  | "contains" => some (gives (.bool (find piece cs).isSome))
  | "starts_with" => some (gives (.bool (strip piece cs).isSome))
  | "ends_with" => some (gives (.bool (strip piece.reverse cs.reverse).isSome))
  | "index_of" => some (gives (indexOf piece cs 0))
  | "split" => some (gives (.array ((pieces piece cs).map string)))
  | "remove" => some (changed (string (Operator.replaced piece [] cs)))
  | "append" => some (changed (string (cs ++ piece)))
  | _ => none

private def onNumber? (name : String) (s : String) (i : Int) : Option Call :=
  let cs := s.toList
  match name with
  | "sub_string" => some (gives (string (cs.drop (place cs.length i))))
  | "crop" => some (changed (string (cs.drop (place cs.length i))))
  | "truncate" => some (changed (string (cs.take i.toNat)))
  | "pop" =>
    let k := cs.length - i.toNat
    some (changedTo (string (cs.take k)) (string (cs.drop k)))
  | "get" =>
    some (gives (match cs[place cs.length i]? with
      | some c => if i.natAbs ≤ cs.length ∨ 0 ≤ i then .char c else .unit
      | none => .unit))
  | "split" =>
    let k := place cs.length i
    some (gives (.array [string (cs.take k), string (cs.drop k)]))
  | _ => none

/-- The functions on strings and characters. -/
def text? (name : String) (args : List Value) : Option Call :=
  match name, args with
  | "to_upper", [.char c] => some (gives (.char c.toUpper))
  | "to_lower", [.char c] => some (gives (.char c.toLower))
  | name, [.string s] => unary? name s
  | "sub_string", [.string s, .range a b closed] =>
    some (gives (string (rangePart s.toList a b closed)))
  | "crop", [.string s, .range a b closed] =>
    some (changed (string (rangePart s.toList a b closed)))
  | name, [.string s, .int i] => onNumber? name s i
  | name, [.string s, v] => onPiece? name s v
  | "sub_string", [.string s, .int a, .int n] => some (gives (string (part s.toList a n)))
  | "crop", [.string s, .int a, .int n] => some (changed (string (part s.toList a n)))
  | "index_of", [.string s, v, .int a] =>
    (piece? v).map fun p => gives (indexOf p s.toList a)
  | "replace", [.string s, v, w] => do
    let p ← piece? v
    let q ← piece? w
    some (changed (string (Operator.replaced p q s.toList)))
  | "set", [.string s, .int i, .char c] =>
    let cs := s.toList
    some (changed (string (cs.set (place cs.length i) c)))
  | "pad", [.string s, .int n, .char c] =>
    let cs := s.toList
    some (changed (string (cs ++ List.replicate (n.toNat - cs.length) c)))
  | _, _ => none

end FilterScript.Script.Library

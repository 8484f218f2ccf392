import FilterScript.Script.Library.Text

/-
Functions on arrays, maps and ranges that every script can call.  Those that call back into the
script are not among them.  There is memory for whatever they are asked for, so an array of any length
can be padded where no limit is set.
-/
namespace FilterScript.Script.Library

/-- Whether an index from the start, or a negative one from the end, is within a size. -/
def isWithin (size : Nat) (i : Int) : Bool := -(size : Int) ≤ i ∧ i < size

private def removeAt (xs : List Value) (i : Int) : Call :=
  if isWithin xs.length i then
    let k := place xs.length i
    changedTo (.array (xs.eraseIdx k)) (xs.getD k .unit)
  else gives .unit

private def insertAt (xs : List Value) (i : Int) (v : Value) : List Value :=
  let k := place xs.length i
  xs.take k ++ v :: xs.drop k

private def dedup : List Value → List Value
  | [] => []
  | [v] => [v]
  | v :: w :: rest =>
    match dedup (w :: rest) with
    | [] => [v]
    | u :: us => if v.same u then v :: us else v :: u :: us

private def findItem (v : Value) (xs : List Value) (start : Int) : Value :=
  let k := place xs.length start
  match (xs.drop k).findIdx? fun x => x.same v with
  | some i => .int (k + i : Nat)
  | none => .int (-1)

/-- The order of values of one kind; values of other kinds stay as they are. -/
private def precedes (x y : Value) : Bool :=
  match Operator.le.on? x y with
  | some (.ok (.bool b)) => b
  | _ => true

private def sameKind (xs : List Value) : Bool :=
  match xs with
  | [] => true
  | x :: rest => rest.all fun y => y.typeName = x.typeName

private def sorted (xs : List Value) : Call :=
  if sameKind xs then changed (.array (xs.mergeSort precedes))
  else failed "elements of different types cannot be sorted"

private def onArray? (name : String) (xs : List Value) : Option Call :=
  match name with
  | "len" => some (gives (.int xs.length))
  | "is_empty" => some (gives (.bool xs.isEmpty))
  | "pop" =>
    some (match xs.reverse with
      | [] => gives .unit
      | v :: rest => changedTo (.array rest.reverse) v)
  | "shift" =>
    some (match xs with
      | [] => gives .unit
      | v :: rest => changedTo (.array rest) v)
  | "reverse" => some (changed (.array xs.reverse))
  | "clear" => some (changed (.array []))
  | "dedup" => some (changed (.array (dedup xs)))
  | "sort" => some (sorted xs)
  | _ => none

private def onArrayAnd? (name : String) (xs : List Value) (v : Value) : Option Call :=
  match name, v with
  | "push", v => some (changed (.array (xs ++ [v])))
  | "append", .array ys => some (changed (.array (xs ++ ys)))
  | "+", .array ys => some (gives (.array (xs ++ ys)))
  | "==", .array ys => some (gives (.bool (Value.same (.array xs) (.array ys))))
  | "!=", .array ys => some (gives (.bool (!Value.same (.array xs) (.array ys))))
  | "contains", v => some (gives (.bool (xs.any fun x => x.same v)))
  | "remove", .int i => some (removeAt xs i)
  | "truncate", .int n => some (changed (.array (xs.take (place xs.length n))))
  | "chop", .int n => some (changed (.array (xs.drop (xs.length - place xs.length n))))
  | "extract", .int i => some (gives (.array (xs.drop (place xs.length i))))
  | "extract", .range a b closed => some (gives (.array (rangePart xs a b closed)))
  | "get", .int i =>
    some (gives (if isWithin xs.length i then xs.getD (place xs.length i) .unit else .unit))
  | "index_of", .function .. => none
  | "index_of", v => some (gives (findItem v xs 0))
  | _, _ => none

private def onMap? (name : String) (ms : List (String × Value)) : Option Call :=
  match name with
  | "len" => some (gives (.int ms.length))
  | "is_empty" => some (gives (.bool ms.isEmpty))
  | "keys" => some (gives (.array (ms.map fun m => .string m.1)))
  | "values" => some (gives (.array (ms.map (·.2))))
  | "clear" => some (changed (.map []))
  | _ => none

private def merged (ms ns : List (String × Value)) : List (String × Value) :=
  ns.foldl (fun acc n => Value.setMember n.1 n.2 acc) ms

private def onMapAnd? (name : String) (ms : List (String × Value)) (v : Value) : Option Call :=
  match name, v with
  | "contains", .string s => some (gives (.bool (ms.any fun m => m.1 = s)))
  | "get", .string s => some (gives ((ms.lookup s).getD .unit))
  | "remove", .string s =>
    some (changedTo (.map (ms.filter fun m => m.1 ≠ s)) ((ms.lookup s).getD .unit))
  | "mixin", .map ns => some (changed (.map (merged ms ns)))
  | "fill_with", .map ns => some (changed (.map (merged ns ms)))
  | "+", .map ns => some (gives (.map (merged ms ns)))
  | "==", .map ns => some (gives (.bool (Value.same (.map ms) (.map ns))))
  | "!=", .map ns => some (gives (.bool (!Value.same (.map ms) (.map ns))))
  | _, _ => none

private def rangeContains (a b : Int) (closed : Bool) (i : Int) : Bool :=
  a ≤ i && (if closed then i ≤ b else i < b)

/-- The functions on containers. -/
def collection? (name : String) (args : List Value) : Option Call :=
  match name, args with
  | name, [.array xs] => onArray? name xs
  | name, [.array xs, v] => onArrayAnd? name xs v
  | "insert", [.array xs, .int i, v] => some (changed (.array (insertAt xs i v)))
  | "set", [.array xs, .int i, v] =>
    some (if isWithin xs.length i then changed (.array (xs.set (place xs.length i) v))
      else gives .unit)
  | "pad", [.array xs, .int n, v] =>
    some (changed (.array (xs ++ List.replicate (n.toNat - xs.length) v)))
  | "extract", [.array xs, .int a, .int n] => some (gives (.array (part xs a n)))
  | "index_of", [.array xs, v, .int a] => some (gives (findItem v xs a))
  | name, [.map ms] => onMap? name ms
  | name, [.map ms, v] => onMapAnd? name ms v
  | "set", [.map ms, .string s, v] => some (changed (.map (Value.setMember s v ms)))
  | "range", [.int a, .int b] => some (gives (.range a b false))
  | "contains", [.range a b closed, .int i] => some (gives (.bool (rangeContains a b closed i)))
  | "start", [.range a _ _] => some (gives (.int a))
  | "end", [.range _ b _] => some (gives (.int b))
  | "is_empty", [.range a b closed] =>
    some (gives (.bool (if closed then b < a else b ≤ a)))
  | "is_inclusive", [.range _ _ closed] => some (gives (.bool closed))
  | "is_exclusive", [.range _ _ closed] => some (gives (.bool (!closed)))
  | "==", [.range a b c, .range a' b' c'] =>
    some (gives (.bool (Value.same (.range a b c) (.range a' b' c'))))
  | "!=", [.range a b c, .range a' b' c'] =>
    some (gives (.bool (!Value.same (.range a b c) (.range a' b' c'))))
  | "name", [.function name _] => some (gives (.string name))
  | _, _ => none

/-! ### The whole library -/

/-- Text beside any value. -/
private def joined? (name : String) (args : List Value) : Option Call :=
  match name, args with
  | "+", [.string s, v] => some (gives (.string (s ++ v.text)))
  | "+", [v, .string s] => some (gives (.string (v.text ++ s)))
  | "to_string", [v] => some (gives (.string v.text))
  | "to_debug", [v] => some (gives (.string v.inspected))
  | _, _ => none

/-- A function of the library applied to arguments; nothing if there is none for their types. -/
def call? (name : String) (args : List Value) : Option Call :=
  number? name args <|> text? name args <|> collection? name args <|> joined? name args

/-- The functions that a value answers like properties. -/
def properties : List String :=
  ["len", "bytes", "is_empty", "floor", "ceiling", "round", "int", "fraction", "is_odd", "is_even",
   "is_zero", "is_nan", "is_finite", "is_infinite", "chars", "start", "end", "is_inclusive",
   "is_exclusive", "name"]

/-- The functions that change their first argument. -/
def mutating : List String :=
  ["push", "pop", "shift", "insert", "remove", "reverse", "append", "clear", "truncate", "chop",
   "dedup", "sort", "pad", "set", "crop", "replace", "make_upper", "make_lower", "trim", "mixin",
   "fill_with", "retain", "drain", "splice"]

end FilterScript.Script.Library

import FilterScript.Number.Elementary
import FilterScript.Script.Error
import FilterScript.Script.Tree

/-
Operators on values.

Integers have sixty-four bits, and an operation that leaves them is an error.  An integer that meets
a float becomes one.  Values of two kinds that have no order are neither equal nor ordered.
-/
namespace FilterScript.Script

/-- What an operation on values answers: a value, or the text of an arithmetic fault. -/
abbrev Answer := Except String Value

namespace Operator

private def written (op : String) (x y : Int) : String :=
  toString x ++ " " ++ op ++ " " ++ toString y

private def overflow (what op : String) (x y : Int) : String :=
  what ++ ": " ++ written op x y

private def checked (i : Int) (f : String) : Answer :=
  if Value.minInt ≤ i ∧ i ≤ Value.maxInt then .ok (.int i) else .error f

/-- The bits of an integer as a natural number. -/
def word (i : Int) : Nat := (i % 2 ^ 64).toNat

/-- The integer of sixty-four bits. -/
def ofWord (n : Nat) : Int :=
  if n % 2 ^ 64 < 2 ^ 63 then (n % 2 ^ 64 : Nat) else (n % 2 ^ 64 : Nat) - 2 ^ 64

private def shiftedLeft (x : Int) (n : Nat) : Int :=
  if n < 64 then ofWord (word x * 2 ^ n) else 0

private def shiftedRight (x : Int) (n : Nat) : Int :=
  if n < 64 then x.fdiv (2 ^ n) else if x < 0 then -1 else 0

/-- The power of an integer, unless its size makes it overflow in any case. -/
private def power (x : Int) (n : Nat) : Option Int :=
  if x = 0 then some (if n = 0 then 1 else 0)
  else if x = 1 then some 1
  else if x = -1 then some (if n % 2 = 0 then 1 else -1)
  else if n ≤ 64 then some (x ^ n)
  else none

/-- An operation on integers. -/
def onInts (op : Operator) (x y : Int) : Answer :=
  match op with
  | add => checked (x + y) (overflow "Addition overflow" "+" x y)
  | sub => checked (x - y) (overflow "Subtraction overflow" "-" x y)
  | mul => checked (x * y) (overflow "Multiplication overflow" "*" x y)
  | div =>
    if y = 0 then .error (overflow "Division by zero" "/" x y)
    else checked (x.tdiv y) (overflow "Division overflow" "/" x y)
  | rem =>
    let f := overflow "Modulo division by zero or overflow" "%" x y
    if y = 0 ∨ (x = Value.minInt ∧ y = -1) then .error f else .ok (.int (x.tmod y))
  | pow =>
    if y < 0 then .error (overflow "Integer raised to a negative power" "**" x y)
    else
      let f := overflow "Exponential overflow" "**" x y
      match power x y.toNat with
      | some i => checked i f
      | none => .error f
  | shiftLeft => .ok (.int (if y < 0 then shiftedRight x y.natAbs else shiftedLeft x y.toNat))
  | shiftRight => .ok (.int (if y < 0 then shiftedLeft x y.natAbs else shiftedRight x y.toNat))
  | bitAnd => .ok (.int (ofWord (word x &&& word y)))
  | bitOr => .ok (.int (ofWord (word x ||| word y)))
  | bitXor => .ok (.int (ofWord (word x ^^^ word y)))
  | eq => .ok (.bool (x = y))
  | ne => .ok (.bool (x ≠ y))
  | lt => .ok (.bool (x < y))
  | le => .ok (.bool (x ≤ y))
  | gt => .ok (.bool (y < x))
  | ge => .ok (.bool (y ≤ x))
  | range => .ok (.range x y false)
  | closedRange => .ok (.range x y true)

/-- An operation on floats. -/
def onFloats? (op : Operator) (x y : Single) : Option Value :=
  match op with
  | add => some (.float (x + y))
  | sub => some (.float (x - y))
  | mul => some (.float (x * y))
  | div => some (.float (x / y))
  | rem => some (.float (x % y))
  | pow => some (.float (x.pow y))
  | eq => some (.bool (x == y))
  | ne => some (.bool (!(x == y)))
  | lt => some (.bool (x.lt y))
  | le => some (.bool (x.le y))
  | gt => some (.bool (y.lt x))
  | ge => some (.bool (y.le x))
  | _ => none

/-- A comparison by an order. -/
private def compared? (op : Operator) (isLess isEqual : Bool) : Option Value :=
  match op with
  | eq => some (.bool isEqual)
  | ne => some (.bool (!isEqual))
  | lt => some (.bool isLess)
  | le => some (.bool (isLess || isEqual))
  | gt => some (.bool (!isLess && !isEqual))
  | ge => some (.bool (!isLess))
  | _ => none

private def onBools? (op : Operator) (x y : Bool) : Option Value :=
  match op with
  | bitAnd => some (.bool (x && y))
  | bitOr => some (.bool (x || y))
  | bitXor => some (.bool (x ^^ y))
  | _ => compared? op (!x && y) (x == y)

private def strip : List Char → List Char → Option (List Char)
  | [], cs => some cs
  | _ :: _, [] => none
  | w :: ws, c :: cs => if w = c then strip ws cs else none

/-- A text with every occurrence of a piece replaced, from the left. -/
def replaced (piece other : List Char) (cs : List Char) : List Char :=
  if piece.isEmpty then cs else go cs.length cs
where
  go : Nat → List Char → List Char
    | 0, cs => cs
    | _, [] => []
    | fuel + 1, c :: cs =>
      match strip piece (c :: cs) with
      | some rest => other ++ go fuel rest
      | none => c :: go fuel cs

private def onStrings? (op : Operator) (x y : String) : Option Value :=
  match op with
  | add => some (.string (x ++ y))
  | sub => some (.string (String.ofList (replaced y.toList [] x.toList)))
  | _ => compared? op (x < y) (x = y)

private def onChars? (op : Operator) (x y : Char) : Option Value :=
  match op with
  | add => some (.string (String.ofList [x, y]))
  | _ => compared? op (x < y) (x = y)

/-- A comparison of values of two kinds. -/
private def unlike? (op : Operator) : Option Value :=
  match op with
  | ne => some (.bool true)
  | eq => some (.bool false)
  | lt => some (.bool false)
  | le => some (.bool false)
  | gt => some (.bool false)
  | ge => some (.bool false)
  | _ => none

private def sameKind : Value → Value → Bool
  | .array _, .array _ => true
  | .map _, .map _ => true
  | .function .., .function .. => true
  | _, _ => false

/-- An operation of the language itself; `none` where it has none for these kinds. -/
def on? (op : Operator) (x y : Value) : Option Answer :=
  match x, y with
  | .int a, .int b => some (op.onInts a b)
  | .float a, .float b => (op.onFloats? a b).map .ok
  | .int a, .float b => (op.onFloats? (.ofInt a) b).map .ok
  | .float a, .int b => (op.onFloats? a (.ofInt b)).map .ok
  | .bool a, .bool b => (onBools? op a b).map .ok
  | .string a, .string b => (onStrings? op a b).map .ok
  | .char a, .char b => (onChars? op a b).map .ok
  | .string a, .char b => (onStrings? op a b.toString).map .ok
  | .char a, .string b => if op = sub then none else (onStrings? op a.toString b).map .ok
  | .unit, .unit => (unlike? op).map fun _ => .ok (.bool (op = eq))
  | .string a, .unit => if op = add then some (.ok (.string a)) else (unlike? op).map .ok
  | .unit, .string b => if op = add then some (.ok (.string b)) else (unlike? op).map .ok
  | x, y => if x.isForeign || y.isForeign || sameKind x y then none else (unlike? op).map .ok

end Operator

/-- A sign in front of a value; `none` where there is none for its kind. -/
def Sign.on? (s : Sign) (x : Value) : Option Answer :=
  match s, x with
  | .minus, .int i =>
    if i = Value.minInt then some (.error ("Negation overflow: -" ++ toString i))
    else some (.ok (.int (-i)))
  | .minus, .float x => some (.ok (.float (-x)))
  | .plus, .int i => some (.ok (.int i))
  | .plus, .float x => some (.ok (.float x))
  | .not, .bool b => some (.ok (.bool (!b)))
  | _, _ => none

namespace Value

mutual

/-- Whether two values are equal, part by part. -/
def same : Value → Value → Bool
  | array xs, array ys => sameItems xs ys
  | map ms, map ns => sameMembers ms ns
  | range a b c, range a' b' c' => a = a' ∧ b = b' ∧ c = c'
  | x, y =>
    match Operator.eq.on? x y with
    | some (.ok (.bool b)) => b
    | _ => false

private def sameItems : List Value → List Value → Bool
  | [], [] => true
  | x :: xs, y :: ys => same x y && sameItems xs ys
  | _, _ => false

private def sameMembers : List (String × Value) → List (String × Value) → Bool
  | [], [] => true
  | (m, x) :: ms, (n, y) :: ns => m = n && same x y && sameMembers ms ns
  | _, _ => false

end

end Value

end FilterScript.Script

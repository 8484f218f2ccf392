import FilterScript.Script.Arithmetic
import FilterScript.Script.Lexer

/-
Functions on numbers that every script can call.
-/
namespace FilterScript.Script.Library

/-- What a function of the library answers: its value, and its first argument where it changes it. -/
structure Effect where
  result : Value
  receiver : Option Value

/-- A function applied to arguments of types that it takes: its effect, or the text of an arithmetic
fault. -/
abbrev Call := Except String Effect

/-- A value, with nothing changed. -/
def gives (v : Value) : Call := .ok ⟨v, none⟩

/-- Nothing, with the first argument changed. -/
def changed (receiver : Value) : Call := .ok ⟨.unit, some receiver⟩

/-- A value, with the first argument changed. -/
def changedTo (receiver result : Value) : Call := .ok ⟨result, some receiver⟩

/-- A failure with a text of its own. -/
def failed (text : String) : Call := .error text

private def ofSingle? (name : String) (x : Single) : Option Value :=
  match name with
  | "sin" => some (.float x.sin)
  | "cos" => some (.float x.cos)
  | "tan" => some (.float x.tan)
  | "sinh" => some (.float x.sinh)
  | "cosh" => some (.float x.cosh)
  | "tanh" => some (.float x.tanh)
  | "asin" => some (.float x.asin)
  | "acos" => some (.float x.acos)
  | "atan" => some (.float x.atan)
  | "asinh" => some (.float x.asinh)
  | "acosh" => some (.float x.acosh)
  | "atanh" => some (.float x.atanh)
  | "sqrt" => some (.float x.sqrt)
  | "exp" => some (.float x.exp)
  | "ln" => some (.float x.ln)
  | "log" => some (.float x.log10)
  | "floor" => some (.float x.floor)
  | "ceiling" => some (.float x.ceil)
  | "round" => some (.float x.round)
  | "int" => some (.float x.trunc)
  | "fraction" => some (.float x.fract)
  | "abs" => some (.float x.abs)
  | "is_zero" => some (.bool x.isZero)
  | "is_nan" => some (.bool x.isNaN)
  | "is_finite" => some (.bool x.isFinite)
  | "is_infinite" => some (.bool x.isInfinite)
  | "to_float" => some (.float x)
  | "to_degrees" => some (.float (x * (.ofNat 180 / Decimal.toSingle false ⟨31415927, -7⟩)))
  | "to_radians" => some (.float (x * (Decimal.toSingle false ⟨31415927, -7⟩ / .ofNat 180)))
  | "sign" =>
    some (.int (if x.isZero then 0 else if x.isNaN then 0 else if x.isNegative then -1 else 1))
  | _ => none

private def toInt (x : Single) : Call :=
  let limit := Single.ofNat (2 ^ 63)
  if x.isNaN || limit.le x || x.lt (-limit) then
    failed ("Integer overflow: to_int(" ++ x.plainText ++ ")")
  else gives (.int (x.toInt Value.minInt Value.maxInt))

private def digitsOf (base : Nat) (i : Int) : String :=
  String.ofList (Nat.toDigits base (Operator.word i))

private def ofInt? (name : String) (i : Int) : Option Call :=
  match name with
  | "abs" =>
    some (if i = Value.minInt then failed ("Negation overflow: -" ++ toString i)
      else gives (.int i.natAbs))
  | "sign" => some (gives (.int i.sign))
  | "is_zero" => some (gives (.bool (i = 0)))
  | "is_odd" => some (gives (.bool (i % 2 ≠ 0)))
  | "is_even" => some (gives (.bool (i % 2 = 0)))
  | "to_int" => some (gives (.int i))
  | "to_float" => some (gives (.float (.ofInt i)))
  | "to_hex" => some (gives (.string (digitsOf 16 i)))
  | "to_octal" => some (gives (.string (digitsOf 8 i)))
  | "to_binary" => some (gives (.string (digitsOf 2 i)))
  | _ => none

/-- The smaller or the larger of two values. -/
private def chosen (larger : Bool) (x y : Value) : Option Call :=
  let op : Operator := if larger then .ge else .le
  match op.on? x y with
  | some (.ok (.bool b)) => some (gives (if b then x else y))
  | _ => none

private def isNumber : Value → Bool
  | .int _ => true
  | .float _ => true
  | _ => false

private def areComparable : Value → Value → Bool
  | .string _, .string _ => true
  | .char _, .char _ => true
  | x, y => isNumber x && isNumber y

private def digit? (base : Nat) (c : Char) : Option Nat :=
  let v :=
    if '0' ≤ c ∧ c ≤ '9' then c.toNat - 48
    else if 'a' ≤ c ∧ c ≤ 'z' then c.toNat - 87
    else if 'A' ≤ c ∧ c ≤ 'Z' then c.toNat - 55
    else base
  if v < base then some v else none

private def natural? (base : Nat) (cs : List Char) : Option Nat :=
  cs.foldl (fun n c => do return (← n) * base + (← digit? base c)) (some 0)

private def parseInt (base : Nat) (s : String) : Call :=
  let text := s.trimAscii.toString
  let (negative, digits) := match text.toList with
    | '-' :: cs => (true, cs)
    | '+' :: cs => (false, cs)
    | cs => (false, cs)
  let refuse (why : String) : Call :=
    failed ("Error parsing integer number '" ++ s ++ "': " ++ why)
  if text.isEmpty then refuse "cannot parse integer from empty string"
  else if digits.isEmpty then refuse "invalid digit found in string"
  else match natural? base digits with
    | none => refuse "invalid digit found in string"
    | some n =>
      let i : Int := if negative then -(n : Int) else n
      if i < Value.minInt then refuse "number too small to fit in target type"
      else if Value.maxInt < i then refuse "number too large to fit in target type"
      else gives (.int i)

private def parseFloat (s : String) : Call :=
  let text := s.trimAscii.toString
  let (negative, digits) := match text.toList with
    | '-' :: cs => (true, cs)
    | '+' :: cs => (false, cs)
    | cs => (false, cs)
  let isMark (c : Char) : Bool :=
    (digit? 10 c).isSome || c = '.' || c = 'e' || c = 'E' || c = '-' || c = '+'
  let digits := digits.map fun c => if c = 'E' then 'e' else c
  let value? :=
    if digits.any (fun c => (digit? 10 c).isSome) ∧ digits.all isMark then
      Lexer.readFloat? negative digits
    else none
  match value? with
  | some x => gives (.float x)
  | none =>
    failed ("Error parsing floating-point number '" ++ s ++ "': invalid float literal")

/-- The functions on numbers. -/
def number? (name : String) (args : List Value) : Option Call :=
  match name, args with
  | "to_int", [.float x] => some (toInt x)
  | name, [.float x] => (ofSingle? name x).map gives
  | name, [.int i] => ofInt? name i
  | "to_int", [.char c] => some (gives (.int c.toNat))
  | "parse_int", [.string s] => some (parseInt 10 s)
  | "parse_int", [.string s, .int base] =>
    some (if 2 ≤ base ∧ base ≤ 36 then parseInt base.toNat s
      else failed ("Invalid radix: '" ++ toString base ++ "'"))
  | "parse_float", [.string s] => some (parseFloat s)
  | "atan", [.float y, .float x] => some (gives (.float (y.atan2 x)))
  | "hypot", [.float x, .float y] => some (gives (.float (x * x + y * y).sqrt))
  | "log", [.float x, .float base] => some (gives (.float (x.ln / base.ln)))
  | "PI", [] => some (gives (.float (Decimal.toSingle false ⟨31415927, -7⟩)))
  | "E", [] => some (gives (.float (Decimal.toSingle false ⟨27182817, -7⟩)))
  | "min", [x, y] => if areComparable x y then chosen false x y else none
  | "max", [x, y] => if areComparable x y then chosen true x y else none
  | _, _ => none

end FilterScript.Script.Library

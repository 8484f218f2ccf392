import FilterScript.Number.Decimal

/-
The texts of numbers.

Four places write a number, and each has its own layout of the same shortest digits: the wire
format, messages about arguments, a script's own printing, and messages about configurations.
-/
namespace FilterScript

namespace Decimal

def zeros (n : Nat) : List Char := List.replicate n '0'

/-- The digits with the point at its place and no exponent. -/
def positional (d : Decimal) : List Char :=
  let ds := d.digits
  if 0 ≤ d.exponent then ds ++ zeros d.exponent.toNat
  else
    let places := (-d.exponent).toNat
    if places < ds.length then
      ds.take (ds.length - places) ++ '.' :: ds.drop (ds.length - places)
    else '0' :: '.' :: zeros (places - ds.length) ++ ds

/-- The digits with the point behind the first one, and an exponent whose sign `plus` writes. -/
def scientific (plus : Bool) (d : Decimal) : List Char :=
  let body := match d.digits with
    | [] => []
    | [c] => [c]
    | c :: rest => c :: '.' :: rest
  let e := d.lead
  let sign := if e < 0 then ['-'] else if plus then ['+'] else []
  body ++ 'e' :: sign ++ Nat.toDigits 10 e.natAbs

end Decimal

namespace Single

def signText (x : Single) : List Char := if x.isNegative then ['-'] else []

/-- The text of numbers in messages: positional however large, with no point behind a whole
number. -/
def plainText (x : Single) : String :=
  match x.view with
  | .nan => "NaN"
  | .infinite s => if s then "-inf" else "inf"
  | .finite .. => String.ofList (x.signText ++ (x.shortest .up).positional)

/-- Numbers larger than this are printed with an exponent. -/
def largestPositional : Single := Decimal.toSingle false ⟨1, 13⟩

/-- Numbers smaller than this are printed with an exponent. -/
def smallestPositional : Single := Decimal.toSingle false ⟨1, -13⟩

/-- The text of numbers that scripts print: always a point or an exponent, and no sign on zero. -/
def scriptText (x : Single) : String :=
  match x.view with
  | .nan => "NaN"
  | .infinite s => if s then "-inf" else "inf"
  | .finite .. =>
    if x.isZero then "0.0"
    else
      let d := x.shortest .up
      let a := x.abs
      if largestPositional.lt a || a.lt smallestPositional then
        String.ofList (x.signText ++ d.scientific false)
      else
        let point := if 0 ≤ d.exponent then ['.', '0'] else []
        String.ofList (x.signText ++ d.positional ++ point)

end Single

namespace Dyadic

/-- The text of a number in messages about configurations: positional from one tenth of a thousandth
up to sixteen digits, always with a point or an exponent. -/
def messageText (negative : Bool) (v : Dyadic) : String :=
  let d := v.shortest
  let body :=
    if d.significand = 0 then ['0', '.', '0']
    else if -5 ≤ d.lead ∧ d.lead ≤ 15 then
      d.positional ++ if 0 ≤ d.exponent then ['.', '0'] else []
    else d.scientific false
  String.ofList (if negative then '-' :: body else body)

end Dyadic

end FilterScript

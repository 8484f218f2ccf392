import FilterScript.Number.Single

/-
Decimals: reading one as a number, and the fewest digits that stand for a number.

`Decimal.toSingle` rounds a decimal once.  `Decimal.toSingleStepwise` is the reading of the wire
format, which goes through double precision one multiplication at a time.  `Decimal.shortestNear`
looks for the fewest significant digits that are read back as a number; among the decimals of that
length it takes the nearest.
-/
namespace FilterScript

/-- The number `significand · 10 ^ exponent`. -/
structure Decimal where
  significand : Nat
  exponent : Int
deriving DecidableEq, Repr, Inhabited

/-- Which of two equally near decimals is taken. -/
inductive Tie where
  | even
  | up
deriving DecidableEq, Repr

namespace Decimal

/-- How many digits a natural number has; zero has one. -/
def digitCount (n : Nat) : Nat := (Nat.toDigits 10 n).length

/-- The exponent of the leading digit. -/
def lead (d : Decimal) : Int := d.exponent + (digitCount d.significand : Int) - 1

/-- The digits of the significand, most significant first. -/
def digits (d : Decimal) : List Char := Nat.toDigits 10 d.significand

/-- The same number with no zero at the end of its significand. -/
def normalize (d : Decimal) : Decimal :=
  go (digitCount d.significand) d
where
  go : Nat → Decimal → Decimal
    | 0, d => d
    | k + 1, d =>
      if d.significand ≠ 0 ∧ d.significand % 10 = 0 then go k ⟨d.significand / 10, d.exponent + 1⟩
      else d

/-- A quotient of naturals equal to the decimal. -/
def toRatio (d : Decimal) : Nat × Nat :=
  if 0 ≤ d.exponent then (d.significand * 10 ^ d.exponent.toNat, 1)
  else (d.significand, 10 ^ (-d.exponent).toNat)

/-- The number of a format nearest to a decimal, `none` beyond its range.  Since `8 ≤ 10`, a
decimal whose size in powers of two is far outside every format is settled without computing it. -/
def round (f : BinaryFormat) (d : Decimal) : Option Dyadic :=
  let bits : Int := (d.significand.log2 : Int) + 3 * d.exponent
  if d.significand = 0 then some ⟨0, f.leastUnit⟩
  else if 0 ≤ d.exponent ∧ 1100 < bits then none
  else if d.exponent < 0 ∧ bits < -1200 then some ⟨0, f.leastUnit⟩
  else f.round d.toRatio.1 d.toRatio.2

/-- The single nearest to `± d`. -/
def toSingle (negative : Bool) (d : Decimal) : Single :=
  match d.round .single with
  | some r => Single.pack negative r.mantissa r.exponent
  | none => Single.infinity negative

private def timesPower (x : Dyadic) (k : Nat) : Option Dyadic := do
  let p ← BinaryFormat.double.round (10 ^ k) 1
  BinaryFormat.double.round (x.numerator * p.numerator) (x.denominator * p.denominator)

private def overPower (x : Dyadic) (k : Nat) : Option Dyadic := do
  let p ← BinaryFormat.double.round (10 ^ k) 1
  BinaryFormat.double.round (x.numerator * p.denominator) (x.denominator * p.numerator)

/-- Double precision reached in steps: the significand is rounded, and then multiplied or divided by
a rounded power of ten; no power beyond `10 ^ 308` is used.  Three divisions by the largest power
empty every significand, so the fuel is not felt. -/
def toDoubleStepwise (d : Decimal) : Option Dyadic := do
  let x ← BinaryFormat.double.round d.significand 1
  go 4 x d.exponent
where
  go : Nat → Dyadic → Int → Option Dyadic
    | 0, x, _ => some x
    | fuel + 1, x, e =>
      if e.natAbs ≤ 308 then
        if 0 ≤ e then timesPower x e.natAbs else overPower x e.natAbs
      else if x.mantissa = 0 then some x
      else if 0 ≤ e then none
      else (overPower x 308).bind fun y => go fuel y (e + 308)

/-- The single that the wire format reads from `± d`; `none` beyond the range of double precision,
infinite beyond that of single precision. -/
def toSingleStepwise (negative : Bool) (d : Decimal) : Option Single :=
  d.toDoubleStepwise.map fun x => Single.ofRatio negative x.numerator x.denominator

/-! ### Shortest digits -/

private def fitExponent (n d : Nat) (k : Int) : Int :=
  let atLeast (k : Int) : Bool :=
    if 0 ≤ k then d * 10 ^ k.toNat ≤ n else d ≤ n * 10 ^ (-k).toNat
  if atLeast (k + 1) then k + 1 else if atLeast k then k else k - 1

/-- The exponent of the leading decimal digit of a positive quotient. -/
def decimalLead (n d : Nat) : Int :=
  fitExponent n d (floorLog2 n d * 30103 / 100000)

private def nearest (tie : Tie) (n d low : Nat) : Nat :=
  let twice := 2 * n
  let middle := (2 * low + 1) * d
  if twice < middle then low
  else if middle < twice then low + 1
  else match tie with
    | .even => if low % 2 = 0 then low else low + 1
    | .up => low + 1

/-- A decimal whose last digit stands for `10 ^ unit`, that `reads` accepts, and that is nearest to
`n / d` among those. -/
private def onGrid (tie : Tie) (reads : Decimal → Bool) (n d : Nat) (unit : Int) : Option Decimal :=
  let (n, d) := if 0 ≤ unit then (n, d * 10 ^ unit.toNat) else (n * 10 ^ (-unit).toNat, d)
  let low := n / d
  let first := nearest tie n d low
  let second := if first = low then low + 1 else low
  let accepts (s : Nat) : Bool := s ≠ 0 ∧ reads ⟨s, unit⟩
  if accepts first then some ⟨first, unit⟩
  else if accepts second then some ⟨second, unit⟩
  else none

/-- The shortest decimal near a positive number that `reads` accepts, if one of at most `most` digits
does. -/
def shortestNear (tie : Tie) (most : Nat) (reads : Decimal → Bool) (v : Dyadic) : Option Decimal :=
  let n := v.numerator
  let d := v.denominator
  let top := decimalLead n d
  (List.range most).findSome? fun (k : Nat) => onGrid tie reads n d (top - k)

end Decimal

namespace Dyadic

/-- A number written out exactly. -/
def toDecimal (v : Dyadic) : Decimal :=
  if 0 ≤ v.exponent then ⟨v.numerator, 0⟩
  else ⟨v.mantissa * 5 ^ (-v.exponent).toNat, v.exponent⟩

/-- The shortest decimal that reads back to a number of double precision.  Seventeen digits always
suffice, so the exact value is never reached. -/
def shortest (v : Dyadic) : Decimal :=
  if v.mantissa = 0 then ⟨0, 0⟩
  else
    let reads (d : Decimal) : Bool := d.round .double = some v
    ((Decimal.shortestNear .even 17 reads v).getD v.toDecimal).normalize

end Dyadic

namespace Single

/-- The shortest decimal that reads back to the magnitude of a finite number.  Nine digits always
suffice, so the exact value is never reached. -/
def shortest (tie : Tie) (x : Single) : Decimal :=
  match x.view with
  | .finite _ m e =>
    if m = 0 then ⟨0, 0⟩
    else
      let v : Dyadic := ⟨m, e⟩
      let reads (d : Decimal) : Bool := d.toSingle false = x.abs
      ((Decimal.shortestNear tie 9 reads v).getD v.toDecimal).normalize
  | _ => ⟨0, 0⟩

end Single

end FilterScript

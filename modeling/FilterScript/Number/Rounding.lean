import FilterScript.Number.Power

/-
Rounding exact numbers to a binary format.

Every inexact step of this library, an addition of two coordinates as much as the reading of a
decimal, is one exact computation on integers followed by one call of `BinaryFormat.round`.
Nothing else rounds, so a statement about arithmetic reduces to a statement about that call.
-/
namespace FilterScript

/-- A binary floating-point format: how many bits a mantissa has, and the exponents of the smallest
and the largest unit in the last place. -/
structure BinaryFormat where
  precision : Nat
  leastUnit : Int
  greatestUnit : Int

/-- The number `mantissa · 2 ^ exponent`. -/
structure Dyadic where
  mantissa : Nat
  exponent : Int
deriving DecidableEq, Repr

/-- The integer nearest to `n / d`; of two equally near ones the even one. -/
def divRoundEven (n d : Nat) : Nat :=
  let q := n / d
  let r := n % d
  if 2 * r < d then q else if 2 * r = d ∧ q % 2 = 0 then q else q + 1

/-- The largest `e` with `2 ^ e ≤ n / d`, for positive `n` and `d`. -/
def floorLog2 (n d : Nat) : Int :=
  let e : Int := (n.log2 : Int) - (d.log2 : Int)
  let below := if 0 ≤ e then n < d <<< e.toNat else n <<< (-e).toNat < d
  if below then e - 1 else e

namespace BinaryFormat

/-- Twenty-four bits: the format of every number a script or a filter holds. -/
def single : BinaryFormat := ⟨24, -149, 104⟩

/-- Fifty-three bits: the format through which decimals on the wire are read. -/
def double : BinaryFormat := ⟨53, -1074, 971⟩

/-- The exponent of the unit in the last place of numbers the size of `n / d`. -/
def unitFor (f : BinaryFormat) (n d : Nat) : Int :=
  max f.leastUnit (floorLog2 n d - (f.precision - 1))

/-- `n / d` counted in units of `2 ^ unit`, to the nearest even count. -/
def countUnits (unit : Int) (n d : Nat) : Nat :=
  if 0 ≤ unit then divRoundEven n (d <<< unit.toNat) else divRoundEven (n <<< (-unit).toNat) d

/-- The number of the format nearest to `n / d`, ties to even; `none` when it is beyond the largest
finite one.  A mantissa that rounds up to the next power of two is renormalised. -/
def round (f : BinaryFormat) (n d : Nat) : Option Dyadic :=
  if n = 0 then some ⟨0, f.leastUnit⟩
  else
    let unit := f.unitFor n d
    let m := countUnits unit n d
    let (m, unit) := if m = 2 ^ f.precision then (2 ^ (f.precision - 1), unit + 1) else (m, unit)
    if unit ≤ f.greatestUnit then some ⟨m, unit⟩ else none

end BinaryFormat

namespace Dyadic

/-- The numerator of a dyadic number over `denominator`. -/
def numerator (x : Dyadic) : Nat :=
  if 0 ≤ x.exponent then x.mantissa <<< x.exponent.toNat else x.mantissa

/-- A power of two over which `numerator` stands. -/
def denominator (x : Dyadic) : Nat :=
  if 0 ≤ x.exponent then 1 else 1 <<< (-x.exponent).toNat

end Dyadic

end FilterScript

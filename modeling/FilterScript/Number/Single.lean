import FilterScript.Number.Rounding

/-
Single-precision numbers.

A `Single` is its thirty-two bits.  `view` opens them into a sign, a mantissa and an exponent, and
each operation computes exactly on that view and rounds once, to nearest with ties to even.  The
operations are therefore ordinary functions on integers: a proof can evaluate them.
-/
namespace FilterScript

/-- A single-precision number, held as its bits. -/
structure Single where
  bits : UInt32
deriving DecidableEq, Inhabited, Repr

namespace Single

/-- What the bits of a number mean; a finite number is `± mantissa · 2 ^ exponent`. -/
inductive View where
  | nan
  | infinite (negative : Bool)
  | finite (negative : Bool) (mantissa : Nat) (exponent : Int)
deriving DecidableEq, Repr

/-- Opens the bits: one sign bit, eight exponent bits, twenty-three fraction bits. -/
def view (x : Single) : View :=
  let n := x.bits.toNat
  let negative : Bool := 2 ^ 31 ≤ n
  let e : Nat := n / 2 ^ 23 % 2 ^ 8
  let f := n % 2 ^ 23
  if e = 255 then (if f = 0 then .infinite negative else .nan)
  else if e = 0 then .finite negative f (-149)
  else .finite negative (f + 2 ^ 23) ((e : Int) - 150)

private def signBit (negative : Bool) : Nat := if negative then 2 ^ 31 else 0

/-- The one not-a-number that operations answer. -/
def nan : Single := ⟨0x7fc00000⟩

/-- Infinity of a sign. -/
def infinity (negative : Bool) : Single := ⟨UInt32.ofNat (signBit negative + 255 * 2 ^ 23)⟩

/-- Zero of a sign. -/
def zeroOf (negative : Bool) : Single := ⟨UInt32.ofNat (signBit negative)⟩

/-- The bits of a mantissa and unit that `BinaryFormat.round` answered. -/
def pack (negative : Bool) (m : Nat) (unit : Int) : Single :=
  if m < 2 ^ 23 then ⟨UInt32.ofNat (signBit negative + m)⟩
  else ⟨UInt32.ofNat (signBit negative + (unit + 150).toNat * 2 ^ 23 + (m - 2 ^ 23))⟩

/-- The single nearest to `± n / d`; beyond the finite range it is infinite. -/
def ofRatio (negative : Bool) (n d : Nat) : Single :=
  match BinaryFormat.single.round n d with
  | some r => pack negative r.mantissa r.exponent
  | none => infinity negative

/-- The single nearest to `± m · 2 ^ e`. -/
def ofDyadic (negative : Bool) (m : Nat) (e : Int) : Single :=
  let x : Dyadic := ⟨m, e⟩
  ofRatio negative x.numerator x.denominator

/-- The single nearest to an integer. -/
def ofInt (i : Int) : Single := ofRatio (i < 0) i.natAbs 1

/-- The single nearest to a natural number. -/
def ofNat (n : Nat) : Single := ofRatio false n 1

instance (n : Nat) : OfNat Single n := ⟨ofNat n⟩

/-- One quarter. -/
def quarter : Single := ofRatio false 1 4

/-- One half. -/
def half : Single := ofRatio false 1 2

/-! ### Classes -/

/-- Neither infinite nor not-a-number. -/
def isFinite (x : Single) : Bool :=
  match x.view with
  | .finite .. => true
  | _ => false

/-- Not a number. -/
def isNaN (x : Single) : Bool := x.view = .nan

/-- Positive or negative infinity. -/
def isInfinite (x : Single) : Bool :=
  match x.view with
  | .infinite _ => true
  | _ => false

/-- Whether the sign bit is set; zeros carry one too. -/
def isNegative (x : Single) : Bool := 2 ^ 31 ≤ x.bits.toNat

/-- Positive or negative zero. -/
def isZero (x : Single) : Bool := x.bits.toNat % 2 ^ 31 = 0

/-! ### Sign -/

/-- The same number with its sign bit cleared. -/
def abs (x : Single) : Single := ⟨UInt32.ofNat (x.bits.toNat % 2 ^ 31)⟩

/-- The same number with its sign bit turned. -/
def neg (x : Single) : Single := ⟨UInt32.ofNat ((x.bits.toNat + 2 ^ 31) % 2 ^ 32)⟩

instance : Neg Single := ⟨neg⟩

/-! ### Order -/

/-- The place of a number on the line: both zeros have place zero. -/
private def place (x : Single) : Int :=
  let m : Int := (x.bits.toNat % 2 ^ 31 : Nat)
  if x.isNegative then -m else m

/-- Less than; false when either side is not a number. -/
def lt (x y : Single) : Bool := !x.isNaN && !y.isNaN && x.place < y.place

/-- Less than or equal; false when either side is not a number. -/
def le (x y : Single) : Bool := !x.isNaN && !y.isNaN && x.place ≤ y.place

/-- Equality of numbers: the zeros are equal, and nothing equals not-a-number. -/
def beq (x y : Single) : Bool := !x.isNaN && !y.isNaN && x.place = y.place

instance : BEq Single := ⟨beq⟩

/-! ### Arithmetic -/

private def signed (negative : Bool) (m : Nat) : Int := if negative then -(m : Int) else m

/-- The sum, rounded once.  An exact cancellation is positive zero. -/
def add (x y : Single) : Single :=
  match x.view, y.view with
  | .nan, _ => nan
  | _, .nan => nan
  | .infinite s, .infinite t => if s = t then infinity s else nan
  | .infinite s, _ => infinity s
  | _, .infinite t => infinity t
  | .finite s m e, .finite t n f =>
    let u := min e f
    let total := signed s (m <<< (e - u).toNat) + signed t (n <<< (f - u).toNat)
    if total = 0 then zeroOf (s && t) else ofDyadic (total < 0) total.natAbs u

/-- The difference, rounded once. -/
def sub (x y : Single) : Single := add x (neg y)

/-- The product, rounded once. -/
def mul (x y : Single) : Single :=
  match x.view, y.view with
  | .nan, _ => nan
  | _, .nan => nan
  | .infinite s, .infinite t => infinity (s ^^ t)
  | .infinite s, .finite t n _ => if n = 0 then nan else infinity (s ^^ t)
  | .finite s m _, .infinite t => if m = 0 then nan else infinity (s ^^ t)
  | .finite s m e, .finite t n f => ofDyadic (s ^^ t) (m * n) (e + f)

/-- The quotient, rounded once; a nonzero number over zero is infinite. -/
def div (x y : Single) : Single :=
  match x.view, y.view with
  | .nan, _ => nan
  | _, .nan => nan
  | .infinite _, .infinite _ => nan
  | .infinite s, .finite t _ _ => infinity (s ^^ t)
  | .finite s _ _, .infinite t => zeroOf (s ^^ t)
  | .finite s m e, .finite t n f =>
    if n = 0 then (if m = 0 then nan else infinity (s ^^ t))
    else
      let u := e - f
      if 0 ≤ u then ofRatio (s ^^ t) (m <<< u.toNat) n else ofRatio (s ^^ t) m (n <<< (-u).toNat)

/-- The remainder of the division truncated toward zero; it is exact and has the sign of `x`. -/
def rem (x y : Single) : Single :=
  match x.view, y.view with
  | .nan, _ => nan
  | _, .nan => nan
  | .infinite _, _ => nan
  | .finite .., .infinite _ => x
  | .finite s m e, .finite _ n f =>
    if n = 0 then nan
    else
      let u := min e f
      ofDyadic s ((m <<< (e - u).toNat) % (n <<< (f - u).toNat)) u

instance : Add Single := ⟨add⟩
instance : Sub Single := ⟨sub⟩
instance : Mul Single := ⟨mul⟩
instance : Div Single := ⟨div⟩
instance : Mod Single := ⟨rem⟩

/-- The remainder made nonnegative by one correction of `|y|`. -/
def remEuclid (x y : Single) : Single :=
  let r := x % y
  if r.lt 0 then r + y.abs else r

/-- The nonnegative square root, rounded once.  Two spare bits and a sticky bit decide the
rounding. -/
def sqrt (x : Single) : Single :=
  match x.view with
  | .nan => nan
  | .infinite s => if s then nan else infinity false
  | .finite s m e =>
    if m = 0 then x
    else if s then nan
    else
      let shift : Nat := if e % 2 = 0 then 60 else 61
      let n := m <<< shift
      let r := floorRoot n
      let sticky := if r * r = n then 0 else 1
      ofDyadic false (2 * r + sticky) ((e - shift) / 2 - 1)
where
  /-- Integer square root by Newton's iteration from above. -/
  floorRoot (n : Nat) : Nat := iterate 64 n (1 <<< (n.log2 / 2 + 1))
  iterate : Nat → Nat → Nat → Nat
    | 0, _, g => g
    | k + 1, n, g =>
      let h := (g + n / g) / 2
      if h < g then iterate k n h else g

/-! ### Whole numbers -/

/-- The part before the point. -/
def trunc (x : Single) : Single :=
  match x.view with
  | .finite s m e => if 0 ≤ e then x else ofRatio s (m >>> (-e).toNat) 1
  | _ => x

/-- The part after the point, with the sign of `x`. -/
def fract (x : Single) : Single := x - x.trunc

/-- Whether a finite number has a part after the point that is not zero. -/
def isWhole (x : Single) : Bool := x.fract == 0

/-- The largest whole number that is not above `x`. -/
def floor (x : Single) : Single :=
  match x.view with
  | .finite s m e =>
    if 0 ≤ e then x
    else
      let q := m >>> (-e).toNat
      let inexact := q <<< (-e).toNat ≠ m
      ofRatio s (if s ∧ inexact then q + 1 else q) 1
  | _ => x

/-- The smallest whole number that is not below `x`. -/
def ceil (x : Single) : Single := neg (floor (neg x))

/-- The nearest whole number, halves away from zero. -/
def round (x : Single) : Single :=
  match x.view with
  | .finite s m e =>
    if 0 ≤ e then x
    else
      let d := 1 <<< (-e).toNat
      ofRatio s ((2 * m + d) / (2 * d)) 1
  | _ => x

/-- The part before the point as an integer, held within `lo` and `hi`; not-a-number gives zero. -/
def toInt (x : Single) (lo hi : Int) : Int :=
  match x.view with
  | .nan => 0
  | .infinite s => if s then lo else hi
  | .finite s m e =>
    let q := if 0 ≤ e then m <<< e.toNat else m >>> (-e).toNat
    max lo (min hi (signed s q))

end Single

end FilterScript

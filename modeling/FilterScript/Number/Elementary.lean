import FilterScript.Number.Single

/-
Elementary functions of single-precision numbers.

These are the platform's own approximations.  They are the only operations on numbers whose value
this library does not define itself; everything else about a `Single` is computed on integers.
-/
namespace FilterScript.Single

private def through (f : Float32 → Float32) (x : Single) : Single :=
  let y := f (Float32.ofBits x.bits)
  if y.isNaN then nan else ⟨y.toBits⟩

/-- The sine of an angle in radians. -/
def sin : Single → Single := through Float32.sin

/-- The cosine of an angle in radians. -/
def cos : Single → Single := through Float32.cos

/-- The tangent of an angle in radians. -/
def tan : Single → Single := through Float32.tan

/-- The angle whose sine is given. -/
def asin : Single → Single := through Float32.asin

/-- The angle whose cosine is given. -/
def acos : Single → Single := through Float32.acos

/-- The angle whose tangent is given. -/
def atan : Single → Single := through Float32.atan

/-- The angle of a point, from its ordinate and its abscissa. -/
def atan2 (y x : Single) : Single :=
  through (fun y => Float32.atan2 y (Float32.ofBits x.bits)) y

/-- The hyperbolic sine. -/
def sinh : Single → Single := through Float32.sinh

/-- The hyperbolic cosine. -/
def cosh : Single → Single := through Float32.cosh

/-- The hyperbolic tangent. -/
def tanh : Single → Single := through Float32.tanh

/-- The inverse of `sinh`. -/
def asinh : Single → Single := through Float32.asinh

/-- The inverse of `cosh`. -/
def acosh : Single → Single := through Float32.acosh

/-- The inverse of `tanh`. -/
def atanh : Single → Single := through Float32.atanh

/-- The exponential function. -/
def exp : Single → Single := through Float32.exp

/-- The natural logarithm. -/
def ln : Single → Single := through Float32.log

/-- The decimal logarithm. -/
def log10 : Single → Single := through Float32.log10

/-- A power with a real exponent. -/
def pow (x y : Single) : Single :=
  through (fun x => Float32.pow x (Float32.ofBits y.bits)) x

end FilterScript.Single

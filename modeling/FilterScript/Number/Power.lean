/-
Powers of whole numbers.

All bounds of this library are powers of two or of ten.  `b ^ n` is the power of the core
library, for natural numbers and integers alike, also where a theory beside it gives numbers
the power of a monoid: a definition means the same wherever it is read.
-/
namespace FilterScript

/-- The power of the core library, before any other. -/
@[default_instance 20000]
instance (priority := 2000) corePower {α : Type} [NatPow α] : Pow α Nat := instPowNat

end FilterScript

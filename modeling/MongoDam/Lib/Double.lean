import Mathlib.Algebra.Group.Int.Defs
import Mathlib.Algebra.GroupWithZero.Nat

/-!
# Doubles as bit patterns

The IEEE 754 binary64 format read from its 64 bits: one sign bit, eleven exponent
bits and fifty-two fraction bits. Comparisons with integers and truncation are
computed exactly, without floating-point arithmetic.
-/

namespace MongoDam.Lib.Double

/-- The sign bit. -/
def negative (bits : ℕ) : Bool := bits / 2 ^ 63 % 2 = 1

/-- The biased exponent. -/
def exponent (bits : ℕ) : ℕ := bits / 2 ^ 52 % 2 ^ 11

/-- The stored fraction. -/
def fraction (bits : ℕ) : ℕ := bits % 2 ^ 52

/-- Neither an infinity nor a NaN. -/
def isFinite (bits : ℕ) : Bool := exponent bits ≠ 2047

/-- Positive or negative zero. -/
def isZero (bits : ℕ) : Bool := bits % 2 ^ 63 = 0

/-- The significand of a finite double, with its implicit leading bit. -/
def significand (bits : ℕ) : ℕ :=
  if exponent bits = 0 then fraction bits else 2 ^ 52 + fraction bits

/-- The exponent of two by which the significand is scaled, offset by 1075. -/
def scale (bits : ℕ) : ℕ := max (exponent bits) 1

/-- The absolute value of a finite double, rounded toward zero. -/
def truncAbs (bits : ℕ) : ℕ :=
  if 1075 ≤ scale bits then significand bits * 2 ^ (scale bits - 1075)
  else significand bits / 2 ^ (1075 - scale bits)

/-- A finite double has no fractional part. -/
def isIntegral (bits : ℕ) : Bool :=
  1075 ≤ scale bits || significand bits % 2 ^ (1075 - scale bits) = 0

/-- The absolute value of a finite double is at most a natural number. -/
def absLe (bits bound : ℕ) : Bool :=
  if 1075 ≤ scale bits then significand bits * 2 ^ (scale bits - 1075) ≤ bound
  else significand bits ≤ bound * 2 ^ (1075 - scale bits)

/-- Conversion to a 32-bit integer by truncation, for values in its range. -/
def toI32? (bits : ℕ) : Option ℤ :=
  if isFinite bits ∧ absLe bits (if negative bits then 2 ^ 31 else 2 ^ 31 - 1) then
    some (if negative bits then -(truncAbs bits : ℤ) else truncAbs bits)
  else none

/-- Conversion to a 64-bit natural number, for integral values from zero to
`2 ^ 64`; the upper end saturates. -/
def toU64? (bits : ℕ) : Option ℕ :=
  if isFinite bits ∧ (!negative bits || isZero bits) ∧ isIntegral bits ∧ absLe bits (2 ^ 64) then
    some (min (truncAbs bits) (2 ^ 64 - 1))
  else none

/-- The text of a double that is not finite. -/
def nonFiniteText (bits : ℕ) : String :=
  if fraction bits ≠ 0 then "NaN" else if negative bits then "-inf" else "inf"

end MongoDam.Lib.Double

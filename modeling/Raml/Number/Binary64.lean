/-!
# Binary floating point numbers of 64 bits

A number is given by the three fields of its encoding, so two numbers are equal exactly when they
are written alike. The value of a finite number is a whole number of units, one unit being the least
positive number `2 ^ -1074`. Arithmetic is exact on natural numbers and rounds once, to the nearest
number, a tie going to the even fraction.
-/
namespace Raml

/-- A number by its sign, its biased exponent and its fraction. -/
structure Binary64 where
  /-- Whether the sign bit is set. -/
  negative : Bool
  /-- The biased exponent. -/
  exponent : Fin 2048
  /-- The fraction bits. -/
  fraction : Fin 4503599627370496
  deriving DecidableEq, Repr

/-- The quotient rounded to the nearest natural, a tie going to the even one. -/
def roundDiv (numerator denominator : Nat) : Nat :=
  let quotient := numerator / denominator
  let remainder := numerator % denominator
  if 2 * remainder < denominator then quotient
  else if denominator < 2 * remainder then quotient + 1
  else quotient + quotient % 2

namespace Binary64

/-- The number of values that the fraction takes. -/
def fractions : Nat := 4503599627370496

/-- The not-a-number value. -/
def nan : Binary64 := ⟨false, 2047, 2251799813685248⟩

/-- An infinity. -/
def infinity (negative : Bool) : Binary64 := ⟨negative, 2047, 0⟩

/-- A zero. -/
def zero (negative : Bool) : Binary64 := ⟨negative, 0, 0⟩

/-- Whether this is no number. -/
def isNaN (number : Binary64) : Bool := number.exponent = 2047 && number.fraction ≠ 0

/-- Whether this is a number that is not infinite. -/
def isFinite (number : Binary64) : Bool := number.exponent ≠ 2047

/-- Whether this is a zero of either sign. -/
def isZero (number : Binary64) : Bool := number.exponent = 0 && number.fraction = 0

/-- The number whose exponent and fraction fields, read as one natural, are given; a natural beyond
the greatest finite number gives an infinity. -/
def ofMagnitude (negative : Bool) (fields : Nat) : Binary64 :=
  if inside : fields / 4503599627370496 < 2047 then
    ⟨negative, ⟨fields / 4503599627370496, by omega⟩,
      ⟨fields % 4503599627370496, Nat.mod_lt _ (by decide)⟩⟩
  else infinity negative

/-- The significand of a finite number, its hidden bit included. -/
def significand (number : Binary64) : Nat :=
  if number.exponent = 0 then number.fraction.val else number.fraction.val + fractions

/-- The power of two that one step of the significand is worth, in units. -/
def scale (number : Binary64) : Nat := number.exponent.val - 1

/-- The magnitude of a finite number in units. -/
def units (number : Binary64) : Nat := number.significand * Nat.pow 2 number.scale

/-- The units of the number one. -/
def one : Nat := Nat.pow 2 1074

/-- The number nearest to a quotient of naturals. -/
def ofRatio (negative : Bool) (numerator denominator : Nat) : Binary64 :=
  let dividend := numerator * one
  let shift := (dividend / denominator).log2 + 1 - 53
  ofMagnitude negative (shift * fractions + roundDiv dividend (denominator * Nat.pow 2 shift))

/-- The number nearest to an integer. -/
def ofInt (value : Int) : Binary64 := ofRatio (value < 0) value.natAbs 1

/-- The number nearest to `digits * 10 ^ exponent`. Beyond the exponents of any number the answer
is an infinity or a zero, so no power of ten is formed there. -/
def ofDecimal (negative : Bool) (digits : Nat) (exponent : Int) : Binary64 :=
  if digits = 0 then zero negative
  else match exponent with
    | .ofNat power =>
      if 400 < power then infinity negative else ofRatio negative (digits * Nat.pow 10 power) 1
    | .negSucc power =>
      if digits.log2 + 401 < power + 1 then zero negative
      else ofRatio negative digits (Nat.pow 10 (power + 1))

/-- The product of two finite numbers. -/
def mul (left right : Binary64) : Binary64 :=
  ofRatio (left.negative != right.negative) (left.units * right.units) (one * one)

/-- The quotient of two finite numbers, the divisor not zero. -/
def div (left right : Binary64) : Binary64 :=
  ofRatio (left.negative != right.negative) left.units right.units

/-- The number of opposite sign. -/
def neg (number : Binary64) : Binary64 := { number with negative := !number.negative }

/-- The integer that a finite number is, when it is one. -/
def toInt? (number : Binary64) : Option Int :=
  if number.isFinite && number.units % one = 0 then
    let magnitude : Int := number.units / one
    some (if number.negative then -magnitude else magnitude)
  else none

/-- Equality of values: the zeros are equal, and so are all values that are no number. -/
def sameValue (left right : Binary64) : Bool :=
  (left.isNaN && right.isNaN) || (left.isZero && right.isZero) || left = right

end Binary64

end Raml

/-!
# Double-Precision Numbers

The numbers of the IEEE 754 format binary64, as their 64 bits: the sign, eleven
bits of exponent and 52 bits of fraction. A finite number is
`± significand * 2 ^ exponent` for the two naturals read off the bits.

Every number is made by rounding a quotient of naturals to the nearest number,
a tie to the one with the even significand. There is no other arithmetic: a
product and a quotient of two finite numbers are rounded the same way from their
exact values.

## Main definitions

* `Binary64`: A number, by its bits.
* `Binary64.significand`, `Binary64.exponent`: The two parts of a magnitude.
* `Binary64.ofRatio`: The number nearest to a quotient.
* `Binary64.sameNumber`: Equality in which NaN is itself and both zeros are one.
* `Binary64.mul`, `Binary64.div`: Product and quotient of finite numbers.
-/

namespace TypeSketch

/-- A number of the format binary64, by its bits. -/
structure Binary64 where
  bits : UInt64
deriving Repr, DecidableEq

namespace Binary64

/-- The sign bit. -/
def isNegative (x : Binary64) : Bool :=
  0x8000000000000000 ≤ x.bits.toNat

/-- The bits of the exponent, from 0 to 2047. -/
def biasedExponent (x : Binary64) : Nat :=
  x.bits.toNat / 0x10000000000000 % 2048

/-- The bits of the fraction. -/
def fraction (x : Binary64) : Nat :=
  x.bits.toNat % 0x10000000000000

def isNaN (x : Binary64) : Bool :=
  x.biasedExponent = 2047 && x.fraction ≠ 0

def isInfinite (x : Binary64) : Bool :=
  x.biasedExponent = 2047 && x.fraction = 0

def isZero (x : Binary64) : Bool :=
  x.biasedExponent = 0 && x.fraction = 0

/-- The significand of a finite number, with the leading bit that a normal number
    does not store. -/
def significand (x : Binary64) : Nat :=
  if x.biasedExponent = 0 then x.fraction else 0x10000000000000 + x.fraction

/-- The power of two that the significand of a finite number is multiplied by. -/
def exponent (x : Binary64) : Int :=
  if x.biasedExponent = 0 then -1074 else (x.biasedExponent : Int) - 1075

/-- The number with this sign and these other bits. -/
def ofMagnitude (negative : Bool) (magnitude : Nat) : Binary64 :=
  ⟨UInt64.ofNat ((if negative then 0x8000000000000000 else 0) + magnitude)⟩

/-- The canonical NaN. -/
def nan : Binary64 := ofMagnitude false 0x7FF8000000000000

def infinity (negative : Bool) : Binary64 := ofMagnitude negative 0x7FF0000000000000

def zero (negative : Bool) : Binary64 := ofMagnitude negative 0

/-- Equality of numbers: NaN is itself, and both zeros are one number. -/
def sameNumber (x y : Binary64) : Bool :=
  x.bits = y.bits || (x.isNaN && y.isNaN) || (x.isZero && y.isZero)

/-- A quotient of naturals rounded to a natural, a tie to the even one. -/
def roundToEven (num den : Nat) : Nat :=
  let quotient := num / den
  let twice := 2 * (num % den)
  if twice < den ∨ (twice = den ∧ quotient % 2 = 0) then quotient else quotient + 1

/-- The quotient `num / den` over the power of two `2 ^ exponent`, as a quotient. -/
def overPowerOfTwo (num den : Nat) (exponent : Int) : Nat × Nat :=
  if 0 ≤ exponent then (num, den * Nat.pow 2 exponent.toNat)
  else (num * Nat.pow 2 (-exponent).toNat, den)

/-- The exponent at which the significand of `num / den` has 53 bits, or the least
    exponent of the format if that is larger. -/
def exponentOfRatio (num den : Nat) : Int :=
  -- The logarithms are rounded down, so the estimate is at most one too small.
  let estimate := max ((num.log2 : Int) - den.log2 - 53) (-1074)
  let (n, d) := overPowerOfTwo num den estimate
  if n / d < 0x20000000000000 then estimate else estimate + 1

/-- The number nearest to `num / den`, a tie to the one with the even significand,
    and an infinity from half a unit above the largest number on. The bits of the
    exponent stand directly above the fraction, so a significand that rounding
    has made one bit longer carries into them. -/
def ofRatio (negative : Bool) (num den : Nat) : Binary64 :=
  if num = 0 then zero negative
  else
    let exponent := exponentOfRatio num den
    let (n, d) := overPowerOfTwo num den exponent
    let magnitude := (exponent + 1074).toNat * 0x10000000000000 + roundToEven n d
    if 0x7FF0000000000000 ≤ magnitude then infinity negative else ofMagnitude negative magnitude

/-- The magnitude of a finite number as a quotient. -/
def ratio (x : Binary64) : Nat × Nat :=
  if 0 ≤ x.exponent then (x.significand * Nat.pow 2 x.exponent.toNat, 1)
  else (x.significand, Nat.pow 2 (-x.exponent).toNat)

/-- The product of two finite numbers. -/
def mul (x y : Binary64) : Binary64 :=
  ofRatio (x.isNegative != y.isNegative) (x.ratio.1 * y.ratio.1) (x.ratio.2 * y.ratio.2)

/-- The quotient of two finite numbers, the second of which is not zero. -/
def div (x y : Binary64) : Binary64 :=
  ofRatio (x.isNegative != y.isNegative) (x.ratio.1 * y.ratio.2) (x.ratio.2 * y.ratio.1)

/-- The number with the other sign. -/
def neg (x : Binary64) : Binary64 :=
  ofMagnitude (!x.isNegative) (x.bits.toNat % 0x8000000000000000)

/-- The number nearest to `digits * 10 ^ exponent`. -/
def ofDecimal (negative : Bool) (digits : Nat) (exponent : Int) : Binary64 :=
  if 0 ≤ exponent then ofRatio negative (digits * Nat.pow 10 exponent.toNat) 1
  else ofRatio negative digits (Nat.pow 10 (-exponent).toNat)

end Binary64

end TypeSketch

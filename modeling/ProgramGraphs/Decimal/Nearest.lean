import ProgramGraphs.Decimal.Shortest

/-!
# The nearest floating-point number

A decimal is read as the double closest to it; of two equally close ones, as the one with
the even last place.  A decimal beyond all doubles is read as infinity.  Everything here
is exact arithmetic on natural numbers.
-/

namespace ProgramGraphs.Decimal

/-- The whole number nearest to a quotient; of two equally near ones, the even one. -/
def roundedQuotient (numerator denominator : Nat) : Nat :=
  let quotient := numerator / denominator
  let twice := 2 * (numerator % denominator)
  if twice < denominator then quotient
  else if denominator < twice then quotient + 1
  else quotient + quotient % 2

/-- A quotient divided by a power of two, as a numerator and a denominator. -/
def shifted (numerator denominator : Nat) (power : Int) : Nat × Nat :=
  if 0 ≤ power then (numerator, denominator * Nat.pow 2 power.toNat)
  else (numerator * Nat.pow 2 (-power).toNat, denominator)

/-- The power of two of the last place of the double nearest to a positive quotient. -/
def lastPlace (numerator denominator : Nat) : Int :=
  let guess : Int := (numerator.log2 : Int) - denominator.log2 - 53
  let (top, bottom) := shifted numerator denominator guess
  let place := if 2 * implicitBit * bottom ≤ top then guess + 1 else guess
  if place < -1074 then -1074 else place

/-- The bits of positive infinity, which follow those of the largest double. -/
def infinityBits : Nat := 2047 * implicitBit

/-- The bits of the double nearest to a positive quotient.  Rounding up to the next power of
two carries into the exponent, and rounding up beyond the largest double gives infinity. -/
def quotientBits (numerator denominator : Nat) : Nat :=
  let place := lastPlace numerator denominator
  let (top, bottom) := shifted numerator denominator place
  min infinityBits ((place + 1074).toNat * implicitBit + roundedQuotient top bottom)

/-- The bits of the double nearest to a decimal that is not negative. -/
def Digits.nearestBits (decimal : Digits) : Nat :=
  let leading := decimal.exponent + (Nat.toDigits 10 decimal.digits).length
  if decimal.digits = 0 ∨ leading < -330 then 0
  else if 310 < leading then infinityBits
  else if 0 ≤ decimal.exponent then
    quotientBits (decimal.digits * Nat.pow 10 decimal.exponent.toNat) 1
  else quotientBits decimal.digits (Nat.pow 10 (-decimal.exponent).toNat)

/-- The double nearest to a decimal, with a sign. -/
def Digits.nearest (decimal : Digits) (negative : Bool) : Float :=
  Float.ofBits (UInt64.ofNat (decimal.nearestBits + if negative then 0x8000000000000000 else 0))

end ProgramGraphs.Decimal

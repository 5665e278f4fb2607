import ProgramGraphs.Json.Document

/-!
# The values of JSON numbers

A number without fraction and exponent that fits 64 bits is an integer.  Any other number
is read as a double, in two steps that each round: as many leading digits as fit an
unsigned word become the significand, and the significand is then multiplied or divided
by a power of ten.  Digits that do not fit only shift the significand when they stand
before the point.  Minus zero is a double.
-/

namespace ProgramGraphs.Json

/-- The parts of a number as they are written. -/
structure Numeral where
  negative : Bool := false
  /-- The digits before the point. -/
  whole : List Nat
  /-- The digits after the point, when there is one. -/
  fraction : Option (List Nat) := none
  /-- The sign of the exponent and its digits, when there is one. -/
  exponent : Option (Bool × List Nat) := none
  deriving Repr

namespace Numeral

/-- The largest unsigned word. -/
def largest : Nat := 0xFFFFFFFFFFFFFFFF

/-- Appends digits to a significand as long as it fits a word, and counts those that are
left. -/
def significand (start : Nat) : List Nat → Nat × Nat
  | [] => (start, 0)
  | digit :: rest =>
    if start * 10 + digit ≤ largest then significand (start * 10 + digit) rest
    else (start, rest.length + 1)

/-- Divides by the largest power of ten as often as the exponent asks for, and then by the
rest of the exponent. -/
def shrink (value : Float) (exponent : Nat) : Float :=
  if exponent ≤ 308 then value / Float.ofScientific 1 false exponent
  else if value == 0.0 then value
  else shrink (value / 1e308) (exponent - 308)
termination_by exponent
decreasing_by omega

/-- The double that a significand and an exponent give, unless it is too large. -/
def scale (significand : Nat) (exponent : Int) : Option Float :=
  let value := Float.ofNat significand
  if exponent < 0 then some (shrink value exponent.natAbs)
  else if 308 < exponent then if significand = 0 then some value else none
  else
    let product := value * Float.ofScientific 1 false exponent.toNat
    if product.isInf then none else some product

/-- The value of a row of digits. -/
def digitsValue (digits : List Nat) : Nat := digits.foldl (fun value digit => value * 10 + digit) 0

/-- Exponents stay within 32 bits. -/
def clamp (exponent : Int) : Int :=
  if exponent < -0x80000000 then -0x80000000
  else if 0x7FFFFFFF < exponent then 0x7FFFFFFF
  else exponent

/-- The double that a numeral is read as, without its sign, unless it is too large. -/
def magnitude (numeral : Numeral) : Option Float :=
  let (whole, dropped) := significand 0 numeral.whole
  let fraction := numeral.fraction.getD []
  let (digits, unread) := significand whole fraction
  let shift : Int := (dropped : Int) - ((fraction.length - unread : Nat) : Int)
  match numeral.exponent with
  | none => scale digits shift
  | some (negative, power) =>
    let power := digitsValue power
    if power < 0x80000000 then
      scale digits (clamp (if negative then shift - power else shift + power))
    else if digits = 0 ∨ negative then some 0.0
    else none

/-- The integer that a numeral without fraction and exponent stands for, when it fits. -/
def integer? (numeral : Numeral) : Option Int :=
  if numeral.fraction.isNone && numeral.exponent.isNone then
    let value := digitsValue numeral.whole
    if numeral.negative then
      if value ≠ 0 ∧ value ≤ 0x8000000000000000 then some (-(value : Int)) else none
    else if value ≤ largest then some value else none
  else none

/-- The value of a numeral. -/
def toNode (numeral : Numeral) : Node :=
  match numeral.integer? with
  | some value => .integer value
  | none =>
    match numeral.magnitude with
    | some value => .float (if numeral.negative then -value else value)
    | none => .valueless

end Numeral

end ProgramGraphs.Json

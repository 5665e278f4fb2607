import ProgramGraphs.Decimal.Shortest

/-!
# Layout of decimal numbers

How the digits of a number become text: *plainly*, with a point among the digits and at
least one digit on each side of it, or in *exponent* form, with one digit before the
point and the power of ten after an `e`.  A `Layout` collects the choices that one
output format makes.
-/

namespace ProgramGraphs.Decimal

/-- The choices of an output format. -/
structure Layout where
  /-- A number below `10 ^ plainFrom` in magnitude is written in exponent form. -/
  plainFrom : Int
  /-- A number of magnitude `10 ^ plainBelow` or more is written in exponent form. -/
  plainBelow : Int
  /-- Whether a positive exponent has a sign. -/
  signedExponent : Bool
  tie : Tie
  notANumber : String
  infinity : String
  /-- The text of negative infinity. -/
  negativeInfinity : String

namespace Layout

/-- Numbers in JSON documents, which have no form for a number that is not finite. -/
def json : Layout :=
  { plainFrom := -5, plainBelow := 16, signedExponent := true, tie := .toEven
    notANumber := "null", infinity := "null", negativeInfinity := "null" }

/-- Numbers in other output. -/
def display : Layout :=
  { plainFrom := -4, plainBelow := 16, signedExponent := false, tie := .up
    notANumber := "NaN", infinity := "inf", negativeInfinity := "-inf" }

/-- Numbers in reports about a configuration file, which are always plain. -/
def plain : Layout :=
  { display with plainFrom := -400, plainBelow := 400 }

end Layout

/-- The decimal numeral of a natural number. -/
def numeral (n : Nat) : List Char := Nat.toDigits 10 n

/-- A run of zeros. -/
def zeros (count : Nat) : List Char := List.replicate count '0'

namespace Digits

/-- Digits with the point at the place given by the exponent. -/
def renderPlain (decimal : Digits) : List Char :=
  let shown := numeral decimal.digits
  if 0 ≤ decimal.exponent then shown ++ zeros decimal.exponent.toNat ++ ['.', '0']
  else
    let places := (-decimal.exponent).toNat
    if places < shown.length then
      shown.take (shown.length - places) ++ '.' :: shown.drop (shown.length - places)
    else '0' :: '.' :: zeros (places - shown.length) ++ shown

/-- The power of ten of the leading digit. -/
def leading (decimal : Digits) : Int := decimal.exponent + (numeral decimal.digits).length - 1

/-- Digits with the point after the first one, and the power of ten. -/
def renderExponent (decimal : Digits) (signed : Bool) : List Char :=
  let shown := numeral decimal.digits
  let power := decimal.leading
  let sign := if power < 0 then ['-'] else if signed then ['+'] else []
  let fraction := if shown.length ≤ 1 then [] else '.' :: shown.drop 1
  shown.take 1 ++ fraction ++ 'e' :: sign ++ numeral power.natAbs

/-- The text of a positive decimal. -/
def render (decimal : Digits) (layout : Layout) : List Char :=
  if layout.plainFrom ≤ decimal.leading ∧ decimal.leading < layout.plainBelow then
    decimal.renderPlain
  else decimal.renderExponent layout.signedExponent

end Digits

/-- The text of a reading. -/
def Reading.render (layout : Layout) : Reading → String
  | .notANumber => layout.notANumber
  | .infinite negative => if negative then layout.negativeInfinity else layout.infinity
  | .zero negative => if negative then "-0.0" else "0.0"
  | .nonzero negative number =>
    let text := (number.shortest layout.tie).render layout
    String.ofList (if negative then '-' :: text else text)

/-- The text of a floating-point number: its shortest decimal, laid out. -/
def render (layout : Layout) (number : Float) : String :=
  (Reading.ofBits number.toBits).render layout

end ProgramGraphs.Decimal

import ProgramGraphs.Decimal.Nearest
import ProgramGraphs.Toml.Item
import ProgramGraphs.Toml.Scan

/-!
# Numbers of TOML documents

Digits may have single underscores between them.  An integer must fit a signed 64-bit
word.  A decimal integer has no leading zero; one in another base has a mark for its base
and no sign.  A floating-point number has a fraction, an exponent, or both, and may be
infinite or no number at all; one that is too large and positive is refused.
-/

namespace ProgramGraphs.Toml.Number

open Scan (char satisfy attempt word)

/-- A digit of a base. -/
def isDigitOf (base : Nat) (c : Char) : Bool :=
  match base with
  | 16 => c.isDigit || ('a' ≤ c && c ≤ 'f') || ('A' ≤ c && c ≤ 'F')
  | 10 => c.isDigit
  | 8 => '0' ≤ c && c ≤ '7'
  | _ => c == '0' || c == '1'

/-- The value of a digit. -/
def digitValue (c : Char) : Nat :=
  if c.isDigit then c.toNat - '0'.toNat
  else if 'a' ≤ c then c.toNat - 'a'.toNat + 10
  else c.toNat - 'A'.toNat + 10

/-- The number that digits of a base stand for. -/
def valueOf (base : Nat) (digits : List Char) : Nat :=
  digits.foldl (fun value digit => value * base + digitValue digit) 0

/-- The digits that go on with a number, without underscores. -/
def moreDigits (base : Nat) : List Char → List Char × List Char
  | [] => ([], [])
  | '_' :: c :: rest =>
    if isDigitOf base c then
      let (digits, after) := moreDigits base rest
      (c :: digits, after)
    else ([], '_' :: c :: rest)
  | c :: rest =>
    if isDigitOf base c then
      let (digits, after) := moreDigits base rest
      (c :: digits, after)
    else ([], c :: rest)

/-- Takes digits of a base. -/
def digits (base : Nat) : Scan (List Char) := do
  let first ← satisfy (isDigitOf base)
  let rest ← fun text => some (moreDigits base text)
  return first :: rest

/-- Takes a sign; the answer is whether it is a minus sign. -/
def sign : Scan Bool
  | '+' :: rest => some (false, rest)
  | '-' :: rest => some (true, rest)
  | text => some (false, text)

/-- Takes decimal digits without a leading zero. -/
def wholeDigits : Scan (List Char)
  | '0' :: rest => some (['0'], rest)
  | text => digits 10 text

/-- The word of a sign and a magnitude, when it fits. -/
def word64? (negative : Bool) (magnitude : Nat) : Option Int :=
  if negative then if magnitude ≤ 0x8000000000000000 then some (-(magnitude : Int)) else none
  else if magnitude < 0x8000000000000000 then some magnitude else none

/-- Takes an integer. -/
def integer : Scan Int
  | '0' :: 'x' :: rest => based 16 rest
  | '0' :: 'o' :: rest => based 8 rest
  | '0' :: 'b' :: rest => based 2 rest
  | text => decimal text
where
  /-- Takes the digits of a base, after its mark. -/
  based (base : Nat) : Scan Int := do
    let taken ← digits base
    word64? false (valueOf base taken)
  /-- Takes a decimal integer. -/
  decimal : Scan Int := do
    let negative ← sign
    let taken ← wholeDigits
    word64? negative (valueOf 10 taken)

/-- Takes an exponent, with its mark. -/
def exponent : Scan Int := do
  let _ ← satisfy fun c => c == 'e' || c == 'E'
  let negative ← sign
  let taken ← digits 10
  let value : Int := valueOf 10 taken
  return if negative then -value else value

/-- Takes a fraction, with its point. -/
def fraction : Scan (List Char) := do
  char '.'
  digits 10

/-- Takes a number with a fraction or an exponent. -/
def decimalFloat : Scan Float := do
  let negative ← sign
  let whole ← wholeDigits
  let places ← attempt fraction
  let power ← if places.isSome then attempt exponent else some <$> exponent
  let places := places.getD []
  let decimal : Decimal.Digits :=
    ⟨valueOf 10 (whole ++ places), power.getD 0 - (places.length : Int)⟩
  let value := decimal.nearest negative
  if value.isInf && !negative then failure else return value

/-- Takes the name of an infinite number or of no number. -/
def namedFloat : Scan Float := do
  let negative ← sign
  let value ← (do word "inf".toList; return 1.0 / 0.0) <|> (do word "nan".toList; return 0.0 / 0.0)
  return if negative then -value else value

/-- Takes a floating-point number. -/
def float : Scan Float := decimalFloat <|> namedFloat

end ProgramGraphs.Toml.Number

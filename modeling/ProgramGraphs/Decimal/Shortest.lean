/-!
# The fewest digits that read back

A floating-point number stands for an interval of real numbers: those that round to it.
Its shortest decimal is the point of the coarsest decimal grid that meets the interval,
and of two such points the closer one.  Everything here is exact arithmetic on natural
numbers.

On a grid that meets the interval, one of the two grid points next to the number itself
lies in the interval, so only those two are tried on each grid.
-/

namespace ProgramGraphs.Decimal

/-- A positive floating-point number `mantissa * 2 ^ exponent` with the facts that fix the
interval it stands for. -/
structure Binary where
  mantissa : Nat
  exponent : Int
  /-- The next smaller number is only half as far away as the next larger one. -/
  narrowBelow : Bool
  deriving DecidableEq, Repr

/-- The decimal number `digits * 10 ^ exponent`. -/
structure Digits where
  digits : Nat
  exponent : Int
  deriving DecidableEq, Repr, Inhabited

/-- Which of two equally close decimals is taken. -/
inductive Tie where
  /-- The one with the even last digit. -/
  | toEven
  /-- The larger one. -/
  | up
  deriving DecidableEq, Repr

/-- What a pattern of 64 bits stands for. -/
inductive Reading where
  | notANumber
  | infinite (negative : Bool)
  | zero (negative : Bool)
  | nonzero (negative : Bool) (magnitude : Binary)
  deriving DecidableEq, Repr

/-- The bit that stands in front of the 52 bits of a fraction without being stored. -/
def implicitBit : Nat := 0x10000000000000

namespace Reading

/-- Reads the bits of a double: a sign bit, eleven bits of exponent, and the fraction. -/
def ofBits (bits : UInt64) : Reading :=
  let word := bits.toNat
  let negative := word / 0x8000000000000000 == 1
  let biased : Nat := word / implicitBit % 2048
  let fraction := word % implicitBit
  if biased = 2047 then
    if fraction = 0 then .infinite negative else .notANumber
  else if biased = 0 then
    if fraction = 0 then .zero negative
    else .nonzero negative ⟨fraction, -1074, false⟩
  else
    .nonzero negative ⟨implicitBit + fraction, (biased : Int) - 1075, fraction == 0 && 1 < biased⟩

end Reading

namespace Binary

/-- The lower end of the interval, in units of a quarter of the last place. -/
def low (number : Binary) : Nat :=
  if number.narrowBelow then 4 * number.mantissa - 1 else 4 * number.mantissa - 2

/-- The upper end of the interval, in the same units. -/
def high (number : Binary) : Nat := 4 * number.mantissa + 2

/-- The ends belong to the interval when the mantissa is even. -/
def closed (number : Binary) : Bool := number.mantissa % 2 == 0

/-- A grid of powers of ten against quarters of a last place: `unit` is the size of one
step of the grid and `scale` that of one quarter, in a common unit. -/
structure Ruler where
  unit : Nat
  scale : Nat

/-- The ruler for the grid of multiples of `10 ^ grid`. -/
def ruler (number : Binary) (grid : Int) : Ruler :=
  let quarter := number.exponent - 2
  { unit := Nat.pow 10 grid.toNat * Nat.pow 2 (-quarter).toNat
    scale := Nat.pow 2 quarter.toNat * Nat.pow 10 (-grid).toNat }

/-- Whether a point of the grid rounds to the number. -/
def readsBack (number : Binary) (ruler : Ruler) (point : Nat) : Bool :=
  let position := point * ruler.unit
  let bottom := number.low * ruler.scale
  let top := number.high * ruler.scale
  if number.closed then bottom ≤ position && position ≤ top
  else bottom < position && position < top

/-- The closer of two neighbouring grid points. -/
def closer (number : Binary) (ruler : Ruler) (tie : Tie) (below : Nat) : Nat :=
  let middle := (2 * below + 1) * ruler.unit
  let twice := 2 * (4 * number.mantissa) * ruler.scale
  if twice < middle then below
  else if middle < twice then below + 1
  else match tie with
    | .toEven => if below % 2 = 0 then below else below + 1
    | .up => below + 1

/-- The grid point that the number is written as on one grid, when there is one. -/
def pointOn? (number : Binary) (tie : Tie) (grid : Int) : Option Nat :=
  let ruler := number.ruler grid
  let below := 4 * number.mantissa * ruler.scale / ruler.unit
  match number.readsBack ruler below, number.readsBack ruler (below + 1) with
  | true, true => some (number.closer ruler tie below)
  | true, false => some below
  | false, true => some (below + 1)
  | false, false => none

/-- A power of ten that is larger than the number, by an estimate of its logarithm from
above. -/
def magnitude (number : Binary) : Int :=
  ((number.mantissa.log2 : Int) + number.exponent + 1) * 30103 / 100000 + 2

/-- The grids that are tried, the coarsest first. -/
def grids (number : Binary) : List Int :=
  (List.range 24).map fun (step : Nat) => number.magnitude - step

end Binary

/-- Moves trailing zeros of the digits into the exponent. -/
def Digits.trim (decimal : Digits) : Digits :=
  if h : decimal.digits ≠ 0 ∧ decimal.digits % 10 = 0 then
    trim ⟨decimal.digits / 10, decimal.exponent + 1⟩
  else decimal
termination_by decimal.digits
decreasing_by omega

/-- The exact decimal value, which needs no search. -/
def Binary.exact (number : Binary) : Digits :=
  { digits := number.mantissa * Nat.pow 2 number.exponent.toNat *
      Nat.pow 5 (-number.exponent).toNat
    exponent := -(-number.exponent).toNat }

/-- The shortest decimal of a positive number. -/
def Binary.shortest (number : Binary) (tie : Tie) : Digits :=
  let found := number.grids.findSome? fun grid =>
    (number.pointOn? tie grid).map fun point => (⟨point, grid⟩ : Digits)
  (found.getD number.exact).trim

end ProgramGraphs.Decimal

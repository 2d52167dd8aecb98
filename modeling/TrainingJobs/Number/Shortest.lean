import TrainingJobs.Number.Binary

/-!
# The shortest decimal that reads back

The decimals that round to a given float fill an interval around it. `shortest` looks at the decimal grids with one,
two, … seventeen significant digits and takes the first grid that has a point inside the interval: of the two grid
points next to the float, the nearer one that is inside. Everything is compared as natural numbers over one common
denominator.
-/

namespace TrainingJobs

/-- The digits of a positive decimal number and the place of its point: `0.d₁d₂… * 10 ^ point`. The last digit is not
zero. -/
structure DecimalDigits where
  digits : List Char
  point : Int
deriving DecidableEq, Repr

/-- The decimal digits of a natural number. -/
def decimalText (n : Nat) : List Char := Nat.toDigits 10 n

/-- The digits of `n * 10 ^ exponent`, without the zeros at its end. -/
def DecimalDigits.ofScaled (n : Nat) (exponent : Int) : DecimalDigits :=
  let text := decimalText n
  ⟨(text.reverse.dropWhile (· == '0')).reverse, text.length + exponent⟩

/-- The interval of the numbers that round to a float, over the common denominator `unit`: from `low` to `high` around
`center`, ends included when `closed`. -/
structure RoundingInterval where
  low : Nat
  center : Nat
  high : Nat
  unit : Nat
  closed : Bool

namespace RoundingInterval

/-- The rounding interval of a positive float. Below a power of two the floats lie twice as close, so there the lower
half of the interval is half as wide; the ends round to the float exactly when its significand is even. -/
def of (v : BinaryValue) : RoundingInterval :=
  let below := if v.significand = Nat.pow 2 52 ∧ v.exponent > -1074 then 1 else 2
  let scale := Nat.pow 2 (v.exponent - 2).toNat
  { low := (4 * v.significand - below) * scale
    center := 4 * v.significand * scale
    high := (4 * v.significand + 2) * scale
    unit := Nat.pow 2 (2 - v.exponent).toNat
    closed := v.significand % 2 == 0 }

/-- Whether a number over the same denominator lies in the interval. -/
def contains (i : RoundingInterval) (x : Nat) : Bool :=
  if i.closed then i.low ≤ x && x ≤ i.high else i.low < x && x < i.high

/-- The interval with all its numbers multiplied by `factor`. -/
def scaled (i : RoundingInterval) (factor : Nat) : RoundingInterval :=
  { i with low := i.low * factor, center := i.center * factor, high := i.high * factor }

/-- The place of the first digit of the center: `10 ^ (magnitude - 1) ≤ center / unit < 10 ^ magnitude`. -/
def magnitude (i : RoundingInterval) : Int :=
  if i.unit ≤ i.center then (decimalText (i.center / i.unit)).length
  else 1 - (decimalText ((i.unit - 1) / i.center)).length

/-- The nearer of the two multiples of `10 ^ exponent` next to the center, among those inside the interval. -/
def onGrid? (i : RoundingInterval) (tie : Tie) (exponent : Int) : Option Nat :=
  let j := i.scaled (Nat.pow 10 (-exponent).toNat)
  let step := i.unit * Nat.pow 10 exponent.toNat
  let floor := j.center / step
  let below := j.contains (floor * step)
  let above := j.contains ((floor + 1) * step)
  if below && above then some (roundQuotient j.center step tie)
  else if below then some floor
  else if above then some (floor + 1)
  else none

end RoundingInterval

/-- The fewest digits that read back as the positive float `v`, and of those the nearest to it. Seventeen digits always
do. -/
def shortest (tie : Tie) (v : BinaryValue) : DecimalDigits :=
  let interval := RoundingInterval.of v
  let top := interval.magnitude
  let found := (List.range 17).findSome? fun (n : Nat) =>
    let exponent := top - (n + 1)
    (interval.onGrid? tie exponent).map (DecimalDigits.ofScaled · exponent)
  found.getD ⟨['0'], 1⟩

end TrainingJobs

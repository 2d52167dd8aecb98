import TrainingJobs.Number.Shortest
import TrainingJobs.Number.Style

/-!
# Amounts with two places

An amount is the exact value of a float rounded to hundredths, a tie going to the even neighbour, and then without the
zeros at its end (`shortAmount`). `byteAmount` divides by 1024 until the value is below 1024 and adds the unit.
-/

namespace TrainingJobs

/-- Hundredths with a point before the last two digits. -/
def hundredthsText (hundredths : Nat) : String :=
  let fraction := hundredths % 100
  let pad := if fraction < 10 then "0" else ""
  toString (hundredths / 100) ++ "." ++ pad ++ toString fraction

/-- The value of a float with two places. The sign is kept when the value rounds to zero. -/
def twoPlaces (x : Float) : String :=
  match classify x with
  | .finite v =>
    let text := hundredthsText (roundQuotient (100 * v.numerator) v.denominator .toEven)
    if v.negative then "-" ++ text else text
  | .infinite negative => if negative then "-inf" else "inf"
  | .nan => "NaN"

/-- A text without the characters `c` at its end. -/
def dropEnd (c : Char) (text : List Char) : List Char :=
  (text.reverse.dropWhile (· == c)).reverse

/-- An amount with at most two places: the zeros at the end of `twoPlaces` go, and then the point. -/
def shortAmount (x : Float) : String :=
  String.ofList (dropEnd '.' (dropEnd '0' (twoPlaces x).toList))

/-- The binary units of amounts of bytes, smallest first. -/
def byteUnits : List String := ["Ki", "Mi", "Gi", "Ti", "Pi"]

/-- Divides by 1024 while the value reaches 1024 and a greater unit is left. -/
def scaleBytes (value : Float) (unit : String) : List String → Float × String
  | [] => (value, unit)
  | next :: greater =>
    if value.abs ≥ 1024 then scaleBytes (value / 1024) next greater else (value, unit)

/-- An amount of bytes in the largest binary unit that keeps the value above one. -/
def byteAmount (bytes : Float) : String :=
  let (value, unit) := scaleBytes bytes "" byteUnits
  shortAmount value ++ unit

end TrainingJobs

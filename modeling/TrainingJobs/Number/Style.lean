import TrainingJobs.Number.Shortest

/-!
# Spelling a float

All texts of the program give the shortest decimal that reads back. They differ in when an exponent is used, in how it
is marked, and in the words for the infinities: one `NumberStyle` each for JSON, for YAML and for messages.
-/

namespace TrainingJobs

/-- How a kind of text spells floats. -/
structure NumberStyle where
  /-- The least place of the decimal point that is written without an exponent. -/
  leastPoint : Option Int
  /-- The greatest place of the decimal point that is written without an exponent. -/
  greatestPoint : Option Int
  /-- What ends a whole number. -/
  wholeEnd : String
  /-- What stands before an exponent that is not negative. -/
  exponentMark : String
  /-- Where the shortest decimal goes when two are equally near. -/
  tie : Tie
  infinity : String
  negativeInfinity : String
  notANumber : String

namespace NumberStyle

/-- JSON: an exponent from `1e+16` on and below `0.00001`; what is not finite is `null`. -/
def json : NumberStyle :=
  { leastPoint := some (-4), greatestPoint := some 16, wholeEnd := ".0", exponentMark := "e+", tie := .toEven
    infinity := "null", negativeInfinity := "null", notANumber := "null" }

/-- YAML: an exponent where JSON has one, without a sign; what is not finite has a word of its own. -/
def yaml : NumberStyle :=
  { leastPoint := some (-4), greatestPoint := some 16, wholeEnd := ".0", exponentMark := "e", tie := .toEven
    infinity := ".inf", negativeInfinity := "-.inf", notANumber := ".nan" }

/-- Messages: never an exponent, and no point in a whole number. -/
def message : NumberStyle :=
  { leastPoint := none, greatestPoint := none, wholeEnd := "", exponentMark := "", tie := .away
    infinity := "inf", negativeInfinity := "-inf", notANumber := "NaN" }

/-- Whether a decimal with its point at this place is written without an exponent. -/
def isPositional (s : NumberStyle) (point : Int) : Bool :=
  s.leastPoint.all (· ≤ point) && s.greatestPoint.all (point ≤ ·)

/-- Digits with their point and as many zeros as it takes to reach it. -/
def positional (s : NumberStyle) (d : DecimalDigits) : String :=
  if d.point ≤ 0 then
    String.ofList ('0' :: '.' :: (List.replicate (-d.point).toNat '0' ++ d.digits))
  else
    let places := d.point.toNat
    if d.digits.length ≤ places then
      String.ofList (d.digits ++ List.replicate (places - d.digits.length) '0') ++ s.wholeEnd
    else
      String.ofList (d.digits.take places ++ '.' :: d.digits.drop places)

/-- One digit, a point and the others if there are any, and the exponent of the first digit. -/
def exponential (s : NumberStyle) (d : DecimalDigits) : String :=
  let exponent := d.point - 1
  let digits := match d.digits with
    | [] => "0"
    | [c] => String.ofList [c]
    | c :: rest => String.ofList (c :: '.' :: rest)
  let mark := if exponent < 0 then "e-" else s.exponentMark
  digits ++ mark ++ toString exponent.natAbs

/-- The text of a magnitude. -/
def magnitude (s : NumberStyle) (v : BinaryValue) : String :=
  if v.significand = 0 then "0" ++ s.wholeEnd
  else
    let d := shortest s.tie v
    if s.isPositional d.point then s.positional d else s.exponential d

/-- The text of a float. -/
def write (s : NumberStyle) (x : Float) : String :=
  match classify x with
  | .finite v => if v.negative then "-" ++ s.magnitude v else s.magnitude v
  | .infinite negative => if negative then s.negativeInfinity else s.infinity
  | .nan => s.notANumber

end NumberStyle

end TrainingJobs

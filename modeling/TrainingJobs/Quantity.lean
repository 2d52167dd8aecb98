import TrainingJobs.Number.Reading
import TrainingJobs.Text.Blank

/-!
# Resource quantities

A quantity is a number and a unit, such as `500m`, `16Gi`, `1.5` or `2e3`. The number takes what it can: a letter `e`
belongs to it when a whole number follows, and else to the unit.
-/

namespace TrainingJobs

/-- Why a text is no quantity. -/
inductive QuantityError
  /-- It is not a number followed by letters. -/
  | unreadable (text : String)
  /-- The letters are no unit. -/
  | unknownUnit (text unit : String)
deriving DecidableEq, Repr

/-- What is said about a text that is no quantity. -/
def QuantityError.message : QuantityError → String
  | .unreadable text => "Unable to parse the quantity: " ++ text
  | .unknownUnit text unit => "Unknown suffix " ++ unit ++ " in the quantity " ++ text

namespace Quantity

/-- A sign at the front of a text, as a text, and what follows it. -/
def takeSignText : List Char → List Char × List Char
  | '+' :: rest => (['+'], rest)
  | '-' :: rest => (['-'], rest)
  | cs => ([], cs)

/-- Digits with at most one point among them and at least one digit, and what follows them. -/
def takeMantissa? (cs : List Char) : Option (List Char × List Char) :=
  let (whole, rest) := takeDigits cs
  match rest with
  | '.' :: more =>
    let (fraction, rest) := takeDigits more
    if whole.isEmpty && fraction.isEmpty then none else some (whole ++ '.' :: fraction, rest)
  | _ => if whole.isEmpty then none else some (whole, rest)

/-- The exponent at the front of a text, which may be empty, and what follows it. -/
def takeExponent (cs : List Char) : List Char × List Char :=
  match cs with
  | [] => ([], [])
  | e :: body =>
    if e = 'e' ∨ e = 'E' then
      let (sign, rest) := takeSignText body
      match takeDigits rest with
      | ([], _) => ([], cs)
      | (digits, rest) => (e :: (sign ++ digits), rest)
    else ([], cs)

/-- The number at the front of a text and what follows it. -/
def takeNumber? (cs : List Char) : Option (List Char × List Char) := do
  let (sign, body) := takeSignText cs
  let (mantissa, rest) ← takeMantissa? body
  let (exponent, rest) := takeExponent rest
  some (sign ++ mantissa ++ exponent, rest)

/-- A text as a number and letters. -/
def split? (cs : List Char) : Option (List Char × List Char) := do
  let (number, letters) ← takeNumber? cs
  if letters.all Char.isAlpha then some (number, letters) else none

/-- What a unit does to a number. -/
inductive Scale
  | times (factor : Float)
  /-- Fractions are divided by a whole number, which keeps decimals such as `100m` exact. -/
  | over (divisor : Float)

/-- The units of quantities. -/
def scale? (unit : String) : Option Scale :=
  match unit with
  | "" => some (.times 1)
  | "n" => some (.over 1000000000)
  | "u" => some (.over 1000000)
  | "m" => some (.over 1000)
  | "k" => some (.times 1000)
  | "M" => some (.times 1000000)
  | "G" => some (.times 1000000000)
  | "T" => some (.times 1000000000000)
  | "P" => some (.times 1000000000000000)
  | "E" => some (.times 1000000000000000000)
  | "Ki" => some (.times 1024)
  | "Mi" => some (.times 1048576)
  | "Gi" => some (.times 1073741824)
  | "Ti" => some (.times 1099511627776)
  | "Pi" => some (.times 1125899906842624)
  | "Ei" => some (.times 1152921504606846976)
  | _ => none

/-- A number in a unit. -/
def Scale.apply (x : Float) : Scale → Float
  | .times factor => x * factor
  | .over divisor => x / divisor

/-- Reads a quantity, with white space around it, as an amount of the base unit. -/
def read (text : String) : Except QuantityError Float :=
  match split? (Text.trimBlanks text.toList) with
  | none => .error (.unreadable text)
  | some (number, letters) =>
    match readFloat? (String.ofList number) with
    | none => .error (.unreadable text)
    | some x =>
      let unit := String.ofList letters
      match scale? unit with
      | none => .error (.unknownUnit text unit)
      | some scale => .ok (scale.apply x)

end Quantity

end TrainingJobs

import TrainingJobs.Number.Reading
import TrainingJobs.Yaml.Value

/-!
# Plain scalars

A scalar without quotes stands for a null, a truth value, a whole number, a float or itself: `Yaml.ofPlain`. Whole
numbers may be hexadecimal, octal or binary. A decimal with a zero in front of other digits is a text, and a whole
number of more than 64 and at most 128 bits is no value at all.
-/

namespace TrainingJobs.Yaml

/-- The value of a digit in a base up to 16. -/
def digitIn? (base : Nat) (c : Char) : Option Nat :=
  let value? :=
    if '0' ≤ c ∧ c ≤ '9' then some (c.toNat - '0'.toNat)
    else if 'a' ≤ c ∧ c ≤ 'f' then some (c.toNat - 'a'.toNat + 10)
    else if 'A' ≤ c ∧ c ≤ 'F' then some (c.toNat - 'A'.toNat + 10)
    else none
  value?.filter (· < base)

/-- The number that digits of a base spell: at least one, and nothing but digits. -/
def digitsIn? (base : Nat) (cs : List Char) : Option Nat :=
  if cs.isEmpty then none
  else cs.foldlM (fun n c => (digitIn? base c).map (base * n + ·)) 0

/-- The base that a text marks at its front, and what follows the mark. -/
def takeBase : List Char → Option (Nat × List Char)
  | '0' :: 'x' :: rest => some (16, rest)
  | '0' :: 'o' :: rest => some (8, rest)
  | '0' :: 'b' :: rest => some (2, rest)
  | _ => none

/-- Whether a text is a decimal with a zero in front of other digits, which makes it a text. -/
def isPaddedDecimal (cs : List Char) : Bool :=
  match (takeSign cs).2 with
  | '0' :: d :: rest => (d :: rest).all Char.isDigit
  | _ => false

/-- What a plain scalar looks like as a whole number: its sign and its magnitude. -/
def wholeNumber? (cs : List Char) : Option (Bool × Nat) :=
  let (negative, body) := takeSign cs
  match takeBase body with
  | some (base, digits) => (digitsIn? base digits).map (negative, ·)
  | none => if isPaddedDecimal cs then none else (digitsIn? 10 body).map (negative, ·)

/-- How large a whole number is. -/
inductive WholeSize
  /-- It is a value. -/
  | word
  /-- It has too many bits to be a value, but no more than 128. -/
  | tooLarge
  /-- It is no whole number to a reader of at most 128 bits. -/
  | beyond
deriving DecidableEq

/-- The size of a whole number, of which one more is possible below zero than above. -/
def sizeOfWhole (negative : Bool) (magnitude : Nat) : WholeSize :=
  if negative then
    if magnitude ≤ Nat.pow 2 63 then .word else if magnitude ≤ Nat.pow 2 127 then .tooLarge else .beyond
  else
    if magnitude < Nat.pow 2 64 then .word else if magnitude < Nat.pow 2 128 then .tooLarge else .beyond

/-- The float that a plain scalar spells: a decimal within the range of floats, or the name of an infinity or of no
number with a point in front. -/
def plainFloat? (text : String) : Option Float :=
  let unsigned := match text.toList with
    | '+' :: rest => String.ofList rest
    | _ => text
  if unsigned ∈ [".inf", ".Inf", ".INF"] then some (1.0 / 0.0)
  else if text ∈ ["-.inf", "-.Inf", "-.INF"] then some (-1.0 / 0.0)
  else if text ∈ [".nan", ".NaN", ".NAN"] then some (0.0 / 0.0)
  else (readFloat? text).filter isFiniteFloat

/-- What a plain scalar stands for, or nothing when it is a whole number that is too large. -/
def ofPlain (text : String) : Option Yaml :=
  let cs := text.toList
  let otherwise : Yaml :=
    if isPaddedDecimal cs then .string text
    else match plainFloat? text with
      | some x => .float x
      | none => .string text
  if text ∈ ["", "~", "null", "Null", "NULL"] then some .null
  else if text ∈ ["true", "True", "TRUE"] then some (.bool true)
  else if text ∈ ["false", "False", "FALSE"] then some (.bool false)
  else match wholeNumber? cs with
    | none => some otherwise
    | some (negative, magnitude) =>
      match sizeOfWhole negative magnitude with
      | .word => some (.int (if negative then -magnitude else magnitude))
      | .tooLarge => none
      | .beyond => some otherwise

/-- Whether a text would be read as something else than itself when it stood there without quotes. -/
def needsQuotes (text : String) : Bool :=
  isPaddedDecimal text.toList ||
    match ofPlain text with
    | some (.string _) => false
    | _ => true

end TrainingJobs.Yaml

import TrainingJobs.Number.Reading
import TrainingJobs.Text.Blank
import TrainingJobs.Time.Duration

/-!
# Points in time

An `Instant` is a number of nanoseconds since the start of 1970 in UTC. It is read from and written as a date and a time
of the Gregorian calendar.
-/

namespace TrainingJobs

/-- A point in time. -/
structure Instant where
  nanos : Int
deriving DecidableEq, Repr, Inhabited

namespace Instant

/-- The start of 1970 in UTC. -/
def epoch : Instant := ⟨0⟩

/-- The time from `b` to `a`. -/
def since (a b : Instant) : Duration := ⟨a.nanos - b.nanos⟩

/-- Whether a point in time comes before another; no time at all comes before any. -/
def before : Option Instant → Option Instant → Bool
  | none, some _ => true
  | some a, some b => a.nanos < b.nanos
  | _, none => false

/-! ### The calendar -/

/-- The day number of a date: the days since the start of 1970. Years start in March, so that a leap day ends them; 400
years have 146097 days. -/
def dayNumber (year : Int) (month day : Nat) : Int :=
  let y := if month ≤ 2 then year - 1 else year
  let era := y.fdiv 400
  let yearOfEra := y - era * 400
  let monthOfYear : Int := ((month : Int) + 9) % 12
  let dayOfYear := (153 * monthOfYear + 2) / 5 + day - 1
  let dayOfEra := yearOfEra * 365 + yearOfEra / 4 - yearOfEra / 100 + dayOfYear
  era * 146097 + dayOfEra - 719468

/-- The date of a day number: year, month and day. -/
def dateOfDay (number : Int) : Int × Nat × Nat :=
  let z := number + 719468
  let era := z.fdiv 146097
  let dayOfEra := z - era * 146097
  let yearOfEra := (dayOfEra - dayOfEra / 1460 + dayOfEra / 36524 - dayOfEra / 146096) / 365
  let dayOfYear := dayOfEra - (365 * yearOfEra + yearOfEra / 4 - yearOfEra / 100)
  let monthOfYear := (5 * dayOfYear + 2) / 153
  let day := dayOfYear - (153 * monthOfYear + 2) / 5 + 1
  let month := if monthOfYear < 10 then monthOfYear + 3 else monthOfYear - 9
  let year := yearOfEra + era * 400 + (if month ≤ 2 then 1 else 0)
  (year, month.toNat, day.toNat)

/-- Whether a year has a 29th of February. -/
def isLeapYear (year : Int) : Bool := year % 4 == 0 && (year % 100 != 0 || year % 400 == 0)

/-- The number of days of a month. -/
def daysOfMonth (year : Int) (month : Nat) : Nat :=
  if month = 2 then (if isLeapYear year then 29 else 28)
  else if month = 4 ∨ month = 6 ∨ month = 9 ∨ month = 11 then 30
  else 31

/-! ### Writing -/

/-- A number of at least `width` digits. -/
def padded (width n : Nat) : String :=
  let digits := Nat.toDigits 10 n
  String.ofList (List.replicate (width - digits.length) '0' ++ digits)

/-- A fraction of a second with three, six or nine places, or none. -/
def fractionText (nanos : Nat) : String :=
  if nanos = 0 then ""
  else if nanos % 1000000 = 0 then "." ++ padded 3 (nanos / 1000000)
  else if nanos % 1000 = 0 then "." ++ padded 6 (nanos / 1000)
  else "." ++ padded 9 nanos

/-- A year with four digits, or with a sign when it has another number of digits. -/
def yearText (year : Int) : String :=
  if year < 0 then "-" ++ padded 4 year.natAbs
  else if year > 9999 then "+" ++ padded 4 year.natAbs
  else padded 4 year.natAbs

/-- The date and the time in UTC. -/
def text (i : Instant) : String :=
  let seconds := i.nanos.fdiv Duration.secondNanos
  let nanos := (i.nanos - seconds * Duration.secondNanos).toNat
  let day := seconds.fdiv 86400
  let ofDay := (seconds - day * 86400).toNat
  let (year, month, dayOfMonth) := dateOfDay day
  yearText year ++ "-" ++ padded 2 month ++ "-" ++ padded 2 dayOfMonth ++ "T" ++ padded 2 (ofDay / 3600) ++ ":" ++
    padded 2 (ofDay / 60 % 60) ++ ":" ++ padded 2 (ofDay % 60) ++ fractionText nanos ++ "Z"

/-! ### Reading -/

/-- A text without the white space in front. -/
def skipBlanks (cs : List Char) : List Char := cs.dropWhile Text.isBlank

/-- A number of at least one and at most `width` digits after white space, and what follows it. -/
def takeNumber? (width : Nat) (cs : List Char) : Option (Nat × List Char) :=
  let cs := skipBlanks cs
  let digits := (cs.take width).takeWhile Char.isDigit
  if digits.isEmpty then none else some (naturalOfDigits digits, cs.drop digits.length)

/-- A year: four digits at most, or any number of them after a sign. -/
def takeYear? (cs : List Char) : Option (Int × List Char) :=
  match skipBlanks cs with
  | '-' :: rest => (takeNumber? rest.length rest).map fun (n, rest) => (-(n : Int), rest)
  | '+' :: rest => (takeNumber? rest.length rest).map fun (n, rest) => ((n : Int), rest)
  | cs => (takeNumber? 4 cs).map fun (n, rest) => ((n : Int), rest)

/-- A mark after white space. -/
def takeMark? (mark : Char) (cs : List Char) : Option (List Char) :=
  match skipBlanks cs with
  | c :: rest => if c = mark then some rest else none
  | [] => none

/-- The fraction of a second in nanoseconds. Places beyond the ninth do not count. -/
def takeFraction? : List Char → Option (Nat × List Char)
  | '.' :: rest =>
    let digits := rest.takeWhile Char.isDigit
    if digits.isEmpty then none
    else
      let kept := digits.take 9
      some (naturalOfDigits kept * Nat.pow 10 (9 - kept.length), rest.drop digits.length)
  | cs => some (0, cs)

/-- Two digits. -/
def takeTwoDigits? : List Char → Option (Nat × List Char)
  | a :: b :: rest => if a.isDigit && b.isDigit then some (naturalOfDigits [a, b], rest) else none
  | _ => none

/-- The offset of a time zone from UTC in seconds: `UTC`, `Z`, or a sign, hours and minutes. -/
def takeZone? (cs : List Char) : Option (Int × List Char) :=
  match cs with
  | 'Z' :: rest => some (0, rest)
  | 'z' :: rest => some (0, rest)
  | c :: rest =>
    if (cs.take 3).map Char.toUpper = ['U', 'T', 'C'] then some (0, cs.drop 3)
    else if c = '+' ∨ c = '-' ∨ c = '\u2212' then do
      let (hours, rest) ← takeTwoDigits? rest
      let (minutes, rest) ← takeTwoDigits? (rest.dropWhile fun c => c == ':' || Text.isBlank c)
      let seconds : Int := hours * 3600 + minutes * 60
      if minutes < 60 ∧ seconds < 86400 then some (if c = '+' then seconds else -seconds, rest) else none
    else none
  | [] => none

/-- Reads a date, a time of day and a time zone. A leap second, which has the number 60, is the first second of the next
minute here; a calendar that knows leap seconds keeps it within the last second of the minute before. -/
def read? (text : String) : Option Instant := do
  let (year, cs) ← takeYear? text.toList
  let cs ← takeMark? '-' cs
  let (month, cs) ← takeNumber? 2 cs
  let cs ← takeMark? '-' cs
  let (day, cs) ← takeNumber? 2 cs
  let cs ← match cs with
    | 'T' :: rest => some rest
    | 't' :: rest => some rest
    | ' ' :: rest => some rest
    | _ => none
  let (hour, cs) ← takeNumber? 2 cs
  let cs ← takeMark? ':' cs
  let (minute, cs) ← takeNumber? 2 cs
  let cs ← takeMark? ':' cs
  let (second, cs) ← takeNumber? 2 cs
  let (nanos, cs) ← takeFraction? cs
  let (offset, cs) ← takeZone? (skipBlanks cs)
  let valid := (skipBlanks cs).isEmpty && 1 ≤ month && month ≤ 12 && 1 ≤ day && day ≤ daysOfMonth year month &&
    hour < 24 && minute < 60 && second ≤ 60 && -262143 ≤ year && year ≤ 262142
  if valid then
    let seconds := dayNumber year month day * 86400 + hour * 3600 + minute * 60 + second - offset
    some ⟨seconds * Duration.secondNanos + nanos⟩
  else none

end Instant

end TrainingJobs

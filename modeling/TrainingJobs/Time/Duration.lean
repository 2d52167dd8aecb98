/-!
# Durations and ages

A `Duration` is a whole number of nanoseconds, within the range of 64 bit milliseconds. `Duration.age` writes one in the
coarsest unit that it fills.
-/

namespace TrainingJobs

/-- A span of time, which may be negative. -/
structure Duration where
  nanos : Int
deriving DecidableEq, Repr, Inhabited

namespace Duration

/-- The nanoseconds of a second. -/
def secondNanos : Int := 1000000000

/-- The greatest number of milliseconds of a duration; the least is its negative. -/
def greatestMillis : Int := 9223372036854775807

/-- Whether a number of nanoseconds is within the range of durations. -/
def inRange (nanos : Int) : Bool :=
  -(greatestMillis * 1000000) ≤ nanos && nanos ≤ greatestMillis * 1000000

/-- So many nanoseconds, if they are within the range. -/
def ofNanos? (nanos : Int) : Option Duration := if inRange nanos then some ⟨nanos⟩ else none

/-- So many seconds, if they are within the range. -/
def ofSeconds? (seconds : Int) : Option Duration := ofNanos? (seconds * secondNanos)

/-- So many seconds and a fraction of one in nanoseconds, if they are within the range. -/
def ofParts? (seconds nanos : Int) : Option Duration :=
  if 0 ≤ nanos && nanos < secondNanos then ofNanos? (seconds * secondNanos + nanos) else none

/-- So many hours, if they are within the range. -/
def ofHours? (hours : Int) : Option Duration := ofSeconds? (hours * 3600)

/-- So many days of 24 hours, if they are within the range. -/
def ofDays? (days : Int) : Option Duration := ofSeconds? (days * 86400)

/-- Both durations one after the other, if they stay within the range. -/
def add? (a b : Duration) : Option Duration := ofNanos? (a.nanos + b.nanos)

/-- The whole seconds, without the fraction. -/
def seconds (d : Duration) : Int := d.nanos.tdiv secondNanos

/-- The whole minutes. -/
def minutes (d : Duration) : Int := d.seconds.tdiv 60

/-- The whole hours. -/
def hours (d : Duration) : Int := d.seconds.tdiv 3600

/-- The whole milliseconds. -/
def millis (d : Duration) : Int := d.nanos.tdiv 1000000

/-- A duration in its coarsest unit: seconds, minutes, hours, days or years of 365 days. What lies more than a second in
the future is no age. -/
def age (d : Duration) : String :=
  if d.seconds < -1 then "<invalid>"
  else if d.seconds < 0 then "0s"
  else if d.seconds < 60 then toString d.seconds ++ "s"
  else if d.minutes < 60 then toString d.minutes ++ "m"
  else if d.hours < 24 then toString d.hours ++ "h"
  else if d.hours < 24 * 365 then toString (d.hours / 24) ++ "d"
  else toString (d.hours / 24 / 365) ++ "y"

end Duration

end TrainingJobs

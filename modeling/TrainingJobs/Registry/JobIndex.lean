import TrainingJobs.Program

/-!
# The counter of jobs

All jobs of a cluster are numbered by a counter in a config map. A writer reads the counter and replaces it only if
nobody else has in between; otherwise it starts again, a limited number of times. Behind the greatest value of the
counter there is no other, and a writer that reads it ends the whole program.
-/

namespace TrainingJobs

/-- Why there is no next number. -/
inductive JobIndexError
  /-- The counter kept changing. -/
  | contended (attempts : Nat)
  | api (error : ApiError)
  /-- The addition to the counter overflowed. This is no error that is returned to anybody: the program ends at once. -/
  | crashed
deriving DecidableEq, Repr

/-- What is said about it. -/
def JobIndexError.message : JobIndexError → String
  | .contended attempts => "The job index kept changing under us after " ++ toString attempts ++ " attempts"
  | .api e => e.message
  | .crashed => "attempt to add with overflow"

namespace JobIndex

/-- The name of the config map with the counter. -/
def mapName : String := "cli-index"

/-- The name of the counter in it. -/
def textName : String := "index"

/-- The number of values of the counter, a word of 64 bits. The greatest one is less by one. -/
def modulus : Nat := Nat.pow 2 64

/-- The value of the counter; zero when it is missing or no number. -/
def stored (m : ConfigMap) : Nat := ((m.text? textName).bind (readNatural? (modulus - 1))).getD 0

/-- The value after the stored one, if there is one. Nothing guards the addition of one: at the greatest value it overflows,
and that ends the program where additions are checked, which is what is described here. Where they are not checked the
value after it would be zero. -/
def following? (m : ConfigMap) : Option Nat := if stored m + 1 < modulus then some (stored m + 1) else none

/-- A config map with the counter at a value. -/
def withValue (m : ConfigMap) (n : Nat) : ConfigMap := m.withTexts (.ofList [(textName, toString n)])

/-- The outcome of a write that moves the counter to a value: the value, nothing when another writer was faster, or any
other failure. -/
def written (n : Nat) : Except ApiError Unit → Except JobIndexError (Option Nat)
  | .ok () => .ok (some n)
  | .error e => if e = .conflict then .ok none else .error (.api e)

/-- Reads the counter once and tries to move it on. -/
def attempt (space : String) : Program (Except JobIndexError (Option Nat)) := do
  let key : ObjectKey := ⟨space, mapName⟩
  match ← Program.ask (.getMap key) with
  | .error e => return .error (.api e)
  | .ok none => return written 1 (← Program.ask (.createMap key (withValue {} 1)))
  | .ok (some found) =>
    match following? found.map with
    | none => return .error .crashed
    | some next => return written next (← Program.ask (.replaceMap key found.version (withValue found.map next)))

/-- Tries as many times as are left of all attempts. -/
def nextWithin (space : String) (attempts : Nat) : Nat → Program (Except JobIndexError Nat)
  | 0 => return .error (.contended attempts)
  | left + 1 => do
    match ← attempt space with
    | .ok (some n) => return .ok n
    | .ok none => nextWithin space attempts left
    | .error e => return .error e

/-- The next number of a job. -/
def next (space : String) (retries : Nat) : Program (Except JobIndexError Nat) :=
  nextWithin space retries retries

end JobIndex

end TrainingJobs

import TrainingJobs.Registry.Registry

/-!
# Registering names

`register` reserves the name that is asked for, or with automatic names one of its family when it is taken. The siblings
are listed anew before each attempt, since others register names at the same time.
-/

namespace TrainingJobs

/-- Why a name could not be registered. -/
inductive RegistrationError
  | nameCollision (name : String)
  | exhausted (name : String) (attempts : Nat)
  | registry (error : RegistryError)
deriving DecidableEq, Repr

/-- What is said about it. -/
def RegistrationError.message : RegistrationError → String
  | .nameCollision name =>
    "seems like there is another job with the name " ++ name ++ ", you can use the --generate-name flag"
  | .exhausted name attempts =>
    "could not register a name for " ++ name ++ " after " ++ toString attempts ++ " attempts, please try again later"
  | .registry e => e.message

/-- The least number from 1 on that none of the indexes is. A word of 32 bits holds it, and the bound of the search, as long as
there are fewer than `2 ^ 32 - 1` indexes; with more of them natural numbers go on where words would overflow. -/
def leastFree (indexes : List Nat) : Nat :=
  let bound := indexes.length + 1
  ((List.range' 1 bound).find? (!indexes.contains ·)).getD bound

/-- The number that the next member of a family gets, whose name itself is taken: a word of 32 bits in families of fewer than
`2 ^ 32 - 1` members. -/
def smallestUnoccupiedIndex (siblings : List Record) : Nat := leastFree (siblings.map (·.familyIndex))

namespace Registration

/-- Tries to register a numbered name as many times as are left of all attempts. -/
def registerNumbered (requested : JobName) (space : String) (attempts : Nat) :
    Nat → Program (Except RegistrationError JobIdentity)
  | 0 => return .error (.exhausted requested.text attempts)
  | left + 1 => do
    match ← Registry.listFamily space requested.text with
    | .error e => return .error (.registry e)
    | .ok siblings =>
      match ← Registry.create (Record.candidate requested space (smallestUnoccupiedIndex siblings)) with
      | .ok record => return .ok (record.identity requested)
      | .error (.alreadyExists _) => registerNumbered requested space attempts left
      | .error e => return .error (.registry e)

/-- Registers a name as it is, or else, if that is wanted, with the first number that its family does not use. -/
def register (retries : Nat) (requested : JobName) (space : String) (autoName : Bool) :
    Program (Except RegistrationError JobIdentity) := do
  match ← Registry.create (Record.candidate requested space 0) with
  | .ok record => return .ok (record.identity requested)
  | .error (.alreadyExists _) =>
    if autoName then registerNumbered requested space retries retries
    else return .error (.nameCollision requested.text)
  | .error e => return .error (.registry e)

end Registration

end TrainingJobs

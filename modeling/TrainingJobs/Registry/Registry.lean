import TrainingJobs.Program
import TrainingJobs.Registry.Record

/-!
# The registry

Records are kept as config maps, one for each name. Creating a record succeeds only when its name is free; that is all
that keeps names apart.
-/

namespace TrainingJobs

/-- Why the registry refused. -/
inductive RegistryError
  | alreadyExists (name : String)
  | notFound (name : String)
  | api (error : ApiError)
deriving DecidableEq, Repr

/-- What is said about it. -/
def RegistryError.message : RegistryError → String
  | .alreadyExists name => "A registry record named " ++ name ++ " already exists"
  | .notFound name => "No registry record named " ++ name
  | .api e => e.message

namespace Registry

/-- A failure of a request, where the status of a conflict or of absence has a meaning. -/
def refusal (meaning : ApiError) (error : RegistryError) (e : ApiError) : RegistryError :=
  if e = meaning then error else .api e

/-- Stores a record under a name that is free. -/
def create (record : Record) : Program (Except RegistryError Record) := do
  match ← Program.ask (.createMap record.key record.toConfigMap) with
  | .ok () => return .ok record
  | .error e => return .error (refusal .conflict (.alreadyExists record.name) e)

/-- The records of a family. They are selected by the text `FamilyName=family`, which is taken here as a label and its value:
the names of families are values of labels. In a family that begins with `=` or holds a comma or white space a server would
read more than a value. -/
def listFamily (space family : String) : Program (Except RegistryError (List Record)) := do
  match ← Program.ask (.listMaps space Keys.familyNameLabel family) with
  | .ok maps => return .ok (maps.map fun e => Record.ofConfigMap e.1 space e.2)
  | .error e => return .error (.api e)

/-- The record of a name, if there is one. -/
def get? (space name : String) : Program (Except RegistryError (Option Record)) := do
  match ← Program.ask (.getMap ⟨space, name⟩) with
  | .ok found => return .ok (found.map fun stored => Record.ofConfigMap name space stored.map)
  | .error e => return .error (.api e)

/-- Sets texts of a record and keeps its others. -/
def populate (space name : String) (texts : Labels) : Program (Except RegistryError Unit) := do
  match ← Program.ask (.patchMap ⟨space, name⟩ texts) with
  | .ok () => return .ok ()
  | .error e => return .error (refusal .absent (.notFound name) e)

/-- Takes a record away. -/
def remove (space name : String) : Program (Except RegistryError Unit) := do
  match ← Program.ask (.deleteMap ⟨space, name⟩) with
  | .ok () => return .ok ()
  | .error e => return .error (refusal .absent (.notFound name) e)

end Registry

end TrainingJobs

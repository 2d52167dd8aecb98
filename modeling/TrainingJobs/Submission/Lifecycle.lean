import TrainingJobs.Registry.JobIndex
import TrainingJobs.Registry.Registration
import TrainingJobs.Submission.Request

/-!
# Submitting and deleting jobs

`submit` registers a name, renders the chart and applies the manifest; `delete` removes what was applied and the record of
the name. The record holds the manifest before anything reaches the cluster, so that `delete` can find what to remove. A
submission that fails from rendering on releases its name, and first tries to remove what may have been applied. One at whose number the
program crashes does neither.
-/

namespace TrainingJobs

/-- Why a submission or a deletion failed. -/
inductive LifecycleError
  | request (error : RequestError)
  /-- The values cannot be written as a document. -/
  | unwritableValues
  | notFound (name : String)
  | registration (error : RegistrationError)
  | registry (error : RegistryError)
  | install (error : InstallError)
  /-- The program crashed at the counter of jobs, which nothing behind it gets to see. -/
  | crashed

namespace LifecycleError

/-- What is said about it. -/
def message : LifecycleError → String
  | .request e => e.message
  | .unwritableValues => "Failed to render the values: a mapping looks like a value with a tag"
  | .notFound name => "No job named " ++ name ++ " was submitted from this CLI"
  | .registration e => e.message
  | .registry e => e.message
  | .install e => e.message
  | .crashed => JobIndexError.crashed.message

/-- The cause behind it, if there is one. -/
def cause? : LifecycleError → Option String
  | .request e => e.cause?
  | .install e => e.cause?
  | _ => none

end LifecycleError

/-- A job that was submitted, with the document of its values. -/
structure Submission where
  identity : JobIdentity
  values : String
deriving DecidableEq

/-- What jobs are submitted with. -/
structure LifecycleSettings where
  chart : String := "trainctl/train"
  /-- The namespace of the counter of jobs. -/
  systemSpace : String := "runai"
  /-- How often a numbered name is tried. -/
  registrationRetries : Nat := 5
  /-- How often the counter is tried. -/
  indexRetries : Nat := 5
deriving Inhabited

namespace Lifecycle

/-- The text of a record that holds the chart. -/
def chartText : String := "chart"

/-- The text of a record that holds the values. -/
def valuesText : String := "values"

/-- The text of a record that holds the manifest. -/
def manifestText : String := "app"

/-- Asks the installer to render. -/
def render (name space values : String) : Program (Except InstallError String) :=
  Program.ask (.install (.render name space values))

/-- Asks the installer to apply a manifest. -/
def apply (space manifest : String) : Program (Except InstallError Unit) := do
  return (← Program.ask (.install (.apply space manifest))).map fun _ => ()

/-- Asks the installer to remove the objects of a manifest. -/
def uninstall (space manifest : String) : Program (Except InstallError Unit) := do
  return (← Program.ask (.install (.uninstall space manifest))).map fun _ => ()

/-- Releases the name of a submission that failed. -/
def releaseName (space name : String) : Program Unit := do
  match ← Registry.remove space name with
  | .ok () => return ()
  | .error e => Program.warn ("Failed to release the name " ++ name ++ " after a failed submit: " ++ e.message)

/-- Removes what was applied of a manifest that failed, and releases the name. -/
def release (space name manifest : String) : Program Unit := do
  match ← uninstall space manifest with
  | .ok () => releaseName space name
  | .error e =>
    Program.warn ("Failed to remove the objects of " ++ name ++ " after a failed apply: " ++ e.message)
    releaseName space name

/-- What a record holds of a submission. -/
def texts (chart values manifest : String) : Labels :=
  .ofList [(chartText, chart), (valuesText, values), (manifestText, manifest)]

/-- Renders, stores and applies a job whose name is registered. -/
def launch (chart : String) (identity : JobIdentity) (space values : String) :
    Program (Except LifecycleError Submission) := do
  match ← render identity.resolved space values with
  | .error e =>
    releaseName space identity.resolved
    return .error (.install e)
  | .ok manifest =>
    match ← Registry.populate space identity.resolved (texts chart values manifest) with
    | .error e =>
      releaseName space identity.resolved
      return .error (.registry e)
    | .ok () =>
      match ← apply space manifest with
      | .error e =>
        release space identity.resolved manifest
        return .error (.install e)
      | .ok () => return .ok ⟨identity, values⟩

/-- Submits a job. Without a number of the counter it is submitted without one, but nothing survives a crash. -/
def submit (settings : LifecycleSettings) (request : SubmitRequest) (space : String) :
    Program (Except LifecycleError Submission) := do
  match request.values with
  | .error e => return .error (.request e)
  | .ok values =>
    match ← Registration.register settings.registrationRetries request.name space request.autoName with
    | .error e => return .error (.registration e)
    | .ok identity =>
      match ← JobIndex.next settings.systemSpace settings.indexRetries with
      | .error .crashed => return .error .crashed
      | index =>
        let values := { values with jobIndex := index.toOption.or values.jobIndex }
        match values.render? with
        | none => return .error .unwritableValues
        | some text => launch settings.chart identity space text

/-- Deletes a job by its name: first what its manifest holds, then its record. -/
def delete (space name : String) : Program (Except LifecycleError Unit) := do
  match ← Registry.get? space name with
  | .error e => return .error (.registry e)
  | .ok none => return .error (.notFound name)
  | .ok (some record) =>
    let removed ← match record.data.get? manifestText with
      | some manifest => uninstall space manifest
      | none => do
        Program.warn (name ++ " has no stored manifest, only its record is removed")
        pure (.ok ())
    match removed with
    | .error e => return .error (.install e)
    | .ok () =>
      match ← Registry.remove space name with
      | .ok () => return .ok ()
      | .error e => return .error (.registry e)

end Lifecycle

end TrainingJobs

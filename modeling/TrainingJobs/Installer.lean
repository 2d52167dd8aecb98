/-!
# Installing the objects of a job

An installer renders the chart of a job into a manifest, applies a manifest to the cluster and removes its objects again.
What it is asked to do is a value (`InstallerCall`), so that a history of calls can be looked at.
-/

namespace TrainingJobs

/-- What an installer is asked to do in a namespace. -/
inductive InstallerCall
  /-- Renders the chart for the job of a name. -/
  | render (name space values : String)
  | apply (space manifest : String)
  | uninstall (space manifest : String)
deriving DecidableEq, Repr

/-- How a program ended. -/
inductive ProgramEnd
  | exit (code : Nat)
  /-- It was stopped from outside. -/
  | killed
deriving DecidableEq, Repr

/-- The end of a program in words. -/
def ProgramEnd.text : ProgramEnd → String
  | .exit code => "exit status: " ++ toString code
  | .killed => "signal: 9 (SIGKILL)"

/-- Why an installer failed. -/
inductive InstallError
  /-- A program could not be started. -/
  | spawn (program reason : String)
  /-- A program failed and left a note. -/
  | failed (program : String) (ending : ProgramEnd) (note : String)
  /-- The values could not be handed over. -/
  | valuesFile (reason : String)
deriving DecidableEq, Repr

namespace InstallError

/-- What is said about the failure. -/
def message : InstallError → String
  | .spawn program reason => "Failed to run " ++ program ++ ": " ++ reason
  | .failed program ending note => program ++ " exited with " ++ ending.text ++ ": " ++ note
  | .valuesFile reason => "Failed to write the values file: " ++ reason

/-- The cause behind the failure, if the system gave one. -/
def cause? : InstallError → Option String
  | .spawn _ reason => some reason
  | .failed _ _ _ => none
  | .valuesFile reason => some reason

end InstallError

end TrainingJobs

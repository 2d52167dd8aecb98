import TrainingJobs.Cluster.Reader
import TrainingJobs.Job.View
import TrainingJobs.Submission.Lifecycle

/-!
# Failures of commands

A command that fails says what it was doing and why it could not (`Failure`): a list of causes from the outermost to the
innermost one. A crash of the program is a cause that stands alone (`Failure.crash`).
-/

namespace TrainingJobs

/-- A cause of a failure. -/
inductive Cause
  | message (text : String)
  /-- A text is no configuration. -/
  | configText
  /-- Values cannot be written as a document. -/
  | document
  /-- A text is no name of a job. -/
  | jobName (error : JobNameError)
  /-- The program crashed. -/
  | crashed

/-- What is said about a text that is no name. -/
def JobNameError.message : JobNameError → String
  | .tooShort => "a name has at least one character"
  | .tooLong => "a name has at most " ++ toString greatestNameLength ++ " characters"
  | .wrongForm => "a name has small letters, digits and hyphens, starts with a letter and does not end with a hyphen"

/-- What is said about a cause. -/
def Cause.text : Cause → String
  | .message text => text
  | .configText => "the text is no record of settings"
  | .document => "the values cannot be written as a document"
  | .jobName e => e.message
  | .crashed => LifecycleError.crashed.message

/-- The causes of a failure, outermost first. -/
structure Failure where
  causes : List Cause

namespace Failure

/-- All causes on one line. -/
def text (f : Failure) : String := ": ".intercalate (f.causes.map Cause.text)

/-- A failure with nothing behind it. -/
def of (text : String) : Failure := ⟨[.message text]⟩

/-- A failure of something that was part of something greater. -/
def within (f : Failure) (text : String) : Failure := ⟨.message text :: f.causes⟩

/-- A failure with a cause behind it, if there is one. -/
def withCause (text : String) (cause? : Option String) : Failure :=
  ⟨.message text :: (cause?.map Cause.message).toList⟩

/-- The end of a program that crashed. It has not failed at what it was doing, so nothing is said about that. -/
def crash : Failure := ⟨[.crashed]⟩

/-- Whether the program crashed. -/
def isCrash (f : Failure) : Bool := f.causes.any fun cause =>
  match cause with
  | .crashed => true
  | _ => false

/-- A cluster that could not be read. -/
def ofCluster (e : ClusterError) : Failure := of e.message

/-- A refused request. -/
def ofRequest (e : RequestError) : Failure := withCause e.message e.cause?

/-- A submission or deletion that failed. -/
def ofLifecycle (e : LifecycleError) : Failure := withCause e.message e.cause?

/-- A name that does not give a job. -/
def ofLookup (e : LookupError) : Failure := of e.message

end Failure

end TrainingJobs

import TrainingJobs.Files
import TrainingJobs.Installer
import TrainingJobs.Text.Blank
import TrainingJobs.Text.Lossy

/-!
# Installing with helm and kubectl

A `HelmInstaller` renders with `helm template`, which reads the values from a file, and applies and removes manifests with
`kubectl`, which reads them from its input. What is run for a call is a value (`HelmInstaller.invocation`), and so is what
comes of it (`Outcome.result`).
-/

namespace TrainingJobs

/-- A program to be run. -/
structure Invocation where
  program : String
  arguments : List String
  /-- What the program reads. -/
  input : String
deriving DecidableEq, Repr

/-- What came of a program that was run. -/
structure Outcome where
  /-- The octets it wrote. -/
  output : List Nat := []
  /-- The octets it wrote about what went wrong. -/
  notes : List Nat := []
  ending : ProgramEnd := .exit 0
deriving DecidableEq, Repr

namespace Outcome

/-- What a program wrote, if it ended well; otherwise how it ended, with its notes. -/
def result (program : String) (o : Outcome) : Except InstallError String :=
  if o.ending = .exit 0 then .ok (Text.ofOctets o.output)
  else .error (.failed program o.ending (Text.trim (Text.ofOctets o.notes)))

end Outcome

/-- An installer with a chart. -/
structure HelmInstaller where
  chart : String
  /-- The directory of the values files. -/
  directory : String
  /-- What tells the values files of this run from others. -/
  mark : String

namespace HelmInstaller

/-- The program that renders. -/
def helm : String := "helm"

/-- The program that applies and removes. -/
def kubectl : String := "kubectl"

/-- The name of the values file of a job. -/
def valuesName (h : HelmInstaller) (job : String) : String := job ++ "-" ++ h.mark ++ ".yaml"

/-- What is run for a call. -/
def invocation (h : HelmInstaller) : InstallerCall → Invocation
  | .render job space values =>
    ⟨helm, ["template", job, h.chart, "--namespace", space, "--values", joinPath h.directory (h.valuesName job)], values⟩
  | .apply space manifest => ⟨kubectl, ["apply", "--namespace", space, "-f", "-"], manifest⟩
  | .uninstall space manifest =>
    ⟨kubectl, ["delete", "--namespace", space, "--ignore-not-found", "-f", "-"], manifest⟩

/-- Why the values file of a call cannot be written, if it has one and it cannot. -/
def valuesRefusal? (h : HelmInstaller) : InstallerCall → Option FileError
  | .render job _ _ => Directory.refusal? (h.valuesName job)
  | _ => none

/-- Does what a call asks for, given what comes of starting a program: that it cannot be started, or an outcome. -/
def perform (h : HelmInstaller) (start : Invocation → Except String Outcome) (call : InstallerCall) :
    Except InstallError String :=
  match h.valuesRefusal? call with
  | some e => .error (.valuesFile e.text)
  | none =>
    let run := h.invocation call
    match start run with
    | .error reason => .error (.spawn run.program reason)
    | .ok outcome => outcome.result run.program

/-- The program that a call starts, if it comes to that. -/
def started? (h : HelmInstaller) (start : Invocation → Except String Outcome) (call : InstallerCall) :
    Option Invocation :=
  match h.valuesRefusal? call, start (h.invocation call) with
  | none, .ok _ => some (h.invocation call)
  | _, _ => none

end HelmInstaller

end TrainingJobs

import TrainingJobs.Cluster.Snapshot

/-!
# The status of a job

The status of a job follows from its workload and its chief pod (`JobStatus.derive`), and whether it counts as running
also from its other pods (`JobStatus.real`).
-/

namespace TrainingJobs

/-- The status of a job. A pending job may give the reason why a container of its chief pod waits. -/
inductive JobStatus
  | running
  | pending (reason : Option String)
  | terminating
  | failed
  | succeeded
  | unschedulable
  | deleted
  | unknown
deriving DecidableEq, Repr, Inhabited

namespace JobStatus

/-- The text of a status; of a pending job that gives a reason it is the reason. -/
def text : JobStatus → String
  | .running => "Running"
  | .pending (some reason) => reason
  | .pending none => "Pending"
  | .terminating => "Terminating"
  | .failed => "Failed"
  | .succeeded => "Succeeded"
  | .unschedulable => "Unschedulable"
  | .deleted => "Deleted"
  | .unknown => "Unknown"

/-- Reads the text of a status. A text that is no known status is a reason to wait. -/
def ofText (text : String) : JobStatus :=
  match text with
  | "Running" => .running
  | "Pending" => .pending none
  | "Terminating" => .terminating
  | "Failed" => .failed
  | "Succeeded" => .succeeded
  | "Unschedulable" => .unschedulable
  | "Deleted" => .deleted
  | "Unknown" => .unknown
  | "" => .unknown
  | reason => .pending (some reason)

/-- Whether the job runs. -/
def isRunning (s : JobStatus) : Bool := s = .running

/-- The status that goes with the phase of a pod. -/
def ofPhase : PodPhase → JobStatus
  | .pending => .pending none
  | .running => .running
  | .succeeded => .succeeded
  | .failed => .failed
  | .unknown => .unknown

/-- The status that the annotations of a workload, its chief pod and its deletion give. The first of these counts: that
it cannot be placed, that it has no chief, that it is being deleted, why its chief waits, the phase of its chief. -/
def derive (annotations : Labels) (chief : Option Pod) (deleted : Bool) : JobStatus :=
  if annotations.get? Keys.unschedulable = some "true" then .unschedulable
  else match chief with
    | none => .pending none
    | some chief =>
      if deleted then .terminating
      else if chief.phase = .pending then .pending chief.waitReasons.head?
      else ofPhase chief.phase

/-- A job that runs while other pods of it are pending counts as pending. -/
def real (s : JobStatus) (pods : List Pod) : JobStatus :=
  if s.isRunning && pods.any (·.phase = .pending) then .pending none else s

end JobStatus

end TrainingJobs

import TrainingJobs.Job.View
import TrainingJobs.Number.Places
import TrainingJobs.Output

/-!
# Jobs as they are listed

A `JobRow` holds what is shown of a job. The rows of a snapshot have the order of its views, newest first.
-/

namespace TrainingJobs

/-- What is shown of a job. -/
structure JobRow where
  name : String
  space : String
  kind : String
  status : JobStatus
  age : String
  duration : String
  node : String
  image : String
  project : String
  user : String
  requestedGpus : Float
  allocatedGpus : Float
  runningPods : Nat
  pendingPods : Nat
  podGroup : String

/-- The age of an optional duration; nothing without one. -/
def ageText (d : Option Duration) : String := (d.map Duration.age).getD ""

/-- What is shown of a job at a time. -/
def JobView.row (v : JobView) (now : Instant) (scheduler : String) : JobRow :=
  { name := v.workload.name
    space := v.workload.space
    kind := v.workload.kind.title
    status := v.realStatus
    age := ageText (v.age now)
    duration := ageText (v.duration now)
    node := v.node.getD "-"
    image := v.image.getD "-"
    project := v.project.getD "-"
    user := v.user.getD "-"
    requestedGpus := v.requestedGpus
    allocatedGpus := v.allocatedGpus
    runningPods := v.podsInPhase .running
    pendingPods := v.podsInPhase .pending
    podGroup := v.podGroup scheduler }

namespace JobRow

/-- Two counts, the second in brackets. -/
def both (a b : String) : String := a ++ " (" ++ b ++ ")"

/-- A job as data. -/
def toJson (r : JobRow) : Json :=
  .object [("name", .string r.name), ("namespace", .string r.space), ("kind", .string r.kind),
    ("status", .string r.status.text), ("age", .string r.age), ("duration", .string r.duration),
    ("node", .string r.node), ("image", .string r.image), ("project", .string r.project), ("user", .string r.user),
    ("requested_gpus", .float r.requestedGpus), ("allocated_gpus", .float r.allocatedGpus),
    ("running_pods", .nat r.runningPods), ("pending_pods", .nat r.pendingPods), ("pod_group", .string r.podGroup)]

/-- The columns of a table of jobs. -/
def titles (wide : Bool) : List String :=
  ["NAME", "STATUS", "AGE", "NODE", "IMAGE", "TYPE", "PROJECT", "USER", "GPUs Allocated (Requested)"] ++
    if wide then ["NAMESPACE", "DURATION", "PODS Running (Pending)", "POD GROUP"] else []

/-- The cells of a job. -/
def cells (wide : Bool) (r : JobRow) : List String :=
  [r.name, r.status.text, r.age, r.node, r.image, r.kind, r.project, r.user,
      both (shortAmount r.allocatedGpus) (shortAmount r.requestedGpus)] ++
    if wide then [r.space, r.duration, both (toString r.runningPods) (toString r.pendingPods), r.podGroup] else []

/-- All values of a job with their titles. -/
def pairs (r : JobRow) : List (String × String) :=
  [("Name", r.name), ("Namespace", r.space), ("Type", r.kind), ("Status", r.status.text), ("Age", r.age),
    ("Duration", r.duration), ("Node", r.node), ("Image", r.image), ("Project", r.project), ("User", r.user),
    ("Requested GPUs", shortAmount r.requestedGpus), ("Allocated GPUs", shortAmount r.allocatedGpus),
    ("Running pods", toString r.runningPods), ("Pending pods", toString r.pendingPods), ("Pod group", r.podGroup)]

instance : Shown JobRow := ⟨titles, cells, pairs, toJson⟩

end JobRow

/-- What is shown of the jobs of a snapshot, newest first. -/
def jobRows (s : Snapshot) (scheduler : String) : List JobRow :=
  (JobView.ofSnapshot s).map (·.row s.takenAt scheduler)

end TrainingJobs

import TrainingJobs.Job.Status
import TrainingJobs.Node.View

/-!
# Jobs with their pods

A `JobView` is a workload with the pods that belong to it and the chief among them. Everything that is shown of a job is
worked out from its view.
-/

namespace TrainingJobs

/-- What a pod belongs to. -/
inductive PodOwnership
  | job (owner : Owner)
  | statefulSet (owner : Owner)
  /-- To a release, by its label. -/
  | release (name : String)
  | unowned
deriving DecidableEq

/-- What a pod belongs to: a job before a stateful set, and that before a release. -/
def Pod.ownership (p : Pod) : PodOwnership :=
  match p.owner? "Job" with
  | some owner => .job owner
  | none =>
    match p.owner? "StatefulSet" with
    | some owner => .statefulSet owner
    | none =>
      match p.labels.get? Keys.releaseLabel with
      | some release => .release release
      | none => .unowned

/-- Whether a pod belongs to something only by its label. -/
def Pod.isReleased (p : Pod) : Bool := p.ownership matches .release _

/-- Whether what belongs as said belongs to a workload. -/
def Workload.owns (w : Workload) : PodOwnership → Bool
  | .job owner => w.kind = .job && owner.uid == w.uid
  | .statefulSet owner => w.kind = .statefulSet && owner.uid == w.uid
  | .release name => name == w.name
  | .unowned => false

/-- Whether a pod belongs to a workload. -/
def Workload.hasPod (w : Workload) (p : Pod) : Bool := p.space == w.space && w.owns p.ownership

/-- The pod created last, of several the last one in the list. A pod without a time of creation is older than any other. -/
def latest? : List Pod → Option Pod
  | [] => none
  | p :: rest =>
    some (rest.foldl (fun best q => if Instant.before q.createdAt best.createdAt then best else q) p)

/-- A workload with its pods. -/
structure JobView where
  workload : Workload
  pods : List Pod
  /-- The pod created last of those that belong to the workload other than by a label. -/
  chief : Option Pod

namespace JobView

/-- The view of a workload among all pods. -/
def of (w : Workload) (pods : List Pod) : JobView :=
  let own := pods.filter w.hasPod
  { workload := w, pods := own, chief := latest? (own.filter (!·.isReleased)) }

/-- Whether a view may stand in front of another: newest first, those without a time of creation last. -/
def newerFirst (a b : JobView) : Bool := !Instant.before a.workload.createdAt b.workload.createdAt

/-- The views of the workloads of a snapshot, newest first. -/
def ofSnapshot (s : Snapshot) : List JobView :=
  (s.workloads.map (JobView.of · s.pods)).mergeSort newerFirst

/-- The name of the job. -/
def name (v : JobView) : String := v.workload.name

/-- The status by workload and chief. -/
def status (v : JobView) : JobStatus := JobStatus.derive v.workload.annotations v.chief v.workload.deleted

/-- The status with regard to all pods. -/
def realStatus (v : JobView) : JobStatus := v.status.real v.pods

/-- The containers' first limit of GPUs in the template. -/
def templateGpus (w : Workload) : Float := (w.template.head?.map (·.limits.gpus)).getD 0

/-- The GPUs asked for: the fractions of all pods, or the limit in the template when no pod asks for a fraction. -/
def requestedGpus (v : JobView) : Float :=
  let fractions := (v.pods.map (·.gpuFraction)).foldl (· + ·) 0
  if fractions > 0 then fractions else templateGpus v.workload

/-- The GPUs held: those asked for while the chief runs. -/
def allocatedGpus (v : JobView) : Float :=
  if v.chief.any (·.phase = .running) then v.requestedGpus else 0

/-- The time since the creation. -/
def age (v : JobView) (now : Instant) : Option Duration := v.workload.createdAt.map now.since

/-- How long the chief has been training: from its initialization to its last change of readiness when it has finished,
and to now else. -/
def duration (v : JobView) (now : Instant) : Option Duration := do
  let chief ← v.chief
  let start ← chief.initializedAt
  let stop := if chief.phase.isActive then now else chief.readyTransitionAt.getD now
  some (stop.since start)

/-- The node of the chief. -/
def node (v : JobView) : Option String := v.chief.bind (·.nodeName)

/-- The image of the first container of the template. -/
def image (v : JobView) : Option String := v.workload.template.head?.bind (·.image)

/-- A label of the chief, or else of the workload. -/
def label (v : JobView) (key : String) : Option String :=
  (v.chief.bind (·.labels.get? key)).or (v.workload.labels.get? key)

/-- The project of the job. -/
def project (v : JobView) : Option String := v.label Keys.projectLabel

/-- The user of the job. -/
def user (v : JobView) : Option String := v.label Keys.userLabel

/-- How many pods are in a phase. -/
def podsInPhase (v : JobView) (phase : PodPhase) : Nat := v.pods.countP (·.phase = phase)

/-- The pod group of a chief that the scheduler of this name places: named for its job label, or else for the stateful set
that owns it. -/
def chiefGroup (chief : Pod) : String :=
  match (chief.labels.get? Keys.jobNameLabel).filter (!·.isEmpty) with
  | some name => Keys.podGroupStart ++ name
  | none =>
    match chief.owner? "StatefulSet" with
    | some owner => Keys.podGroupStart ++ owner.name
    | none => ""

/-- The name of the pod group by which the scheduler places the pods of the job together. -/
def podGroup (v : JobView) (scheduler : String) : String :=
  match v.chief.filter (·.schedulerName == some scheduler) with
  | some chief => chiefGroup chief
  | none => Keys.podGroupStart ++ v.workload.name

end JobView

/-! ### Looking jobs up -/

/-- Why a name does not give a job. -/
inductive LookupError
  | notFound (name : String)
  | ambiguous (name : String) (count : Nat)
deriving DecidableEq

/-- What is said about a name that does not give a job. -/
def LookupError.message : LookupError → String
  | .notFound name => "No job named " ++ name ++ " was found"
  | .ambiguous name count =>
    toString count ++ " workloads are named " ++ name ++ ", the name is ambiguous"

/-- The only job of a name. -/
def findJob (jobs : List JobView) (name : String) : Except LookupError JobView :=
  match jobs.filter (·.name == name) with
  | [] => .error (.notFound name)
  | [job] => .ok job
  | several => .error (.ambiguous name several.length)

/-- Whether a job does not run and is older than a duration. -/
def JobView.isPrunable (now : Instant) (olderThan : Duration) (v : JobView) : Bool :=
  !v.realStatus.isRunning && (v.age now).any fun age => olderThan.nanos < age.nanos

/-- The jobs that do not run and are older than a duration. -/
def pruneCandidates (jobs : List JobView) (now : Instant) (olderThan : Duration) : List JobView :=
  jobs.filter (·.isPrunable now olderThan)

end TrainingJobs

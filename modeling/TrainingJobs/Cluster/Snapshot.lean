import TrainingJobs.Cluster.Keys
import TrainingJobs.Resources
import TrainingJobs.SortedTable
import TrainingJobs.Time.Instant

/-!
# What is known of a cluster

The nodes, pods and workloads of a cluster as they are read in one go, with what the metrics say about the nodes
(`Snapshot`). Every view is worked out from a snapshot alone.
-/

namespace TrainingJobs

/-- Labels or annotations by name. -/
abbrev Labels := SortedTable String String

/-- The phase of a pod. -/
inductive PodPhase
  | pending
  | running
  | succeeded
  | failed
  | unknown
deriving DecidableEq, Repr, Inhabited

namespace PodPhase

/-- The phase of a name. Any name that is not known is an unknown phase. -/
def ofName (name : String) : PodPhase :=
  match name with
  | "Pending" => .pending
  | "Running" => .running
  | "Succeeded" => .succeeded
  | "Failed" => .failed
  | _ => .unknown

/-- The name of a phase. -/
def name : PodPhase → String
  | .pending => "Pending"
  | .running => "Running"
  | .succeeded => "Succeeded"
  | .failed => "Failed"
  | .unknown => "Unknown"

/-- Whether a pod holds resources of its node: it does until it has finished. -/
def isActive : PodPhase → Bool
  | .succeeded | .failed => false
  | _ => true

end PodPhase

/-- A node of the cluster. -/
structure Node where
  name : String := ""
  labels : Labels := .empty
  internalAddress : Option String := none
  ready : Bool := false
  capacity : Resources := {}
  allocatable : Resources := {}
deriving Inhabited

/-- The object that a pod belongs to. -/
structure Owner where
  kind : String := ""
  name : String := ""
  uid : String := ""
deriving DecidableEq, Inhabited

/-- A container of a pod, with what it asks for and what it may use. -/
structure Container where
  name : String := ""
  image : Option String := none
  requests : Resources := {}
  limits : Resources := {}
deriving Inhabited

/-- A pod. -/
structure Pod where
  name : String := ""
  /-- The namespace. -/
  space : String := ""
  nodeName : Option String := none
  hostAddress : Option String := none
  phase : PodPhase := .unknown
  labels : Labels := .empty
  annotations : Labels := .empty
  owners : List Owner := []
  schedulerName : Option String := none
  containers : List Container := []
  /-- Why containers wait, in the order of their states. -/
  waitReasons : List String := []
  createdAt : Option Instant := none
  initializedAt : Option Instant := none
  readyTransitionAt : Option Instant := none
deriving Inhabited

/-- The first owner of a kind. -/
def Pod.owner? (p : Pod) (kind : String) : Option Owner := p.owners.find? (·.kind == kind)

/-- The kind of a workload. -/
inductive WorkloadKind
  /-- Runs to completion. -/
  | job
  /-- Is kept alive for interactive use. -/
  | statefulSet
deriving DecidableEq, Repr, Inhabited

/-- What a kind of workload is called in lists. -/
def WorkloadKind.title : WorkloadKind → String
  | .job => "Train"
  | .statefulSet => "Interactive"

/-- The object of the cluster behind a job. -/
structure Workload where
  kind : WorkloadKind := .job
  name : String := ""
  /-- The namespace. -/
  space : String := ""
  uid : String := ""
  labels : Labels := .empty
  annotations : Labels := .empty
  createdAt : Option Instant := none
  /-- Whether it is being deleted. -/
  deleted : Bool := false
  /-- The containers that its pods are made from. -/
  template : List Container := []
deriving Inhabited

/-- What the metrics say about a node. Each figure can be missing. -/
structure Sample where
  usedCpus : Option Cpu := none
  usedMemory : Option Memory := none
  usedGpus : Option Float := none
  usedGpuMemory : Option Memory := none
  totalGpuMemory : Option Memory := none
deriving Inhabited

/-- The samples of nodes by name. -/
abbrev Samples := SortedTable String Sample

/-- What is known of a cluster at one time. -/
structure Snapshot where
  nodes : List Node := []
  pods : List Pod := []
  workloads : List Workload := []
  metrics : Samples := .empty
  takenAt : Instant := .epoch
deriving Inhabited

end TrainingJobs

import TrainingJobs.Node.View

/-!
# Figures of nodes and of the cluster

A `NodeRow` holds the figures of a node as they are shown; `ClusterTotals` adds up the GPUs of all nodes.
-/

namespace TrainingJobs

/-- What there is of a resource on a node, in the unit it is shown in. -/
structure Figures where
  capacity : Float
  allocatable : Float
  requested : Float
  usage : Float

/-- What there is of GPUs on a node. -/
structure GpuFigures where
  capacity : Float
  allocatable : Float
  unhealthy : Float
  allocatedUnits : Float
  allocatedFraction : Float
  usage : Float

/-- What there is of GPU memory on a node, in bytes. -/
structure GpuMemoryFigures where
  capacity : Float
  usage : Float

/-- The figures of a node: cpu in cores, memory in bytes. -/
structure NodeRow where
  name : String
  role : String
  address : String
  status : NodeStatus
  cpu : Figures
  gpu : GpuFigures
  memory : Figures
  gpuMemory : GpuMemoryFigures

namespace NodeRow

/-- The figures of a view. -/
def ofView (v : NodeView) : NodeRow :=
  let r := v.resources
  { name := v.name
    role := if v.role.isEmpty then "<none>" else v.role
    address := v.address
    status := v.status
    cpu := ⟨r.capacity.cpus.cores, r.allocatable.cpus.cores, r.requested.cpus.cores, r.usage.cpus.cores⟩
    gpu := ⟨r.capacity.gpus, r.allocatable.gpus, r.unhealthyGpus, r.allocatedGpuUnits, r.allocated.gpus, r.usage.gpus⟩
    memory := ⟨r.capacity.memory.bytes, r.allocatable.memory.bytes, r.requested.memory.bytes, r.usage.memory.bytes⟩
    gpuMemory := ⟨r.capacity.gpuMemory.bytes, r.usage.gpuMemory.bytes⟩ }

end NodeRow

/-- The GPUs of all nodes. -/
structure ClusterTotals where
  nodes : Nat := 0
  gpus : Float := 0
  allocatedGpus : Float := 0
  unhealthyGpus : Float := 0
  gpusOnReadyNodes : Float := 0
  allocatedGpusOnReadyNodes : Float := 0

/-- A part of a total in percent, rounded; zero when there is nothing. -/
def percent (part total : Float) : Nat :=
  if total ≤ 0 then 0 else roundedWord (part / total * 100)

namespace ClusterTotals

/-- One node more. -/
def add (t : ClusterTotals) (v : NodeView) : ClusterTotals :=
  let r := v.resources
  let t :=
    { t with
      nodes := t.nodes + 1
      gpus := t.gpus + r.capacity.gpus
      allocatedGpus := t.allocatedGpus + r.allocated.gpus
      unhealthyGpus := t.unhealthyGpus + r.unhealthyGpus }
  if v.isReady then
    { t with
      gpusOnReadyNodes := t.gpusOnReadyNodes + r.capacity.gpus
      allocatedGpusOnReadyNodes := t.allocatedGpusOnReadyNodes + r.allocated.gpus }
  else t

/-- The totals of nodes, added from the first to the last. -/
def of (views : List NodeView) : ClusterTotals := views.foldl add {}

/-- How much of the GPUs is allocated. -/
def allocatedPercent (t : ClusterTotals) : Nat := percent t.allocatedGpus t.gpus

/-- How much of the GPUs on nodes that are ready is allocated. -/
def allocatedOnReadyPercent (t : ClusterTotals) : Nat := percent t.allocatedGpusOnReadyNodes t.gpusOnReadyNodes

/-- Whether nodes that are not ready have GPUs. -/
def hasInactiveGpus (t : ClusterTotals) : Bool := t.gpusOnReadyNodes < t.gpus

end ClusterTotals

end TrainingJobs

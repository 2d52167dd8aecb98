import TrainingJobs.Node.Row
import TrainingJobs.Number.Places
import TrainingJobs.Output

/-!
# The report on nodes

`NodeReport.of` holds everything that is shown of the nodes of a snapshot: their figures, the totals of the cluster, and
with details the pods on each node that ask for GPUs.
-/

namespace TrainingJobs

/-! ### Figures as data and as cells -/

/-- Figures as data. -/
def Figures.toJson (f : Figures) : Json :=
  .object [("capacity", .float f.capacity), ("allocatable", .float f.allocatable), ("requested", .float f.requested),
    ("usage", .float f.usage)]

/-- GPU figures as data. -/
def GpuFigures.toJson (f : GpuFigures) : Json :=
  .object [("capacity", .float f.capacity), ("allocatable", .float f.allocatable), ("unhealthy", .float f.unhealthy),
    ("allocated_units", .float f.allocatedUnits), ("allocated_fraction", .float f.allocatedFraction),
    ("usage", .float f.usage)]

/-- Figures of GPU memory as data. -/
def GpuMemoryFigures.toJson (f : GpuMemoryFigures) : Json :=
  .object [("capacity", .float f.capacity), ("usage", .float f.usage)]

/-- The resources of a node as data. -/
def NodeResources.toJson (r : NodeResources) : Json :=
  .object [("capacity", r.capacity.toJson), ("allocatable", r.allocatable.toJson), ("requested", r.requested.toJson),
    ("limited", r.limited.toJson), ("allocated", r.allocated.toJson), ("usage", r.usage.toJson),
    ("fractional_gpu_units_in_use", .float r.extraGpuUnits), ("allocated_gpu_units", .float r.allocatedGpuUnits)]

/-- A view of a node as data. -/
def NodeView.toJson (v : NodeView) : Json :=
  .object [("name", .string v.name), ("role", .string v.role), ("ip_address", .string v.address),
    ("status", .string v.status.name), ("resources", v.resources.toJson)]

namespace NodeRow

/-- A node as data. -/
def toJson (r : NodeRow) : Json :=
  .object [("name", .string r.name), ("role", .string r.role), ("ip_address", .string r.address),
    ("status", .string r.status.name), ("cpu", r.cpu.toJson), ("gpu", r.gpu.toJson), ("memory", r.memory.toJson),
    ("gpu_memory", r.gpuMemory.toJson)]

/-- The columns of a table of nodes. -/
def titles (wide : Bool) : List String :=
  ["NAME", "STATUS", "IP", "GPUs", "ALLOCATED GPUs", "CPUs", "ALLOCATED CPUs", "MEMORY", "ALLOCATED MEMORY"] ++
    if wide then
      ["ROLE", "UNHEALTHY GPUs", "USED GPUs", "GPU MEMORY", "USED GPU MEMORY", "USED CPUs", "USED MEMORY"]
    else []

/-- The cells of a node. -/
def cells (wide : Bool) (r : NodeRow) : List String :=
  [r.name, r.status.name, r.address, shortAmount r.gpu.capacity, shortAmount r.gpu.allocatedFraction,
      shortAmount r.cpu.capacity, shortAmount r.cpu.requested, byteAmount r.memory.capacity,
      byteAmount r.memory.requested] ++
    if wide then
      [r.role, shortAmount r.gpu.unhealthy, shortAmount r.gpu.usage, byteAmount r.gpuMemory.capacity,
        byteAmount r.gpuMemory.usage, shortAmount r.cpu.usage, byteAmount r.memory.usage]
    else []

/-- All values of a node with their titles. -/
def pairs (r : NodeRow) : List (String × String) :=
  [("Name", r.name), ("Status", r.status.name), ("Role", r.role), ("IP", r.address),
    ("GPUs", shortAmount r.gpu.capacity), ("Allocatable GPUs", shortAmount r.gpu.allocatable),
    ("Unhealthy GPUs", shortAmount r.gpu.unhealthy), ("Allocated GPUs", shortAmount r.gpu.allocatedFraction),
    ("Allocated GPU units", shortAmount r.gpu.allocatedUnits), ("Used GPUs", shortAmount r.gpu.usage),
    ("GPU memory", byteAmount r.gpuMemory.capacity), ("Used GPU memory", byteAmount r.gpuMemory.usage),
    ("CPUs", shortAmount r.cpu.capacity), ("Allocatable CPUs", shortAmount r.cpu.allocatable),
    ("Allocated CPUs", shortAmount r.cpu.requested), ("Used CPUs", shortAmount r.cpu.usage),
    ("Memory", byteAmount r.memory.capacity), ("Allocatable memory", byteAmount r.memory.allocatable),
    ("Allocated memory", byteAmount r.memory.requested), ("Used memory", byteAmount r.memory.usage)]

instance : Shown NodeRow := ⟨titles, cells, pairs, toJson⟩

end NodeRow

/-- A pod that asks for GPUs, as it is listed under its node. -/
structure GpuPodRow where
  name : String
  space : String
  phase : PodPhase
  requestedGpus : Float
  allocatedGpus : Float

namespace GpuPodRow

/-- The line of a pod. -/
def ofPod (p : Pod) : GpuPodRow :=
  let c := p.contribution
  ⟨p.name, p.space, p.phase, c.requested.gpus, c.allocated.gpus⟩

/-- A pod as data. -/
def toJson (r : GpuPodRow) : Json :=
  .object [("name", .string r.name), ("namespace", .string r.space), ("phase", .string r.phase.name),
    ("requested_gpus", .float r.requestedGpus), ("allocated_gpus", .float r.allocatedGpus)]

/-- The columns of a table of pods. -/
def titles (_wide : Bool) : List String := ["POD", "NAMESPACE", "PHASE", "REQUESTED GPUs", "ALLOCATED GPUs"]

/-- The cells of a pod. -/
def cells (_wide : Bool) (r : GpuPodRow) : List String :=
  [r.name, r.space, r.phase.name, shortAmount r.requestedGpus, shortAmount r.allocatedGpus]

/-- All values of a pod with their titles. -/
def pairs (r : GpuPodRow) : List (String × String) :=
  [("Pod", r.name), ("Namespace", r.space), ("Phase", r.phase.name), ("Requested GPUs", shortAmount r.requestedGpus),
    ("Allocated GPUs", shortAmount r.allocatedGpus)]

instance : Shown GpuPodRow := ⟨titles, cells, pairs, toJson⟩

end GpuPodRow

namespace ClusterTotals

/-- The totals as data. -/
def toJson (t : ClusterTotals) : Json :=
  .object [("nodes", .nat t.nodes), ("gpus", .float t.gpus), ("allocated_gpus", .float t.allocatedGpus),
    ("unhealthy_gpus", .float t.unhealthyGpus), ("gpus_on_ready_nodes", .float t.gpusOnReadyNodes),
    ("allocated_gpus_on_ready_nodes", .float t.allocatedGpusOnReadyNodes)]

/-- The lines about the GPUs of the cluster. -/
def summary (t : ClusterTotals) : List String :=
  let all := "GPUs allocated: " ++ shortAmount t.allocatedGpus ++ "/" ++ shortAmount t.gpus ++ " (" ++
    toString t.allocatedPercent ++ "%)"
  let onReady :=
    if t.hasInactiveGpus then
      ["GPUs allocated on ready nodes: " ++ shortAmount t.allocatedGpusOnReadyNodes ++ "/" ++
        shortAmount t.gpusOnReadyNodes ++ " (" ++ toString t.allocatedOnReadyPercent ++ "%)"]
    else []
  let unhealthy :=
    if t.unhealthyGpus > 0 then
      ["Unhealthy GPUs: " ++ shortAmount t.unhealthyGpus ++ "/" ++ shortAmount t.gpus]
    else []
  all :: onReady ++ unhealthy

end ClusterTotals

/-- Everything that is shown of nodes. -/
structure NodeReport where
  nodes : List NodeRow
  totals : ClusterTotals
  /-- The pods that ask for GPUs by node; empty without details. -/
  gpuPods : SortedTable String (List GpuPodRow)

namespace NodeReport

/-- The report on the nodes of a snapshot. -/
def of (s : Snapshot) (details : Bool) : NodeReport :=
  let views := s.nodeViews
  let podsOf (n : Node) : String × List GpuPodRow :=
    (n.name, (TrainingJobs.gpuPods (podsOn n.name s.pods)).map GpuPodRow.ofPod)
  { nodes := views.map NodeRow.ofView
    totals := ClusterTotals.of views
    gpuPods := if details then .ofList (s.nodes.map podsOf) else .empty }

/-- The report as data. Without details there is no word of pods. -/
def toJson (r : NodeReport) : Json :=
  let pods : List (String × Json) :=
    if r.gpuPods.isEmpty then []
    else [("gpu_pods", .object (r.gpuPods.entries.map fun e => (e.1, .array (e.2.map GpuPodRow.toJson))))]
  .object ([("nodes", .array (r.nodes.map NodeRow.toJson)), ("cluster", r.totals.toJson)] ++ pods)

/-- The part of the report on a node with details: its values, and its pods if there are any. -/
def nodeSections (f : OutputFormat) (r : NodeReport) (n : NodeRow) : List String :=
  let pods := (r.gpuPods.get? n.name).getD []
  [f.item n, if pods.isEmpty then "No GPU pods" else f.list pods]

/-- The text of the report. -/
def render (r : NodeReport) (f : OutputFormat) : String :=
  match f.data? r.toJson with
  | some text => text
  | none =>
    let sections := if r.gpuPods.isEmpty then [f.list r.nodes] else r.nodes.flatMap (nodeSections f r)
    "\n\n".intercalate (sections ++ ["\n".intercalate r.totals.summary])

end NodeReport

end TrainingJobs

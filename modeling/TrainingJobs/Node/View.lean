import TrainingJobs.Cluster.Snapshot

/-!
# Resources in use on a node

A pod contributes what its containers ask for (`Pod.contribution`); a pod that asks for a fraction of a GPU holds no whole
one. `NodeView.of` adds up the pods of a node and puts in what the metrics say.
-/

namespace TrainingJobs

/-! ### Pods -/

/-- The fraction of a GPU that a pod asks for: zero unless its annotation is a positive number. -/
def Pod.gpuFraction (p : Pod) : Float :=
  match (p.annotations.get? Keys.gpuFraction).bind fun text => readFloat? (Text.trim text) with
  | some x => if isFiniteFloat x && x > 0 then x else 0
  | none => 0

/-- What a pod adds to the node it runs on. -/
structure Contribution where
  requested : Resources := {}
  limited : Resources := {}
  /-- What is requested while the pod runs, and else nothing. -/
  allocated : Resources := {}
  gpuFraction : Float := 0

/-- What a pod contributes. Its GPUs are the fraction it asks for if it asks for one, and else its limit. -/
def Pod.contribution (p : Pod) : Contribution :=
  let limited := Resources.sum (p.containers.map (·.limits))
  let fraction := p.gpuFraction
  let gpus := if fraction > 0 then fraction else limited.gpus
  let requested := { Resources.sum (p.containers.map (·.requests)) with gpus := gpus }
  let allocated := if p.phase = .running then requested else .zero
  { requested := requested, limited := limited, allocated := allocated, gpuFraction := fraction }

/-- Whether a pod holds resources of a node. -/
def Pod.isOn (node : String) (p : Pod) : Bool := p.phase.isActive && p.nodeName == some node

/-- The pods that hold resources of a node. -/
def podsOn (node : String) (pods : List Pod) : List Pod := pods.filter (·.isOn node)

/-- Whether a pod asks for any amount of GPU. -/
def Pod.asksForGpu (p : Pod) : Bool := p.contribution.requested.gpus > 0

/-- The pods that ask for any amount of GPU. -/
def gpuPods (pods : List Pod) : List Pod := pods.filter (·.asksForGpu)

/-! ### Nodes -/

/-- The role that a label gives to a node. -/
def roleOfLabel? (name value : String) : Option String :=
  let role :=
    if Keys.roleLabelStart.toList.isPrefixOf name.toList then
      String.ofList (name.toList.drop Keys.roleLabelStart.length)
    else if name == Keys.roleLabel then value
    else ""
  if role.isEmpty then none else some role

/-- The roles of a node, sorted and each once. -/
def rolesOf (labels : Labels) : List String :=
  (SortedTable.ofList ((labels.entries.filterMap fun e => roleOfLabel? e.1 e.2).map (·, ()))).keys

/-- The resources of a node and what is made of them. -/
structure NodeResources where
  capacity : Resources := {}
  allocatable : Resources := {}
  requested : Resources := {}
  limited : Resources := {}
  allocated : Resources := {}
  usage : Resources := {}
  /-- The units beyond the devices of the node that are offered when pods share GPUs. -/
  extraGpuUnits : Float := 0
  /-- The shared devices in use and the whole GPUs held through limits. -/
  allocatedGpuUnits : Float := 0

namespace NodeResources

/-- The GPUs that the node has but does not offer. -/
def unhealthyGpus (r : NodeResources) : Float :=
  let missing := r.capacity.gpus - r.allocatable.gpus
  if missing > 0 then missing else 0

/-- Whether the node has GPUs that it does not offer. -/
def isUnhealthy (r : NodeResources) : Bool := r.unhealthyGpus > 0

/-- The resources of a node before pods are counted. A node that offers more GPUs than it has shares them; the units it
offers are then its capacity. -/
def ofNode (n : Node) : NodeResources :=
  if n.allocatable.gpus > n.capacity.gpus then
    { capacity := { n.capacity with gpus := n.allocatable.gpus }
      allocatable := n.allocatable
      extraGpuUnits := n.allocatable.gpus - n.capacity.gpus }
  else { capacity := n.capacity, allocatable := n.allocatable }

/-- One more pod is counted. -/
def addPod (r : NodeResources) (p : Pod) : NodeResources :=
  let c := p.contribution
  { r with
    requested := r.requested + c.requested
    limited := r.limited + c.limited
    allocated := r.allocated + c.allocated }

/-- What the metrics say about usage is put in; a figure that is missing leaves what was there. -/
def withSample (r : NodeResources) (s : Sample) : NodeResources :=
  { r with
    usage :=
      { cpus := s.usedCpus.getD r.usage.cpus
        memory := s.usedMemory.getD r.usage.memory
        gpus := s.usedGpus.getD r.usage.gpus
        gpuMemory := s.usedGpuMemory.getD r.usage.gpuMemory }
    capacity := { r.capacity with gpuMemory := s.totalGpuMemory.getD r.capacity.gpuMemory } }

end NodeResources

/-- The shared devices that pods run on, each once. -/
def sharedDevices (pods : List Pod) : List String :=
  (SortedTable.ofList ((pods.filterMap (·.annotations.get? Keys.gpuIndex)).map (·, ()))).keys

/-- Whether a node takes pods. -/
inductive NodeStatus
  | ready
  | notReady
deriving DecidableEq, Repr

/-- The name of a status. -/
def NodeStatus.name : NodeStatus → String
  | .ready => "Ready"
  | .notReady => "NotReady"

/-- A node with the resources in use on it. -/
structure NodeView where
  name : String
  /-- The roles with commas between them. -/
  role : String
  address : String
  status : NodeStatus
  resources : NodeResources

namespace NodeView

/-- The view of a node with the pods on it and what the metrics say about it. -/
def of (n : Node) (pods : List Pod) (sample : Option Sample) : NodeView :=
  let counted := pods.foldl NodeResources.addPod (NodeResources.ofNode n)
  let units := Float.ofNat (sharedDevices pods).length + truncated counted.limited.gpus
  let counted := { counted with allocatedGpuUnits := units }
  { name := n.name
    role := ",".intercalate (rolesOf n.labels)
    address := n.internalAddress.getD "unknown"
    status := if n.ready then .ready else .notReady
    resources := match sample with
      | some s => counted.withSample s
      | none => counted }

/-- Whether the node takes pods. -/
def isReady (v : NodeView) : Bool := v.status = .ready

end NodeView

/-- The views of the nodes of a cluster, in their order. -/
def Snapshot.nodeViews (s : Snapshot) : List NodeView :=
  s.nodes.map fun n => NodeView.of n (podsOn n.name s.pods) (s.metrics.get? n.name)

end TrainingJobs

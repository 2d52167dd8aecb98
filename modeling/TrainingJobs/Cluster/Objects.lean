import TrainingJobs.Cluster.Shape
import TrainingJobs.Cluster.Snapshot

/-!
# Reading the objects of a cluster

Nodes, pods and workloads are read off the objects of the cluster. An amount of a resource that cannot be read is left
out and noted; an object without a name is refused.
-/

namespace TrainingJobs

/-- Why an object gives no record. -/
inductive ObjectError
  | missingKey (key : String)
deriving DecidableEq, Repr

/-- What is said about it. -/
def ObjectError.message : ObjectError → String
  | .missingKey key => "Unable to obtain the current key: " ++ key

/-- Reading with notes on what was left out. The notes stay when the reading fails later. -/
abbrev Noting := ExceptT ObjectError (StateM (List String))

/-- One more note. -/
def note (text : String) : Noting Unit := modify (· ++ [text])

namespace Objects

/-! ### Fields -/

/-- A field of an object that is neither missing nor null. -/
def field? (name : String) (object : Json) : Option Json :=
  (object.member? name).filter fun value => !(value matches .null)

/-- A field behind several names. -/
def path? (names : List String) (object : Json) : Option Json :=
  names.foldlM (fun value name => field? name value) object

/-- A text. -/
def text? : Json → Option String
  | .string text => some text
  | _ => none

/-- A field that is a text. -/
def textField? (name : String) (object : Json) : Option String := (field? name object).bind text?

/-- A field that is a text, empty when it is missing. -/
def textField (name : String) (object : Json) : String := (textField? name object).getD ""

/-- A field that is a time. -/
def timeField? (name : String) (object : Json) : Option Instant := (textField? name object).bind Instant.read?

/-- A field that is a list, empty when it is missing. -/
def listField (name : String) (object : Json) : List Json :=
  match field? name object with
  | some (.array items) => items
  | _ => []

/-- The texts of a table. -/
def tableOf : Json → Labels
  | .object members => .ofList (members.filterMap fun (name, value) => (text? value).map (name, ·))
  | _ => .empty

/-- A field that is a table of texts, empty when it is missing. -/
def tableField (name : String) (object : Json) : Labels := ((field? name object).map tableOf).getD .empty

/-- The metadata of an object. -/
def metadataOf (object : Json) : Json := (field? "metadata" object).getD .null

/-! ### Records -/

/-- An amount of a table of resources; zero and a note when it cannot be read. -/
def amount {α : Type} (zero : α) (read : String → Except QuantityError α) (name : String) (table : Labels) :
    Noting α := do
  match table.get? name with
  | none => return zero
  | some text =>
    match read text with
    | .ok a => return a
    | .error e =>
      note ("Ignoring " ++ name ++ ": " ++ e.message)
      return zero

/-- The amounts of a table of resources. -/
def resourcesOf (table : Labels) : Noting Resources := do
  let cpus ← amount .zero Cpu.read Keys.cpuResource table
  let memory ← amount .zero Memory.read Keys.memoryResource table
  let gpus ← amount 0 Quantity.read Keys.gpuResource table
  return { cpus := cpus, memory := memory, gpus := gpus }

/-- A container. -/
def containerOf (object : Json) : Noting Container := do
  let resources := (field? "resources" object).getD .null
  let requests ← resourcesOf (tableField "requests" resources)
  let limits ← resourcesOf (tableField "limits" resources)
  return { name := textField "name" object, image := textField? "image" object, requests := requests, limits := limits }

/-- The name of an object, which it must have. -/
def nameOf (object : Json) : Noting String := do
  match textField? "name" (metadataOf object) with
  | some name => return name
  | none => throw (.missingKey "metadata:name")

/-- A node. -/
def nodeOf (object : Json) : Noting Node := do
  let name ← nameOf object
  let status := (field? "status" object).getD .null
  let isReady (condition : Json) : Bool :=
    textField "type" condition == "Ready" && textField "status" condition == "True"
  let address := (listField "addresses" status).find? fun address => textField "type" address == "InternalIP"
  let capacity ← resourcesOf (tableField "capacity" status)
  let allocatable ← resourcesOf (tableField "allocatable" status)
  return {
    name := name
    labels := tableField "labels" (metadataOf object)
    internalAddress := address.map (textField "address")
    ready := (listField "conditions" status).any isReady
    capacity := capacity
    allocatable := allocatable }

/-- The time of the last change of the first condition of a kind, perhaps only of those that hold. -/
def transition? (status : Json) (kind : String) (onlyTrue : Bool) : Option Instant :=
  let fits (condition : Json) : Bool :=
    textField "type" condition == kind && (!onlyTrue || textField "status" condition == "True")
  ((listField "conditions" status).find? fits).bind (timeField? "lastTransitionTime")

/-- An owner of an object. -/
def ownerOf (object : Json) : Owner :=
  { kind := textField "kind" object, name := textField "name" object, uid := textField "uid" object }

/-- The reason why a container waits, if it gives one. -/
def waitReason? (status : Json) : Option String :=
  ((path? ["state", "waiting", "reason"] status).bind text?).filter (!·.isEmpty)

/-- A pod. -/
def podOf (object : Json) : Noting Pod := do
  let name ← nameOf object
  let metadata := metadataOf object
  let spec := (field? "spec" object).getD .null
  let status := (field? "status" object).getD .null
  let containers ← (listField "containers" spec).mapM containerOf
  return {
    name := name
    space := textField "namespace" metadata
    nodeName := textField? "nodeName" spec
    hostAddress := textField? "hostIP" status
    phase := .ofName (textField "phase" status)
    labels := tableField "labels" metadata
    annotations := tableField "annotations" metadata
    owners := (listField "ownerReferences" metadata).map ownerOf
    schedulerName := textField? "schedulerName" spec
    containers := containers
    waitReasons := (listField "containerStatuses" status).filterMap waitReason?
    createdAt := timeField? "creationTimestamp" metadata
    initializedAt := transition? status "Initialized" true
    readyTransitionAt := transition? status "Ready" false }

/-- The template of the pods of a workload. -/
def templateOf (object : Json) : Option Json := path? ["spec", "template", "spec"] object

/-- Whether the pods of a workload are handed to a scheduler. -/
def isScheduledBy (scheduler : String) (object : Json) : Bool :=
  (templateOf object).bind (textField? "schedulerName") == some scheduler

/-- A workload of a kind. -/
def workloadOf (kind : WorkloadKind) (object : Json) : Noting Workload := do
  let name ← nameOf object
  let metadata := metadataOf object
  let containers ← ((templateOf object).map (listField "containers")).getD [] |>.mapM containerOf
  return {
    kind := kind
    name := name
    space := textField "namespace" metadata
    uid := textField "uid" metadata
    labels := tableField "labels" metadata
    annotations := tableField "annotations" metadata
    createdAt := timeField? "creationTimestamp" metadata
    deleted := (timeField? "deletionTimestamp" metadata).isSome
    template := containers }

/-! ### Usage of nodes -/

/-- What the server of the cluster says about the use of a node. -/
structure NodeUsage where
  name : Option String
  cpu : String
  memory : String

/-- The two quantities of a usage, both of which must be there. -/
def usage? (value : Json) : Option (String × String) :=
  match value.fields? ["cpu", "memory"] with
  | some [some (.string cpu), some (.string memory)] => some (cpu, memory)
  | _ => none

/-- The use of a node: metadata, a time, a window and the usage, all of which must be there. -/
def nodeUsage? (object : Json) : Option NodeUsage :=
  match object.fields? ["metadata", "timestamp", "window", "usage"] with
  | some [some metadata, some (.string _), some (.string _), some usage] => do
    let (cpu, memory) ← usage? usage
    if Shape.metadata.accepts metadata then some ⟨textField? "name" metadata, cpu, memory⟩ else none
  | _ => none

end Objects

end TrainingJobs

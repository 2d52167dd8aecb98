import TrainingJobs.Json.Value
import TrainingJobs.Time.Instant

/-!
# The shape of objects of a cluster

An object of the cluster is refused as a whole when one of its known fields has the wrong shape, also one that nothing is
read from. Any field may be missing or null; fields that are not known do not matter.
-/

namespace TrainingJobs

/-- What a value has to look like. -/
inductive Shape
  | text
  | truth
  /-- A whole number of the given number of bits. -/
  | whole (bits : Nat)
  | time
  /-- A whole number or a text. -/
  | port
  | list (item : Shape)
  | table (value : Shape)
  /-- An object with known fields. -/
  | fields (known : List (String × Shape))

namespace Shape

mutual

/-- Whether a value has a shape. -/
def accepts : Shape → Json → Bool
  | .text, .string _ => true
  | .truth, .bool _ => true
  | .whole bits, .int n => -(Nat.pow 2 (bits - 1) : Int) ≤ n && n < (Nat.pow 2 (bits - 1) : Int)
  | .time, .string t => (Instant.read? t).isSome
  | .port, .string _ => true
  | .port, .int n => -2147483648 ≤ n && n ≤ 2147483647
  | .list item, .array items => items.all fun value => item.accepts value
  | .table value, .object members => members.all fun m => value.accepts m.2
  | .fields known, .object members => acceptFields known members
  | _, _ => false

/-- Whether all known fields of an object are missing, null or of their shape. -/
def acceptFields : List (String × Shape) → List (String × Json) → Bool
  | [], _ => true
  | (name, shape) :: rest, members =>
    (match Json.lastMember? name members with
      | none => true
      | some .null => true
      | some value => shape.accepts value) && acceptFields rest members

end

/-! ### Metadata -/

/-- A table of texts. -/
def texts : Shape := .table .text

/-- A list of texts. -/
def textList : Shape := .list .text

/-- The reference to an owner. -/
def ownerReference : Shape :=
  .fields [("apiVersion", .text), ("blockOwnerDeletion", .truth), ("controller", .truth), ("kind", .text),
    ("name", .text), ("uid", .text)]

/-- The note of a manager of fields. -/
def managedField : Shape :=
  .fields [("apiVersion", .text), ("fieldsType", .text), ("manager", .text), ("operation", .text),
    ("subresource", .text), ("time", .time)]

/-- The metadata of an object. -/
def metadata : Shape :=
  .fields [("annotations", texts), ("creationTimestamp", .time), ("deletionGracePeriodSeconds", .whole 64),
    ("deletionTimestamp", .time), ("finalizers", textList), ("generateName", .text), ("generation", .whole 64),
    ("labels", texts), ("managedFields", .list managedField), ("name", .text), ("namespace", .text),
    ("ownerReferences", .list ownerReference), ("resourceVersion", .text), ("selfLink", .text), ("uid", .text)]

/-! ### Pods -/

/-- The requests and limits of a container. -/
def resources : Shape :=
  .fields [("claims", .list (.fields [("name", .text)])), ("limits", texts), ("requests", texts)]

/-- A variable of the environment of a container. -/
def envVariable : Shape := .fields [("name", .text), ("value", .text), ("valueFrom", .fields [])]

/-- A port of a container. -/
def containerPort : Shape :=
  .fields [("containerPort", .whole 32), ("hostIP", .text), ("hostPort", .whole 32), ("name", .text),
    ("protocol", .text)]

/-- A volume in a container. -/
def mount : Shape :=
  .fields [("mountPath", .text), ("mountPropagation", .text), ("name", .text), ("readOnly", .truth),
    ("recursiveReadOnly", .text), ("subPath", .text), ("subPathExpr", .text)]

/-- A container of a pod. -/
def container : Shape :=
  .fields [("args", textList), ("command", textList), ("env", .list envVariable), ("envFrom", .list (.fields [])),
    ("image", .text), ("imagePullPolicy", .text), ("name", .text), ("ports", .list containerPort),
    ("resources", resources), ("restartPolicy", .text), ("stdin", .truth), ("stdinOnce", .truth),
    ("terminationMessagePath", .text), ("terminationMessagePolicy", .text), ("tty", .truth),
    ("volumeMounts", .list mount), ("workingDir", .text)]

/-- A taint that a pod tolerates. -/
def toleration : Shape :=
  .fields [("effect", .text), ("key", .text), ("operator", .text), ("tolerationSeconds", .whole 64), ("value", .text)]

/-- What a pod is to be. -/
def podSpec : Shape :=
  .fields [("activeDeadlineSeconds", .whole 64), ("affinity", .fields []),
    ("automountServiceAccountToken", .truth), ("containers", .list container), ("dnsPolicy", .text),
    ("enableServiceLinks", .truth), ("hostIPC", .truth), ("hostNetwork", .truth), ("hostPID", .truth),
    ("hostUsers", .truth), ("hostname", .text), ("imagePullSecrets", .list (.fields [("name", .text)])),
    ("initContainers", .list container), ("nodeName", .text), ("nodeSelector", texts), ("overhead", texts),
    ("preemptionPolicy", .text), ("priority", .whole 32), ("priorityClassName", .text), ("restartPolicy", .text),
    ("runtimeClassName", .text), ("schedulerName", .text), ("serviceAccount", .text), ("serviceAccountName", .text),
    ("setHostnameAsFQDN", .truth), ("shareProcessNamespace", .truth), ("subdomain", .text),
    ("terminationGracePeriodSeconds", .whole 64), ("tolerations", .list toleration),
    ("volumes", .list (.fields [("name", .text)]))]

/-- A condition of an object. -/
def condition : Shape :=
  .fields [("lastHeartbeatTime", .time), ("lastProbeTime", .time), ("lastTransitionTime", .time), ("message", .text),
    ("reason", .text), ("status", .text), ("type", .text)]

/-- The state of a container. -/
def containerState : Shape :=
  .fields [("running", .fields [("startedAt", .time)]),
    ("terminated", .fields [("containerID", .text), ("exitCode", .whole 32), ("finishedAt", .time), ("message", .text),
      ("reason", .text), ("signal", .whole 32), ("startedAt", .time)]),
    ("waiting", .fields [("message", .text), ("reason", .text)])]

/-- What is known of a container of a pod. -/
def containerStatus : Shape :=
  .fields [("allocatedResources", texts), ("containerID", .text), ("image", .text), ("imageID", .text),
    ("lastState", containerState), ("name", .text), ("ready", .truth), ("resources", resources),
    ("restartCount", .whole 32), ("started", .truth), ("state", containerState)]

/-- What is known of a pod. -/
def podStatus : Shape :=
  .fields [("conditions", .list condition), ("containerStatuses", .list containerStatus),
    ("ephemeralContainerStatuses", .list containerStatus), ("hostIP", .text),
    ("hostIPs", .list (.fields [("ip", .text)])), ("initContainerStatuses", .list containerStatus), ("message", .text),
    ("nominatedNodeName", .text), ("phase", .text), ("podIP", .text), ("podIPs", .list (.fields [("ip", .text)])),
    ("qosClass", .text), ("reason", .text), ("resize", .text), ("startTime", .time)]

/-- A pod. -/
def pod : Shape := .fields [("metadata", metadata), ("spec", podSpec), ("status", podStatus)]

/-! ### Nodes -/

/-- A taint of a node. -/
def taint : Shape := .fields [("effect", .text), ("key", .text), ("timeAdded", .time), ("value", .text)]

/-- What a node is to be. -/
def nodeSpec : Shape :=
  .fields [("externalID", .text), ("podCIDR", .text), ("podCIDRs", textList), ("providerID", .text),
    ("taints", .list taint), ("unschedulable", .truth)]

/-- What is known of the system of a node. -/
def nodeInfo : Shape :=
  .fields [("architecture", .text), ("bootID", .text), ("containerRuntimeVersion", .text), ("kernelVersion", .text),
    ("kubeProxyVersion", .text), ("kubeletVersion", .text), ("machineID", .text), ("operatingSystem", .text),
    ("osImage", .text), ("systemUUID", .text)]

/-- What is known of a node. -/
def nodeStatus : Shape :=
  .fields [("addresses", .list (.fields [("address", .text), ("type", .text)])), ("allocatable", texts),
    ("capacity", texts), ("conditions", .list condition),
    ("images", .list (.fields [("names", textList), ("sizeBytes", .whole 64)])), ("nodeInfo", nodeInfo),
    ("phase", .text), ("volumesInUse", textList)]

/-- A node. -/
def node : Shape := .fields [("metadata", metadata), ("spec", nodeSpec), ("status", nodeStatus)]

/-! ### Workloads -/

/-- What pods are made from. -/
def podTemplate : Shape := .fields [("metadata", metadata), ("spec", podSpec)]

/-- A choice of objects by their labels. -/
def selector : Shape :=
  .fields [("matchExpressions", .list (.fields [("key", .text), ("operator", .text), ("values", textList)])),
    ("matchLabels", texts)]

/-- What a job is to be. -/
def jobSpec : Shape :=
  .fields [("activeDeadlineSeconds", .whole 64), ("backoffLimit", .whole 32), ("backoffLimitPerIndex", .whole 32),
    ("completionMode", .text), ("completions", .whole 32), ("managedBy", .text), ("manualSelector", .truth),
    ("maxFailedIndexes", .whole 32), ("parallelism", .whole 32), ("podReplacementPolicy", .text),
    ("selector", selector), ("suspend", .truth), ("template", podTemplate), ("ttlSecondsAfterFinished", .whole 32)]

/-- What is known of a job. -/
def jobStatus : Shape :=
  .fields [("active", .whole 32), ("completedIndexes", .text), ("completionTime", .time),
    ("conditions", .list condition), ("failed", .whole 32), ("failedIndexes", .text), ("ready", .whole 32),
    ("startTime", .time), ("succeeded", .whole 32), ("terminating", .whole 32)]

/-- A job. -/
def job : Shape := .fields [("metadata", metadata), ("spec", jobSpec), ("status", jobStatus)]

/-- What a stateful set is to be. -/
def statefulSetSpec : Shape :=
  .fields [("minReadySeconds", .whole 32), ("podManagementPolicy", .text), ("replicas", .whole 32),
    ("revisionHistoryLimit", .whole 32), ("selector", selector), ("serviceName", .text), ("template", podTemplate)]

/-- What is known of a stateful set. -/
def statefulSetStatus : Shape :=
  .fields [("availableReplicas", .whole 32), ("collisionCount", .whole 32), ("conditions", .list condition),
    ("currentReplicas", .whole 32), ("currentRevision", .text), ("observedGeneration", .whole 64),
    ("readyReplicas", .whole 32), ("replicas", .whole 32), ("updateRevision", .text), ("updatedReplicas", .whole 32)]

/-- A stateful set. -/
def statefulSet : Shape :=
  .fields [("metadata", metadata), ("spec", statefulSetSpec), ("status", statefulSetStatus)]

/-- A config map. -/
def configMap : Shape :=
  .fields [("data", texts), ("immutable", .truth), ("metadata", metadata)]

/-! ### Objects -/

/-- Whether a member is missing or has exactly this text. -/
def hasText (name text : String) (object : Json) : Bool :=
  match object.member? name with
  | none => true
  | some (.string found) => found == text
  | some _ => false

/-- Whether a value is an object of a kind: of its shape, and of its kind and version where it says so. -/
def isObject (version kind : String) (shape : Shape) (value : Json) : Bool :=
  shape.accepts value && hasText "apiVersion" version value && hasText "kind" kind value

end Shape

end TrainingJobs

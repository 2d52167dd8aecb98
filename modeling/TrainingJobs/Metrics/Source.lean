import TrainingJobs.Cluster.Reader
import TrainingJobs.Metrics.Series

/-!
# Sources of metrics

Samples come from a metrics server, where an expression that fails only leaves its figure out, or from the server of the
cluster itself, which knows the use of processors and memory.
-/

namespace TrainingJobs

/-- Where samples come from. -/
inductive MetricsSource
  /-- A metrics server at an address. -/
  | address (address : String)
  /-- The server of the cluster. -/
  | cluster
deriving DecidableEq, Repr

namespace MetricsSource

/-- The address that expressions are sent to. -/
def queryAddress (address : String) : String :=
  String.ofList (address.toList.reverse.dropWhile (· == '/')).reverse ++ "/api/v1/query"

/-- The series of a figure; none when the answer is of no use. -/
def seriesOf (address : String) (field : SampleField) : Program (List Series) := do
  return ((← Program.ask (.query (queryAddress address) field.expression)).bind Series.ofAnswer?).getD []

/-- The samples of figures one after the other. -/
def gather (address : String) : List SampleField → Samples → Program Samples
  | [], samples => return samples
  | field :: rest, samples => do
    let series ← seriesOf address field
    gather address rest (samples.merge field series)

/-- The sample of a node by its use; a quantity that cannot be read is left out. -/
def ofUsage (usage : Objects.NodeUsage) : Sample :=
  { usedCpus := (Cpu.read usage.cpu).toOption, usedMemory := (Memory.read usage.memory).toOption }

/-- The samples of all nodes that have a name. -/
def ofUsages (usages : List Objects.NodeUsage) : Samples :=
  .ofList (usages.filterMap fun usage => usage.name.map fun name => (name, ofUsage usage))

/-- Reads the samples of all nodes. -/
def read : MetricsSource → Program (Except ApiError Samples)
  | .address a => do return .ok (← gather a SampleField.all .empty)
  | .cluster => do
    match ← Program.ask (.listObjects .nodeMetrics none false) with
    | .error e => return .error e
    | .ok objects =>
      match objects.mapM Objects.nodeUsage? with
      | none => return .error .undecodable
      | some usages => return .ok (ofUsages usages)

end MetricsSource

end TrainingJobs

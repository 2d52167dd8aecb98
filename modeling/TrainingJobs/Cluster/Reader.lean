import TrainingJobs.Cluster.Objects
import TrainingJobs.Program

/-!
# Reading a cluster

`readNodes` reads the nodes of a cluster with the pods that hold resources on them, `readJobs` the workloads of the
program's scheduler with all pods. All lists are asked for before any answer is looked at; of several failures the first
in that order counts.
-/

namespace TrainingJobs

/-- Why a cluster could not be read. -/
inductive ClusterError
  | api (error : ApiError)
  | object (error : ObjectError)
deriving DecidableEq, Repr

/-- What is said about it. -/
def ClusterError.message : ClusterError → String
  | .api e => e.message
  | .object e => e.message

namespace Reader

/-- A list of objects that all must be of a kind. -/
def decoded (isOne : Json → Bool) : Except ApiError (List Json) → Except ClusterError (List Json)
  | .error e => .error (.api e)
  | .ok objects => if objects.all isOne then .ok objects else .error (.api .undecodable)

/-- The result of a reading; its notes go to the log. -/
def withNotes {α : Type} (reading : Noting α) : Program (Except ClusterError α) := do
  let (result, notes) := reading.run.run []
  notes.forM Program.warn
  match result with
  | .ok a => return .ok a
  | .error e => return .error (.object e)

/-- Nodes in the order of their names. -/
def sortedByName (nodes : List Node) : List Node := nodes.mergeSort fun a b => (compare a.name b.name).isLE

/-- The nodes and pods of a snapshot. -/
def nodeRecords (nodes pods : List Json) : Noting (List Node × List Pod) := do
  let nodes ← nodes.mapM Objects.nodeOf
  let pods ← pods.mapM Objects.podOf
  return (sortedByName nodes, pods)

/-- The workloads and pods of a snapshot: first jobs, then stateful sets. -/
def jobRecords (scheduler : String) (jobs sets pods : List Json) : Noting (List Workload × List Pod) := do
  let jobs ← (jobs.filter (Objects.isScheduledBy scheduler)).mapM (Objects.workloadOf .job)
  let sets ← (sets.filter (Objects.isScheduledBy scheduler)).mapM (Objects.workloadOf .statefulSet)
  let pods ← pods.mapM Objects.podOf
  return (jobs ++ sets, pods)

end Reader

/-- Reads the nodes and the pods that hold resources on them. -/
def readNodes : Program (Except ClusterError Snapshot) := do
  let nodes ← Program.ask (.listObjects .nodes none false)
  let pods ← Program.ask (.listObjects .pods none true)
  match Reader.decoded (Shape.isObject "v1" "Node" Shape.node) nodes,
      Reader.decoded (Shape.isObject "v1" "Pod" Shape.pod) pods with
  | .error e, _ => return .error e
  | _, .error e => return .error e
  | .ok nodes, .ok pods =>
    let takenAt ← Program.ask .now
    match ← Reader.withNotes (Reader.nodeRecords nodes pods) with
    | .error e => return .error e
    | .ok (nodes, pods) => return .ok { nodes := nodes, pods := pods, takenAt := takenAt }

/-- Reads the workloads whose pods go to a scheduler, and all pods, of one namespace or of all. -/
def readJobs (scheduler : String) (space : Option String) : Program (Except ClusterError Snapshot) := do
  let jobs ← Program.ask (.listObjects .jobs space false)
  let sets ← Program.ask (.listObjects .statefulSets space false)
  let pods ← Program.ask (.listObjects .pods space false)
  match Reader.decoded (Shape.isObject "batch/v1" "Job" Shape.job) jobs,
      Reader.decoded (Shape.isObject "apps/v1" "StatefulSet" Shape.statefulSet) sets,
      Reader.decoded (Shape.isObject "v1" "Pod" Shape.pod) pods with
  | .error e, _, _ => return .error e
  | _, .error e, _ => return .error e
  | _, _, .error e => return .error e
  | .ok jobs, .ok sets, .ok pods =>
    let takenAt ← Program.ask .now
    match ← Reader.withNotes (Reader.jobRecords scheduler jobs sets pods) with
    | .error e => return .error e
    | .ok (workloads, pods) => return .ok { workloads := workloads, pods := pods, takenAt := takenAt }

end TrainingJobs

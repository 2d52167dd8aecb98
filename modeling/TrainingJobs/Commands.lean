import TrainingJobs.Failure
import TrainingJobs.Job.Row
import TrainingJobs.Metrics.Source
import TrainingJobs.Node.Report

/-!
# Commands

What the program does for somebody at a terminal: show nodes and jobs, submit, delete and prune jobs. A command reads, acts
and prints; it ends with nothing or with a failure.
-/

namespace TrainingJobs.Commands

/-- The outcome of a command. -/
abbrev Command := Program (Except Failure Unit)

/-- A reading of the cluster. -/
abbrev Reading := Program (Except ClusterError Snapshot)

/-! ### Showing -/

/-- Shows the nodes of a cluster. Without metrics the figures of use are left at zero. -/
def topNodes (cluster : Reading) (metrics : Program (Except ApiError Samples)) (details : Bool)
    (format : OutputFormat) : Command := do
  match ← cluster with
  | .error e => return .error ((Failure.ofCluster e).within "Failed to read the nodes of the cluster")
  | .ok snapshot =>
    let snapshot := match ← metrics with
      | .ok samples => { snapshot with metrics := samples }
      | .error _ => snapshot
    Program.printLine ((NodeReport.of snapshot details).render format)
    return .ok ()

/-- A reading of jobs that failed. -/
def jobsUnread (e : ClusterError) : Failure :=
  (Failure.ofCluster e).within "Failed to read the jobs of the cluster"

/-- Lists the jobs of a cluster. -/
def listJobs (cluster : Reading) (scheduler : String) (format : OutputFormat) : Command := do
  match ← cluster with
  | .error e => return .error (jobsUnread e)
  | .ok snapshot =>
    Program.printLine (format.list (jobRows snapshot scheduler))
    return .ok ()

/-- Shows the only job of a name. -/
def getJob (cluster : Reading) (name scheduler : String) (format : OutputFormat) : Command := do
  match ← cluster with
  | .error e => return .error (jobsUnread e)
  | .ok snapshot =>
    match findJob (JobView.ofSnapshot snapshot) name with
    | .error e => return .error (.ofLookup e)
    | .ok job =>
      Program.printLine (format.item (job.row snapshot.takenAt scheduler))
      return .ok ()

/-! ### Submitting -/

/-- Prints the document that a request would be submitted with. -/
def dryRun (request : SubmitRequest) : Command := do
  match request.values with
  | .error e => return .error (.ofRequest e)
  | .ok values =>
    match values.render? with
    | none => return .error ⟨[.document]⟩
    | some text =>
      Program.print text
      return .ok ()

/-- What is said about a job that was submitted. -/
def submitted (identity : JobIdentity) (space : String) (format : OutputFormat) : List String :=
  let data : Json := .object [("name", .string identity.resolved), ("requested", .string identity.requested.text),
    ("namespace", .string space)]
  match format.data? data with
  | some text => [text]
  | none =>
    (if identity.resolved = identity.requested.text then []
      else ["The name " ++ identity.requested.text ++ " is taken, the job was named " ++ identity.resolved]) ++
      ["The job " ++ identity.resolved ++ " has been submitted successfully"]

/-- Submits a job. -/
def submitJob (settings : LifecycleSettings) (request : SubmitRequest) (space : String) (format : OutputFormat) :
    Command := do
  match ← Lifecycle.submit settings request space with
  | .error .crashed => return .error .crash
  | .error e => return .error ((Failure.ofLifecycle e).within ("Failed to submit " ++ request.name.text))
  | .ok submission =>
    (submitted submission.identity space format).forM Program.printLine
    return .ok ()

/-! ### Deleting -/

/-- Deletes jobs one after the other and counts those that could not be deleted. -/
def deleteEach (space : String) : List String → Program Nat
  | [] => return 0
  | name :: rest => do
    match ← Lifecycle.delete space name with
    | .ok () =>
      Program.printLine ("The job " ++ name ++ " has been deleted")
      deleteEach space rest
    | .error e =>
      Program.logError ("Failed to delete " ++ name ++ ": " ++ e.message)
      return (← deleteEach space rest) + 1

/-- Deletes every job named, also behind one that could not be deleted. -/
def deleteJobs (space : String) (names : List String) : Command := do
  let failures ← deleteEach space names
  if failures > 0 then
    return .error (.of (toString failures ++ " of " ++ toString names.length ++ " jobs could not be deleted"))
  else return .ok ()

/-- Deletes jobs one after the other, up to the first that cannot be deleted, and gives the names of those that were.
A job that was not submitted here is passed over. -/
def pruneEach : List JobView → Program (Except Failure (List String))
  | [] => return .ok []
  | job :: rest => do
    match ← Lifecycle.delete job.workload.space job.workload.name with
    | .ok () => return (← pruneEach rest).map (job.workload.name :: ·)
    | .error (.notFound name) =>
      Program.warn ("Skipping " ++ name ++ ", it was not submitted from this CLI")
      pruneEach rest
    | .error e => return .error ((Failure.ofLifecycle e).within ("Failed to prune " ++ job.workload.name))

/-- Deletes the jobs that do not run and are older than a duration, and gives their names. -/
def prune (cluster : Reading) (olderThan : Duration) : Program (Except Failure (List String)) := do
  match ← cluster with
  | .error e => return .error (jobsUnread e)
  | .ok snapshot => pruneEach (pruneCandidates (JobView.ofSnapshot snapshot) snapshot.takenAt olderThan)

/-- What is said about pruned jobs. -/
def pruned (names : List String) : List String :=
  (if names.isEmpty then ["No jobs to prune"] else []) ++
    names.map fun name => "The job " ++ name ++ " has been pruned"

/-- Prunes jobs and says which. -/
def pruneJobs (cluster : Reading) (olderThan : Duration) : Command := do
  match ← prune cluster olderThan with
  | .error e => return .error e
  | .ok names =>
    (pruned names).forM Program.printLine
    return .ok ()

end TrainingJobs.Commands

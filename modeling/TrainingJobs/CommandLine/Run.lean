import TrainingJobs.CommandLine.Basic
import TrainingJobs.Commands
import TrainingJobs.Settings.Load

/-!
# Carrying out command lines

Settings and command line together say where a command works (`CommandLine.scope`), what it submits and which jobs it
prunes (`pruneThreshold`). Whatever is wrong with them is said before the cluster is connected to.
-/

namespace TrainingJobs

/-! ### The log -/

/-- How much is written to the log, by how often more was asked for. -/
def logLevelName : Nat → String
  | 0 => "warn"
  | 1 => "info"
  | 2 => "debug"
  | _ => "trace"

/-! ### Pruning -/

/-- The age of so many days and hours, if each of them and both together are within the range of durations. -/
def ageOf? (days hours : Int) : Option Duration := do
  let days ← Duration.ofDays? days
  let hours ← Duration.ofHours? hours
  days.add? hours

/-- The least age of the jobs that are pruned. -/
def pruneThreshold (days hours : Int) : Except Failure Duration :=
  match ageOf? days hours with
  | none => .error (.of ("--days " ++ toString days ++ " --hours " ++ toString hours ++ " is out of range"))
  | some age =>
    if age.nanos ≤ 0 then .error (.of "Pass --days or --hours to select the jobs to prune") else .ok age

/-! ### Submitting -/

/-- The variable for the user of jobs. -/
def userVariable : String := "USER"

/-- The request to submit something in a project. -/
def SubmitArguments.request (a : SubmitArguments) (project : String) (env : Environment) :
    Except Failure SubmitRequest :=
  match JobName.read a.name with
  | .error e => .error ⟨[.message (a.name ++ " is not a valid job name"), .jobName e]⟩
  | .ok name => .ok {
      name := name
      autoName := a.generateName
      image := a.image
      gpu := a.gpu
      cpu := a.cpu
      memory := a.memory
      cpuLimit := a.cpuLimit
      memoryLimit := a.memoryLimit
      environment := a.environment
      set := a.set
      project := project
      user := a.user.or (env.get? userVariable)
      interactive := a.interactive }

namespace Settings

/-- What jobs are submitted with. -/
def lifecycle (s : Settings) : LifecycleSettings :=
  { chart := s.chart
    systemSpace := s.systemSpace
    registrationRetries := s.registrationRetries
    indexRetries := s.registrationRetries }

/-- Where metrics come from. -/
def metricsSource (s : Settings) : MetricsSource :=
  match s.metricsAddress with
  | some address => .address address
  | none => .cluster

end Settings

namespace CommandLine

/-- The project that a command line is about. -/
def projectIn (line : CommandLine) (s : Settings) : Except Failure String :=
  match line.project.or s.defaultProject with
  | some project => .ok project
  | none => .error (.of "No project selected, use --project or set default_project in the configuration")

/-- The namespace of that project. -/
def spaceIn (line : CommandLine) (s : Settings) : Except Failure String := (line.projectIn s).map s.spaceOf

/-- The namespace that a command line is about, or none for all of them. -/
def scope (line : CommandLine) (s : Settings) : Except Failure (Option String) :=
  if line.allProjects then .ok none else (line.spaceIn s).map some

/-- Goes on if there is a cluster. -/
def connected (hasCluster : Bool) (next : Commands.Command) : Commands.Command :=
  if hasCluster then next else return .error (.of "Failed to connect to the cluster")

/-- Goes on with a value, or ends with what is wrong. -/
def withValue {α : Type} (value : Except Failure α) (next : α → Commands.Command) : Commands.Command :=
  match value with
  | .ok a => next a
  | .error e => return .error e

/-- Carries out a command line with settings. -/
def perform (line : CommandLine) (s : Settings) (env : Environment) (hasCluster : Bool) : Commands.Command :=
  match line.action with
  | .topNodes details =>
    connected hasCluster (Commands.topNodes readNodes s.metricsSource.read details line.output)
  | .list =>
    withValue (line.scope s) fun scope =>
      connected hasCluster (Commands.listJobs (readJobs s.scheduler scope) s.scheduler line.output)
  | .get name =>
    withValue (line.spaceIn s) fun space =>
      connected hasCluster
        (Commands.getJob (readJobs s.scheduler (some space)) name s.scheduler line.output)
  | .submit arguments =>
    withValue (line.projectIn s) fun project =>
      withValue (arguments.request project env) fun request =>
        if arguments.dryRun then Commands.dryRun request
        else connected hasCluster (Commands.submitJob s.lifecycle request (s.spaceOf project) line.output)
  | .delete names =>
    withValue (line.spaceIn s) fun space => connected hasCluster (Commands.deleteJobs space names)
  | .prune days hours =>
    withValue (pruneThreshold days hours) fun olderThan =>
      withValue (line.scope s) fun scope =>
        connected hasCluster (Commands.pruneJobs (readJobs s.scheduler scope) olderThan)

/-- Loads the settings and carries out a command line. -/
def run (line : CommandLine) (env : Environment) (read : FileReader) (hasCluster : Bool) : Commands.Command :=
  withValue (Settings.load line.settings env read) fun s => line.perform s env hasCluster

end CommandLine

end TrainingJobs

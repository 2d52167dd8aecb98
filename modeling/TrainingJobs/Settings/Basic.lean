/-!
# Settings

What a user can set once for all commands: where jobs run, with which chart, and how patient the program is.
-/

namespace TrainingJobs

/-- The settings of the program. -/
structure Settings where
  /-- The project of commands that name none. -/
  defaultProject : Option String := none
  /-- What the namespace of a project starts with. -/
  spaceStart : String := "runai-"
  /-- The namespace of the counter of jobs. -/
  systemSpace : String := "runai"
  /-- The address of a metrics server; without one the cluster itself is asked. -/
  metricsAddress : Option String := none
  /-- How many seconds the metrics server gets. -/
  metricsTimeout : Nat := 10
  /-- The chart of jobs. -/
  chart : String := "trainctl/train"
  /-- The scheduler whose pods belong to jobs. -/
  scheduler : String := "runai-scheduler"
  /-- How often a numbered name is tried. -/
  registrationRetries : Nat := 5
deriving DecidableEq, Repr, Inhabited

/-- The namespace of a project. -/
def Settings.spaceOf (s : Settings) (project : String) : String := s.spaceStart ++ project

end TrainingJobs

import TrainingJobs.CommandLine.Words

/-!
# Command lines

A command line says what is to be done (`Action`), and for which project, in which format and with which settings. An
option of the program counts where it stands behind the last command.
-/

namespace TrainingJobs

/-- What is submitted. -/
structure SubmitArguments where
  name : String := ""
  image : String := ""
  gpu : Option Float := none
  cpu : Option String := none
  memory : Option String := none
  cpuLimit : Option String := none
  memoryLimit : Option String := none
  environment : List String := []
  set : List String := []
  user : Option String := none
  interactive : Bool := false
  /-- Whether a free name is picked when the one asked for is taken. -/
  generateName : Bool := false
  /-- Whether the values are only shown. -/
  dryRun : Bool := false

/-- What is to be done. -/
inductive Action
  | topNodes (details : Bool)
  | list
  | get (name : String)
  | submit (arguments : SubmitArguments)
  | delete (names : List String)
  | prune (days hours : Int)

/-- A command line. -/
structure CommandLine where
  project : Option String := none
  allProjects : Bool := false
  output : OutputFormat := .table
  /-- How often more words in the log are asked for. -/
  verbosity : Nat := 0
  /-- The path of the settings. -/
  settings : Option String := none
  action : Action

namespace Level

/-- Whether an argument was given. -/
def has (l : Level) (name : String) : Bool := l.given.contains name

/-- The values of an argument. -/
def values (l : Level) (name : String) : List ArgumentValue := (l.given.get? name).getD []

/-- The texts of an argument. -/
def texts (l : Level) (name : String) : List String :=
  (l.values name).filterMap fun
    | .text t => some t
    | _ => none

/-- The first text of an argument. -/
def text? (l : Level) (name : String) : Option String := (l.texts name).head?

/-- The number of an argument. -/
def integer? (l : Level) (name : String) : Option Int :=
  (l.values name).findSome? fun
    | .integer n => some n
    | _ => none

/-- The real number of an argument. -/
def real? (l : Level) (name : String) : Option Float :=
  (l.values name).findSome? fun
    | .real x => some x
    | _ => none

/-- The format of an argument. -/
def format? (l : Level) (name : String) : Option OutputFormat :=
  (l.values name).findSome? fun
    | .format f => some f
    | _ => none

/-- What a command is to submit. -/
def submitArguments (l : Level) : SubmitArguments :=
  { name := (l.text? "NAME").getD ""
    image := (l.text? "image").getD ""
    gpu := l.real? "gpu"
    cpu := l.text? "cpu"
    memory := l.text? "memory"
    cpuLimit := l.text? "cpu-limit"
    memoryLimit := l.text? "memory-limit"
    environment := l.texts "environment"
    set := l.texts "set"
    user := l.text? "user"
    interactive := l.has "interactive"
    generateName := l.has "generate-name"
    dryRun := l.has "dry-run" }

/-- What a command is to do. A command with subcommands does nothing itself. -/
def action? (l : Level) : Option Action :=
  match l.command with
  | .program => none
  | .top => none
  | .topNode => some (.topNodes (l.has "details"))
  | .list => some .list
  | .get => some (.get ((l.text? "NAME").getD ""))
  | .submit => some (.submit l.submitArguments)
  | .delete => some (.delete (l.texts "NAMES"))
  | .prune => some (.prune ((l.integer? "days").getD 0) ((l.integer? "hours").getD 0))

end Level

namespace CommandLine

/-- The command line of levels, from the last command to the first. -/
def ofLevels? (levels : List Level) : Option CommandLine := do
  let last ← levels.head?
  let action ← last.action?
  return {
    project := levels.findSome? (·.text? "project")
    allProjects := levels.any (·.has "all-projects")
    output := (levels.findSome? (·.format? "output")).getD .table
    verbosity := ((levels.findSome? fun (l : Level) => l.integer? "verbose").getD 0).toNat
    settings := levels.findSome? (·.text? "config")
    action := action }

/-- Reads the words behind the name of the program. -/
def read (words : List String) : Except UsageError CommandLine := do
  match ofLevels? (← Words.read words) with
  | some line => return line
  | none => .error .missingSubcommand

end CommandLine

end TrainingJobs

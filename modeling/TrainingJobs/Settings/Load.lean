import TrainingJobs.Failure
import TrainingJobs.Files
import TrainingJobs.Settings.Reader

/-!
# Loading settings

Settings come from a file: one that is named, else one named by the environment, else one in the home directory. A file
that is not there leaves all settings as they are. The environment has the last word on two of them.
-/

namespace TrainingJobs

/-- The variables that the program is run with. -/
abbrev Environment := SortedTable String String

/-- A way to read files. -/
abbrev FileReader := String → Except FileError String

namespace Settings

/-- The name of the file in the home directory. -/
def fileName : String := ".trainctl.ron"

/-- The variable that names the file. -/
def fileVariable : String := "TRAINCTL_CONFIG"

/-- The variable that names the home directory. -/
def homeVariable : String := "HOME"

/-- The variable for the address of a metrics server. -/
def metricsVariable : String := "PROMETHEUS_ADDRESS"

/-- The variable for the default project. -/
def projectVariable : String := "TRAINCTL_PROJECT"

/-- The path of the file that settings come from. -/
def path? (named : Option String) (env : Environment) : Option String :=
  named.or ((env.get? fileVariable).or ((env.get? homeVariable).map (joinPath · fileName)))

/-- Settings with what the environment says. -/
def inEnvironment (env : Environment) (s : Settings) : Settings :=
  { s with
    metricsAddress := (env.get? metricsVariable).or s.metricsAddress
    defaultProject := (env.get? projectVariable).or s.defaultProject }

/-- A file that cannot be read. -/
def unreadable (path : String) (e : FileError) : Failure :=
  .withCause ("Failed to read " ++ path) (some e.text)

/-- A file that holds no settings. -/
def unparsed (path : String) : Failure :=
  ⟨[.message ("In " ++ path), .message "Failed to parse the configuration", .configText]⟩

/-- The settings of a file. -/
def ofFile (read : FileReader) (path : String) : Except Failure Settings :=
  match read path with
  | .error .absent => .ok {}
  | .error e => .error (unreadable path e)
  | .ok content =>
    match read? content with
    | some s => .ok s
    | none => .error (unparsed path)

/-- Loads the settings. -/
def load (named : Option String) (env : Environment) (read : FileReader) : Except Failure Settings :=
  match path? named env with
  | none => .ok (inEnvironment env {})
  | some path => (ofFile read path).map (inEnvironment env)

end Settings

end TrainingJobs

import TrainingJobs.Job.Name
import TrainingJobs.Number.Style
import TrainingJobs.Quantity
import TrainingJobs.SortedTable
import TrainingJobs.Yaml.Node
import TrainingJobs.Yaml.Printer

/-!
# Requests for jobs

What somebody asks for becomes the values of the chart (`SubmitRequest.values`), or is refused. The values are written as
a YAML mapping with the fields in a fixed order and the extra values behind them.
-/

namespace TrainingJobs

/-- What somebody asks for. -/
structure SubmitRequest where
  name : JobName
  autoName : Bool := false
  image : String := ""
  gpu : Option Float := none
  cpu : Option String := none
  memory : Option String := none
  cpuLimit : Option String := none
  memoryLimit : Option String := none
  /-- Texts of the form `KEY=VALUE`. -/
  environment : List String := []
  /-- Texts of the form `KEY=VALUE` with YAML for values. -/
  set : List String := []
  project : String := ""
  user : Option String := none
  interactive : Bool := false

/-- Why a request is refused. -/
inductive RequestError
  | invalidGpu (gpu : Float)
  | invalidQuantity (field value : String) (cause : QuantityError)
  | invalidPair (text : String)

namespace RequestError

/-- What is said about it. -/
def message : RequestError → String
  | .invalidGpu gpu =>
    NumberStyle.message.write gpu ++ " GPUs cannot be requested, use a fraction below 1 or a whole count"
  | .invalidQuantity field value cause =>
    "Invalid " ++ field ++ " quantity " ++ value ++ ": " ++ cause.message
  | .invalidPair text => "Expected KEY=VALUE, got " ++ text

/-- The cause behind it, if there is one. -/
def cause? : RequestError → Option String
  | .invalidQuantity _ _ cause => some cause.message
  | _ => none

end RequestError

/-- The values of the chart. -/
structure ChartValues where
  image : String
  gpu : Option Nat
  gpuFraction : Option Float
  cpu : Option String
  memory : Option String
  cpuLimit : Option String
  memoryLimit : Option String
  environment : SortedTable String String
  project : String
  user : Option String
  interactive : Bool
  jobIndex : Option Nat
  extra : SortedTable String Yaml

/-! ### Pairs -/

/-- Splits `KEY=VALUE`: white space around the key does not belong to it, a key has at least one character and neither
white space nor an equals sign in it, and a value is on one line. -/
def splitPair? (text : String) : Option (String × String) :=
  let cs := text.toList.dropWhile Text.isBlank
  let inKey (c : Char) : Bool := c != '=' && !Text.isBlank c
  let key := cs.takeWhile inKey
  match (cs.dropWhile inKey).dropWhile Text.isBlank with
  | '=' :: value =>
    if key.isEmpty || value.contains '\n' then none else some (String.ofList key, String.ofList value)
  | _ => none

/-- Splits `KEY=VALUE`, or says what is wrong. -/
def splitPair (text : String) : Except RequestError (String × String) :=
  match splitPair? text with
  | some pair => .ok pair
  | none => .error (.invalidPair text)

/-- The value that a text stands for: what it says as YAML, or itself when it is none. -/
def typedValue (text : String) : Yaml := (Yaml.read? text).getD (.string text)

/-! ### GPUs -/

/-- The GPUs of a chart: whole devices or a fraction of one. -/
inductive GpuShare
  | none
  | whole (count : Nat)
  | fraction (part : Float)

/-- What an amount of GPUs asks for: none, a fraction below one, or whole devices. -/
def GpuShare.ofAmount (gpu : Option Float) : Except RequestError GpuShare :=
  match gpu with
  | .none => .ok .none
  | some x =>
    if x == 0 then .ok .none
    else if x > 0 && x < 1 then .ok (.fraction x)
    else if x ≥ 1 && isWholeFloat x then .ok (.whole (wordOfFloat x))
    else .error (.invalidGpu x)

/-- The number of whole devices. -/
def GpuShare.count? : GpuShare → Option Nat
  | .whole n => some n
  | _ => Option.none

/-- The fraction of a device. -/
def GpuShare.part? : GpuShare → Option Float
  | .fraction x => some x
  | _ => Option.none

/-! ### Values -/

/-- An amount that must be a quantity where there is one. -/
def checkedQuantity (field : String) : Option String → Except RequestError (Option String)
  | none => .ok none
  | some value =>
    match Quantity.read value with
    | .ok _ => .ok (some value)
    | .error cause => .error (.invalidQuantity field value cause)

namespace SubmitRequest

/-- The values that a request stands for. What is looked at first is refused first: GPUs, environment, extra values, and
then the amounts. -/
def values (r : SubmitRequest) : Except RequestError ChartValues := do
  let gpu ← GpuShare.ofAmount r.gpu
  let environment ← r.environment.mapM splitPair
  let set ← r.set.mapM splitPair
  let cpu ← checkedQuantity "cpu" r.cpu
  let memory ← checkedQuantity "memory" r.memory
  let cpuLimit ← checkedQuantity "cpu limit" r.cpuLimit
  let memoryLimit ← checkedQuantity "memory limit" r.memoryLimit
  return {
    image := r.image
    gpu := gpu.count?
    gpuFraction := gpu.part?
    cpu := cpu
    memory := memory
    cpuLimit := cpuLimit
    memoryLimit := memoryLimit
    environment := .ofList environment
    project := r.project
    user := r.user
    interactive := r.interactive
    jobIndex := none
    extra := .ofList (set.map fun (key, value) => (key, typedValue value)) }

end SubmitRequest

namespace ChartValues

/-- A field that can be missing. -/
def optional {α : Type} (name : String) (write : α → Yaml) : Option α → List (String × Yaml)
  | none => []
  | some a => [(name, write a)]

/-- The fields of the values, those that are missing left out. -/
def fields (v : ChartValues) : List (String × Yaml) :=
  [("image", .string v.image)] ++ optional "gpu" (fun n => .int n) v.gpu ++
    optional "gpuFraction" .float v.gpuFraction ++ optional "cpu" .string v.cpu ++
    optional "memory" .string v.memory ++ optional "cpuLimit" .string v.cpuLimit ++
    optional "memoryLimit" .string v.memoryLimit ++
    (if v.environment.isEmpty then []
      else [("environment", .mapping (v.environment.entries.map fun e => (.string e.1, .string e.2)))]) ++
    [("project", .string v.project)] ++ optional "user" .string v.user ++ [("interactive", .bool v.interactive)] ++
    optional "jobIndex" (fun n => .int n) v.jobIndex

/-- The entries of the document: the fields, and behind them the extra values by name. -/
def entries (v : ChartValues) : List (String × Yaml) := v.fields ++ v.extra.entries

/-- The values as a YAML value. -/
def toYaml (v : ChartValues) : Yaml := .mapping (v.entries.map fun e => (.string e.1, e.2))

/-- The document of the values, if its values can be written. -/
def render? (v : ChartValues) : Option String := Yaml.render? v.toYaml

end ChartValues

end TrainingJobs

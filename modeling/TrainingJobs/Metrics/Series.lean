import TrainingJobs.Cluster.Snapshot
import TrainingJobs.Json.Reader

/-!
# Series of metrics

Each figure of a sample comes from an expression of its own. The answer to an expression is a list of series, one for each
node, and `merge` puts their values into the samples.
-/

namespace TrainingJobs

/-- The figures of a sample. -/
inductive SampleField
  | usedCpus
  | usedMemory
  | usedGpus
  | usedGpuMemory
  | totalGpuMemory
deriving DecidableEq, Repr

namespace SampleField

/-- All figures, in the order they are asked for. -/
def all : List SampleField := [.usedCpus, .usedMemory, .usedGpus, .usedGpuMemory, .totalGpuMemory]

/-- The expression for a figure of every node. Memory of GPUs is reported in units of 1024 * 1024 bytes, and their use in
percent. -/
def expression : SampleField → String
  | .usedCpus => "sum by (node) (rate(container_cpu_usage_seconds_total\x7bcontainer!=\"\"\x7d[2m]))"
  | .usedMemory => "sum by (node) (container_memory_working_set_bytes\x7bcontainer!=\"\"\x7d)"
  | .usedGpus => "sum by (node) (DCGM_FI_DEV_GPU_UTIL) / 100"
  | .usedGpuMemory => "sum by (node) (DCGM_FI_DEV_FB_USED) * 1024 * 1024"
  | .totalGpuMemory => "sum by (node) (DCGM_FI_DEV_FB_USED + DCGM_FI_DEV_FB_FREE) * 1024 * 1024"

/-- A sample with a figure set. -/
def set (s : Sample) (value : Float) : SampleField → Sample
  | .usedCpus => { s with usedCpus := some ⟨value⟩ }
  | .usedMemory => { s with usedMemory := some ⟨value⟩ }
  | .usedGpus => { s with usedGpus := some value }
  | .usedGpuMemory => { s with usedGpuMemory := some ⟨value⟩ }
  | .totalGpuMemory => { s with totalGpuMemory := some ⟨value⟩ }

end SampleField

/-- A series of an answer: its labels and its last value, as a text. -/
structure Series where
  labels : Labels
  value : String

namespace Series

/-- A text of data. -/
def text? : Json → Option String
  | .string text => some text
  | _ => none

/-- A table of texts. -/
def labels? : Json → Option Labels
  | .object members => (members.mapM fun (m : String × Json) => (text? m.2).map (m.1, ·)).map .ofList
  | _ => none

/-- The value of a series, behind its time. -/
def value? : Json → Option String
  | .array [.int _, .string text] => some text
  | .array [.float _, .string text] => some text
  | _ => none

/-- A series, with both of its fields. -/
def ofJson? (value : Json) : Option Series :=
  match value.fields? ["metric", "value"] with
  | some [some metric, some last] => do
    let labels ← labels? metric
    let last ← value? last
    some ⟨labels, last⟩
  | _ => none

/-- The series among the data of an answer; none where there are no data. -/
def ofData? : Option Json → Option (List Series)
  | none => some []
  | some .null => some []
  | some data =>
    match data.fields? ["result"] with
    | some [some (.array items)] => items.mapM ofJson?
    | _ => none

/-- Whether the reason of an error can be read: it is a text, or there is none. -/
def isReason : Option Json → Bool
  | none => true
  | some .null => true
  | some (.string _) => true
  | some _ => false

/-- The series of an answer that reports success. The answer must be readable as a whole, the reason of an error too. -/
def ofAnswer? (body : String) : Option (List Series) := do
  let answer ← Json.read? body
  match answer.fields? ["status", "data", "error"] with
  | some [some (.string status), data, reason] => do
    let series ← ofData? data
    if isReason reason && status == "success" then some series else none
  | _ => none

/-- The node of a series and its value, if it names a node and its value is a finite number. -/
def reading? (s : Series) : Option (String × Float) := do
  let node ← s.labels.get? "node"
  let value ← readFloat? s.value
  if isFiniteFloat value then some (node, value) else none

end Series

/-- The samples with a figure of one more node. -/
def Samples.put (samples : Samples) (field : SampleField) (reading : String × Float) : Samples :=
  samples.insert reading.1 (field.set ((samples.get? reading.1).getD {}) reading.2)

/-- The samples with the values of series of a figure; of a node that occurs more than once the last value stays. -/
def Samples.merge (samples : Samples) (field : SampleField) (series : List Series) : Samples :=
  (series.filterMap Series.reading?).foldl (fun samples reading => samples.put field reading) samples

end TrainingJobs

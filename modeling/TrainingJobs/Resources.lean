import TrainingJobs.Json.Value
import TrainingJobs.Quantity

/-!
# Amounts of resources

The four resources that are counted for nodes and pods. Processor time is kept in cores and memory in bytes; processor time is
written in thousandths of a core.
-/

namespace TrainingJobs

/-- An amount of processor time. -/
structure Cpu where
  cores : Float
deriving Inhabited

namespace Cpu

/-- No processor time. -/
def zero : Cpu := ⟨0⟩

/-- Thousandths of a core. -/
def ofMillis (x : Float) : Cpu := ⟨x * 0.001⟩

/-- The amount in thousandths of a core. -/
def millis (c : Cpu) : Float := c.cores * (1 / 0.001)

/-- The amount in billionths of a core. -/
def nanos (c : Cpu) : Float := c.cores * (1 / 1e-9)

/-- Reads a quantity of cores. -/
def read (text : String) : Except QuantityError Cpu := (Quantity.read text).map Cpu.mk

end Cpu

/-- An amount of memory. -/
structure Memory where
  bytes : Float
deriving Inhabited

namespace Memory

/-- No memory. -/
def zero : Memory := ⟨0⟩

/-- Reads a quantity of bytes. -/
def read (text : String) : Except QuantityError Memory := (Quantity.read text).map Memory.mk

end Memory

/-- Amounts of the four resources. A pod may hold a fraction of a GPU. -/
structure Resources where
  cpus : Cpu := .zero
  memory : Memory := .zero
  gpus : Float := 0
  gpuMemory : Memory := .zero
deriving Inhabited

namespace Resources

/-- Nothing of any resource. -/
def zero : Resources := {}

/-- The amounts of both. -/
def add (a b : Resources) : Resources :=
  { cpus := ⟨a.cpus.cores + b.cpus.cores⟩
    memory := ⟨a.memory.bytes + b.memory.bytes⟩
    gpus := a.gpus + b.gpus
    gpuMemory := ⟨a.gpuMemory.bytes + b.gpuMemory.bytes⟩ }

instance : Add Resources := ⟨add⟩

/-- The amounts of all, added from the first to the last. -/
def sum (items : List Resources) : Resources := items.foldl (· + ·) zero

/-- The amounts as data: thousandths of a core and bytes. -/
def toJson (r : Resources) : Json :=
  .object [("cpus", .float r.cpus.millis), ("memory", .float r.memory.bytes), ("gpus", .float r.gpus),
    ("gpu_memory", .float r.gpuMemory.bytes)]

/-- A number of data. -/
def number? : Json → Option Float
  | .int n => some (Float.ofInt n)
  | .float x => some x
  | _ => none

/-- Processor time as data: a number of thousandths of a core, or a quantity of cores. -/
def cpu? : Json → Option Cpu
  | .string text => (Cpu.read text).toOption
  | value => (number? value).map Cpu.ofMillis

/-- Memory as data: a number of bytes, or a quantity of them. -/
def memory? : Json → Option Memory
  | .string text => (Memory.read text).toOption
  | value => (number? value).map Memory.mk

/-- Reads amounts from data, with all four fields. -/
def ofJson? (value : Json) : Option Resources :=
  match value.fields? ["cpus", "memory", "gpus", "gpu_memory"] with
  | some [some cpus, some memory, some gpus, some gpuMemory] => do
    let cpus ← cpu? cpus
    let memory ← memory? memory
    let gpus ← number? gpus
    let gpuMemory ← memory? gpuMemory
    some { cpus := cpus, memory := memory, gpus := gpus, gpuMemory := gpuMemory }
  | _ => none

end Resources

end TrainingJobs

/-!
# Names shared with the cluster

The labels, annotations and resources by which the program and the cluster understand each other.
-/

namespace TrainingJobs.Keys

/-- The annotation of a pod with the fraction of a GPU that it asks for. -/
def gpuFraction : String := "gpu-fraction"

/-- The annotation of a pod with the number of the shared GPU that it runs on. -/
def gpuIndex : String := "runai-gpu"

/-- The annotation of a workload that the scheduler cannot place. -/
def unschedulable : String := "unschedulable"

/-- The resource of whole GPUs. -/
def gpuResource : String := "nvidia.com/gpu"

/-- The resource of processor time. -/
def cpuResource : String := "cpu"

/-- The resource of memory. -/
def memoryResource : String := "memory"

/-- What the labels start with whose rest is a role of a node. -/
def roleLabelStart : String := "node-role.kubernetes.io/"

/-- The label whose value is a role of a node. -/
def roleLabel : String := "kubernetes.io/role"

/-- The label of a pod with the name of its job. -/
def jobNameLabel : String := "job-name"

/-- The label of a pod with the release it belongs to. -/
def releaseLabel : String := "release"

/-- The label with the project. -/
def projectLabel : String := "project"

/-- The label with the user. -/
def userLabel : String := "user"

/-- The label of a record with the name of its family. -/
def familyNameLabel : String := "FamilyName"

/-- The label of a record with its number in the family. -/
def familyIndexLabel : String := "FamilyIndex"

/-- The label that every record of the registry gets. -/
def managedByLabel : String := "app.kubernetes.io/managed-by"

/-- The value of that label. -/
def managedByValue : String := "trainctl"

/-- What the name of a pod group starts with. -/
def podGroupStart : String := "pg-"

end TrainingJobs.Keys

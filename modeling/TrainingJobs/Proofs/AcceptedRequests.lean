import Mathlib.Data.List.Forall2
import TrainingJobs.Proofs.SubmittingPaths

/-!
# Requests that are accepted

A request is accepted just when its GPUs, its pairs and its amounts are (`values_eq_ok_iff`). Its values are then known from what
its GPUs and its pairs say (`SubmitRequest.valuesOf`). Otherwise the first of them that is wrong refuses it.
-/

namespace TrainingJobs

namespace RequestAux

variable {ε α β : Type}

/-- Two steps succeed when the first does, and the second does with its result. -/
theorem bind_eq_ok_iff {x : Except ε α} {f : α → Except ε β} {b : β} : x >>= f = .ok b ↔ ∃ a, x = .ok a ∧ f a = .ok b := by
  cases x with
  | error e =>
    constructor
    · intro h
      cases h
    · rintro ⟨a, h, -⟩
      cases h
  | ok a =>
    constructor
    · intro h
      exact ⟨a, rfl, h⟩
    · rintro ⟨_, h, hf⟩
      cases h
      exact hf

/-- All items of a list are read just when each of them is. -/
theorem mapM_eq_ok_iff {f : α → Except ε β} {items : List α} {results : List β} :
    items.mapM f = .ok results ↔ List.Forall₂ (fun item result => f item = .ok result) items results := by
  induction items generalizing results with
  | nil =>
    rw [List.mapM_nil, List.forall₂_nil_left_iff]
    constructor
    · intro h
      cases h
      rfl
    · rintro rfl
      rfl
  | cons item rest ih =>
    rw [List.mapM_cons, bind_eq_ok_iff, List.forall₂_cons_left_iff]
    constructor
    · rintro ⟨b, hb, hrest⟩
      obtain ⟨bs, hbs, hend⟩ := bind_eq_ok_iff.1 hrest
      cases hend
      exact ⟨b, bs, hb, ih.1 hbs, rfl⟩
    · rintro ⟨b, bs, hb, hbs, rfl⟩
      exact ⟨b, hb, bind_eq_ok_iff.2 ⟨bs, ih.2 hbs, rfl⟩⟩

/-- An amount is taken as it stands, if it can be read. -/
theorem checkedQuantity_eq_ok_iff {field : String} {amount result : Option String} :
    checkedQuantity field amount = .ok result ↔ result = amount ∧ ∀ text ∈ amount, ∃ q, Quantity.read text = .ok q := by
  cases amount with
  | none => simp [checkedQuantity, eq_comm]
  | some text =>
    cases hread : Quantity.read text with
    | ok q => simp [checkedQuantity, hread, eq_comm]
    | error cause => simp [checkedQuantity, hread]

end RequestAux

open RequestAux

namespace SubmitRequest

/-- All amounts of a request can be read. -/
def AmountsRead (r : SubmitRequest) : Prop :=
  ∀ amount ∈ [r.cpu, r.memory, r.cpuLimit, r.memoryLimit], ∀ text ∈ amount, ∃ q, Quantity.read text = .ok q

/-- The values of a request whose GPUs and pairs say what is given. -/
def valuesOf (r : SubmitRequest) (share : GpuShare) (environment set : List (String × String)) : ChartValues :=
  { image := r.image
    gpu := share.count?
    gpuFraction := share.part?
    cpu := r.cpu
    memory := r.memory
    cpuLimit := r.cpuLimit
    memoryLimit := r.memoryLimit
    environment := .ofList environment
    project := r.project
    user := r.user
    interactive := r.interactive
    jobIndex := none
    extra := .ofList (set.map fun pair => (pair.1, typedValue pair.2)) }

variable {r : SubmitRequest}

/-- A request is accepted just when all that it holds can be read. -/
theorem values_eq_ok_iff {v : ChartValues} :
    r.values = .ok v ↔ r.AmountsRead ∧ ∃ share environment set, GpuShare.ofAmount r.gpu = .ok share ∧
      r.environment.mapM splitPair = .ok environment ∧ r.set.mapM splitPair = .ok set ∧
      v = r.valuesOf share environment set := by
  simp only [values, bind_eq_ok_iff, checkedQuantity_eq_ok_iff]
  constructor
  · rintro ⟨share, hshare, environment, henvironment, set, hset, _, ⟨rfl, hcpu⟩, _, ⟨rfl, hmemory⟩, _, ⟨rfl, hcpuLimit⟩,
      _, ⟨rfl, hmemoryLimit⟩, hend⟩
    cases hend
    refine ⟨?_, share, environment, set, hshare, henvironment, hset, rfl⟩
    simpa [AmountsRead] using ⟨hcpu, hmemory, hcpuLimit, hmemoryLimit⟩
  · rintro ⟨hread, share, environment, set, hshare, henvironment, hset, rfl⟩
    exact ⟨share, hshare, environment, henvironment, set, hset, r.cpu, ⟨rfl, hread _ (by simp)⟩,
      r.memory, ⟨rfl, hread _ (by simp)⟩, r.cpuLimit, ⟨rfl, hread _ (by simp)⟩, r.memoryLimit, ⟨rfl, hread _ (by simp)⟩, rfl⟩

/-- GPUs that cannot be had refuse a request, whatever else is wrong with it. -/
theorem values_of_gpu_error {e : RequestError} (h : GpuShare.ofAmount r.gpu = .error e) : r.values = .error e := by
  rw [values, h]
  rfl

/-- A pair of the environment that is none refuses a request whose GPUs are in order. -/
theorem values_of_environment_error {share : GpuShare} {e : RequestError} (hshare : GpuShare.ofAmount r.gpu = .ok share)
    (h : r.environment.mapM splitPair = .error e) : r.values = .error e := by
  rw [values, hshare, h]
  rfl

end SubmitRequest

/-- The values of a request for nothing but an image and a project. -/
def Lifecycle.plainValues : ChartValues :=
  { image := "ubuntu", gpu := none, gpuFraction := none, cpu := none, memory := none, cpuLimit := none, memoryLimit := none,
    environment := .empty, project := "team-a", user := none, interactive := false, jobIndex := none, extra := .empty }

theorem Lifecycle.values_plainRequest : plainRequest.values = .ok plainValues := rfl

end TrainingJobs

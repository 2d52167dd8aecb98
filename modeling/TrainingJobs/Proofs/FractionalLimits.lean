import TrainingJobs.Proofs.ExactSums
import TrainingJobs.Proofs.NodeShares

/-!
# Limits of pods that ask for a fraction

A pod that asks for a fraction of a GPU requests and holds that fraction, whatever whole amounts its containers name
(`Pod.Replaced.requested_eq`). The units of a node that are in use are counted from the limits of all pods, though, beside the shared
devices: there the limits of such a pod make a difference (`fraction_wins_but_in_units`).
-/

namespace TrainingJobs

/-- The same container with other amounts of GPUs. -/
def Container.withGpus (c : Container) (requested limited : Float) : Container :=
  { c with requests := { c.requests with gpus := requested }, limits := { c.limits with gpus := limited } }

/-- The same pod, but that the containers of one that asks for a fraction may name other amounts of GPUs. -/
inductive Pod.Replaced (p : Pod) : Pod → Prop
  | same : p.Replaced p
  | fraction {containers : List Container} (h : p.gpuFraction > 0)
    (hc : p.containers.Forall₂ (fun c c' => ∃ requested limited, c' = c.withGpus requested limited) containers) :
    p.Replaced { p with containers := containers }

/-- The whole number that an amount of GPUs stands for. -/
def wholeGpus (x : Float) : ℕ := ⌊(exactValue? x).getD 0⌋₊

/-- The whole GPUs that a pod is limited to. -/
def Pod.limitedGpus (p : Pod) : ℕ := (p.containers.map fun c => wholeGpus c.limits.gpus).sum

/-- The limits of pods are whole numbers of GPUs, and not too many to be counted beside the shared devices. -/
structure WholeLimits (pods : List Pod) : Prop where
  whole : ∀ p ∈ pods, ∀ c ∈ p.containers, exactValue? c.limits.gpus = some (wholeGpus c.limits.gpus : ℚ)
  few : (sharedDevices pods).length + (pods.map (·.limitedGpus)).sum < 2 ^ 53

namespace FractionalLimitsAux

open NodeSharesAux

variable {p p' : Pod} {pods pods' : List Pod}

theorem wholeGpus_of_exact {x : Float} {n : ℕ} (h : exactValue? x = some (n : ℚ)) : wholeGpus x = n := by
  rw [wholeGpus, h, Option.getD_some, Nat.floor_natCast]

/-! ## What a pod contributes -/

/-- Amounts that differ in GPUs only add up to amounts that differ in GPUs only. -/
theorem foldl_add_gpus {items items' : List Resources} (h : items.Forall₂ (fun r r' => ∃ g, r' = { r with gpus := g }) items')
    {a a' : Resources} (ha : ∃ g, a' = { a with gpus := g }) :
    ∃ g, items'.foldl (· + ·) a' = { items.foldl (· + ·) a with gpus := g } := by
  induction h generalizing a a' with
  | nil => exact ha
  | cons hr _ ih =>
    obtain ⟨g, rfl⟩ := ha
    obtain ⟨g', rfl⟩ := hr
    exact ih ⟨g + g', rfl⟩

theorem sum_gpus {items items' : List Resources} (h : items.Forall₂ (fun r r' => ∃ g, r' = { r with gpus := g }) items') :
    ∃ g, Resources.sum items' = { Resources.sum items with gpus := g } := foldl_add_gpus h ⟨0, rfl⟩

theorem requested_of_fraction (h : p.gpuFraction > 0) :
    p.contribution.requested = { Resources.sum (p.containers.map (·.requests)) with gpus := p.gpuFraction } := by
  simp only [Pod.contribution, if_pos h]

/-- A pod that asks for a fraction requests the same with other amounts in its containers. -/
theorem requested_eq (h : p.Replaced p') : p'.contribution.requested = p.contribution.requested := by
  cases h with
  | same => rfl
  | @fraction containers hfraction hc =>
    have hrequests : (p.containers.map (·.requests)).Forall₂ (fun r r' => ∃ g, r' = { r with gpus := g })
        (containers.map (·.requests)) := by
      rw [List.forall₂_map_left_iff, List.forall₂_map_right_iff]
      exact hc.imp fun _ _ ⟨requested, _, hc'⟩ => ⟨requested, by rw [hc']; rfl⟩
    obtain ⟨g, hsum⟩ := sum_gpus hrequests
    have hfraction' : { p with containers := containers }.gpuFraction = p.gpuFraction := rfl
    rw [requested_of_fraction hfraction, requested_of_fraction (hfraction'.symm ▸ hfraction), hfraction', hsum]

theorem allocated_eq (h : p.Replaced p') : p'.contribution.allocated = p.contribution.allocated := by
  have hphase : p'.phase = p.phase := by cases h <;> rfl
  have hallocated : ∀ q : Pod, q.contribution.allocated = if q.phase = .running then q.contribution.requested else .zero :=
    fun _ => rfl
  rw [hallocated, hallocated, hphase, requested_eq h]

theorem asksForGpu_eq (h : p.Replaced p') : p'.asksForGpu = p.asksForGpu := by
  rw [Pod.asksForGpu, requested_eq h, Pod.asksForGpu]

theorem ofPod_eq (h : p.Replaced p') : GpuPodRow.ofPod p' = GpuPodRow.ofPod p := by
  have hname : p'.name = p.name ∧ p'.space = p.space ∧ p'.phase = p.phase := by cases h <;> exact ⟨rfl, rfl, rfl⟩
  rw [GpuPodRow.ofPod, GpuPodRow.ofPod, requested_eq h, allocated_eq h, hname.1, hname.2.1, hname.2.2]

/-! ## What a node counts -/

/-- What is the same of every pod is the same of all. -/
theorem map_eq_of_replaced {α : Type} {f : Pod → α} (hf : ∀ {p p' : Pod}, p.Replaced p' → f p' = f p)
    (h : pods.Forall₂ Pod.Replaced pods') : pods'.map f = pods.map f := by
  induction h with
  | nil => rfl
  | cons hp _ ih => rw [List.map_cons, List.map_cons, hf hp, ih]

theorem gpuPods_eq (h : pods.Forall₂ Pod.Replaced pods') :
    (gpuPods pods').map GpuPodRow.ofPod = (gpuPods pods).map GpuPodRow.ofPod := by
  induction h with
  | nil => rfl
  | @cons p p' _ _ hp _ ih =>
    unfold gpuPods at ih ⊢
    rw [List.filter_cons, List.filter_cons, asksForGpu_eq hp]
    by_cases hasks : p.asksForGpu = true
    · rw [if_pos hasks, if_pos hasks, List.map_cons, List.map_cons, ofPod_eq hp, ih]
    · rw [if_neg hasks, if_neg hasks, ih]

theorem sharedDevices_eq (h : pods.Forall₂ Pod.Replaced pods') : sharedDevices pods' = sharedDevices pods := by
  have hindex := map_eq_of_replaced (f := fun p => p.annotations.get? Keys.gpuIndex) (fun hp => by cases hp <;> rfl) h
  have hall : ∀ items : List Pod, items.filterMap (·.annotations.get? Keys.gpuIndex) =
      (items.map fun p => p.annotations.get? Keys.gpuIndex).filterMap id := by
    intro items
    rw [List.filterMap_map]
    rfl
  rw [sharedDevices, hall, hindex, ← hall, sharedDevices]

/-- The units in use are the shared devices and the sum of all limits without its fraction. -/
theorem units_eq (n : Node) (pods : List Pod) (sample : Option Sample) :
    (NodeView.of n pods sample).resources.allocatedGpuUnits =
      Float.ofNat (sharedDevices pods).length + truncated (Resources.sum (pods.map (·.contribution.limited))).gpus := by
  have hcounted := foldl_addPod (NodeResources.ofNode n) pods
  rw [(unused_ofNode n).2.1] at hcounted
  cases sample <;> simp only [NodeView.of, NodeResources.withSample, hcounted, Resources.sum]

theorem gpus_sum (items : List Resources) : (Resources.sum items).gpus = (items.map (·.gpus)).foldl (· + ·) 0 := by
  have hfold : ∀ a : Resources, (items.foldl (· + ·) a).gpus = (items.map (·.gpus)).foldl (· + ·) a.gpus := by
    induction items with
    | nil => exact fun _ => rfl
    | cons r rest ih => exact fun a => ih (a + r)
  exact hfold .zero

/-- Limits that are whole numbers add up to their sum. -/
theorem exactValue?_gpus_sum {α : Type} {amounts : α → Resources} {whole : α → ℕ} {items : List α}
    (h : ∀ item ∈ items, exactValue? (amounts item).gpus = some (whole item : ℚ)) (hsum : (items.map whole).sum < 2 ^ 53) :
    exactValue? (Resources.sum (items.map amounts)).gpus = some (((items.map whole).sum : ℕ) : ℚ) := by
  have hzero : exactValue? 0 = some ((0 : ℕ) : ℚ) := by rw [exactValue?_zero, Nat.cast_zero]
  rw [gpus_sum, List.map_map, ← Nat.zero_add (items.map whole).sum]
  exact exactValue?_foldl_add hzero h (by rwa [Nat.zero_add])

theorem exactValue?_limited (h : WholeLimits pods) (hp : p ∈ pods) :
    exactValue? p.contribution.limited.gpus = some (p.limitedGpus : ℚ) := by
  have hfew := h.few
  have hle : p.limitedGpus ≤ (pods.map (·.limitedGpus)).sum :=
    List.single_le_sum (fun _ _ => Nat.zero_le _) _ (List.mem_map_of_mem hp)
  have hlt : p.limitedGpus < 2 ^ 53 := by omega
  exact exactValue?_gpus_sum (h.whole p hp) hlt

/-- So the units in use stand for the shared devices and the limits of all pods. -/
theorem exactValue?_units (n : Node) (sample : Option Sample) (h : WholeLimits pods) :
    exactValue? (NodeView.of n pods sample).resources.allocatedGpuUnits =
      some (((sharedDevices pods).length + (pods.map (·.limitedGpus)).sum : ℕ) : ℚ) := by
  have hfew := h.few
  have hlimits := exactValue?_truncated (exactValue?_gpus_sum (fun p hp => exactValue?_limited h hp) (by omega)) (by omega)
  rw [units_eq, Nat.cast_add]
  refine exactValue?_add (exactValue?_ofNat (by omega)) hlimits (Nat.cast_nonneg _) (Nat.cast_nonneg _) ?_
  exact_mod_cast isFloat_natCast hfew

end FractionalLimitsAux

open FractionalLimitsAux

/-- What becomes of a node when pods that ask for a fraction name other amounts of GPUs in their containers. -/
structure FractionWins (n : Node) (sample : Option Sample) (pods pods' : List Pod) : Prop where
  requested : (NodeView.of n pods' sample).resources.requested = (NodeView.of n pods sample).resources.requested
  allocated : (NodeView.of n pods' sample).resources.allocated = (NodeView.of n pods sample).resources.allocated
  /-- The same pods ask for GPUs, and they are listed the same. -/
  asking : pods'.map (·.asksForGpu) = pods.map (·.asksForGpu)
  listed : (gpuPods pods').map GpuPodRow.ofPod = (gpuPods pods).map GpuPodRow.ofPod
  /-- The units in use are the same when the pods keep their limits. -/
  kept : pods'.map (·.contribution.limited.gpus) = pods.map (·.contribution.limited.gpus) →
    (NodeView.of n pods' sample).resources.allocatedGpuUnits = (NodeView.of n pods sample).resources.allocatedGpuUnits
  /-- With whole limits they stand for the shared devices and the limits of all pods, whether these ask for a fraction or not. -/
  counted : WholeLimits pods → exactValue? (NodeView.of n pods sample).resources.allocatedGpuUnits =
    some (((sharedDevices pods).length + (pods.map (·.limitedGpus)).sum : ℕ) : ℚ)
  /-- So they are the same just when the limits of all pods come to the same number. -/
  units : WholeLimits pods → WholeLimits pods' →
    (((NodeView.of n pods' sample).resources.allocatedGpuUnits == (NodeView.of n pods sample).resources.allocatedGpuUnits) = true ↔
      (pods'.map (·.limitedGpus)).sum = (pods.map (·.limitedGpus)).sum)

/-- Whatever GPUs the containers of pods that ask for a fraction name, what is requested and allocated on a node is the same, and so are
the pods that are listed. The units in use count the limits of these pods with all others, and with whole limits they stay the same just
when all limits come to the same number as before. -/
theorem fraction_wins_but_in_units (n : Node) (sample : Option Sample) {pods pods' : List Pod}
    (h : pods.Forall₂ Pod.Replaced pods') : FractionWins n sample pods pods' where
  requested := by
    rw [(NodeSharesAux.counts_of n pods' sample).requested, (NodeSharesAux.counts_of n pods sample).requested,
      map_eq_of_replaced requested_eq h]
  allocated := by
    rw [(NodeSharesAux.counts_of n pods' sample).allocated, (NodeSharesAux.counts_of n pods sample).allocated,
      map_eq_of_replaced allocated_eq h]
  asking := map_eq_of_replaced asksForGpu_eq h
  listed := gpuPods_eq h
  kept := by
    intro hlimits
    have hgpus : ∀ items : List Pod, (Resources.sum (items.map (·.contribution.limited))).gpus =
        (items.map (·.contribution.limited.gpus)).foldl (· + ·) 0 := by
      intro items
      rw [gpus_sum, List.map_map]
      rfl
    rw [units_eq, units_eq, sharedDevices_eq h, hgpus, hgpus, hlimits]
  counted := exactValue?_units n sample
  units := by
    intro hwhole hwhole'
    rw [beq_iff_of_exact (exactValue?_units n sample hwhole') (exactValue?_units n sample hwhole), Nat.cast_inj, sharedDevices_eq h]
    exact Nat.add_left_cancel_iff

/-- A pod that shares a device, whose container names an amount of GPUs. -/
def sharingPod (gpus : Float) : Pod :=
  { name := "pod", nodeName := some "one", phase := .running
    annotations := .ofList [(Keys.gpuFraction, "0.5"), (Keys.gpuIndex, "0")]
    containers := [{ requests := { gpus := gpus }, limits := { gpus := gpus } }] }

/-- Such pods differ by what may be replaced. -/
theorem replaced_sharingPod (a b : Float) : (sharingPod a).Replaced (sharingPod b) :=
  .fraction (show (sharingPod 0).gpuFraction > 0 by decide +kernel) (.cons ⟨b, b, rfl⟩ .nil)

theorem limitedGpus_sharingPod {a : Float} {n : ℕ} (ha : exactValue? a = some (n : ℚ)) : (sharingPod a).limitedGpus = n := by
  rw [Pod.limitedGpus, sharingPod, List.map_singleton, List.sum_singleton, wholeGpus_of_exact ha]

theorem wholeLimits_sharingPod {a b : Float} {m n : ℕ} (ha : exactValue? a = some (m : ℚ)) (hb : exactValue? b = some (n : ℚ))
    (h : m + n < 2 ^ 52) : WholeLimits [sharingPod a, sharingPod b] where
  whole := by
    intro p hp c hc
    rcases List.mem_pair.1 hp with rfl | rfl
    · obtain rfl := List.mem_singleton.1 hc
      rw [wholeGpus_of_exact ha]
      exact ha
    · obtain rfl := List.mem_singleton.1 hc
      rw [wholeGpus_of_exact hb]
      exact hb
  few := by
    have hdevices : (sharedDevices [sharingPod a, sharingPod b]).length = 1 := rfl
    rw [hdevices, List.map_cons, List.map_singleton, List.sum_cons, List.sum_singleton, limitedGpus_sharingPod ha,
      limitedGpus_sharingPod hb]
    omega

/-- Two such pods that change their limits with each other leave the units in use as they are. -/
theorem fraction_wins_but_in_units_of_exchange :
    [sharingPod 0, sharingPod 1].Forall₂ Pod.Replaced [sharingPod 1, sharingPod 0] ∧
      ((NodeView.of {} [sharingPod 1, sharingPod 0] none).resources.allocatedGpuUnits ==
        (NodeView.of {} [sharingPod 0, sharingPod 1] none).resources.allocatedGpuUnits) = true := by
  have h : [sharingPod 0, sharingPod 1].Forall₂ Pod.Replaced [sharingPod 1, sharingPod 0] :=
    .cons (replaced_sharingPod 0 1) (.cons (replaced_sharingPod 1 0) .nil)
  have hzero : exactValue? 0 = some ((0 : ℕ) : ℚ) := by rw [exactValue?_zero, Nat.cast_zero]
  have hone : exactValue? 1 = some ((1 : ℕ) : ℚ) := by rw [exactValue?_one, Nat.cast_one]
  have hunits := (fraction_wins_but_in_units {} none h).units (wholeLimits_sharingPod hzero hone (by decide))
    (wholeLimits_sharingPod hone hzero (by decide))
  exact ⟨h, hunits.2 (Nat.add_comm _ _)⟩

/-- A pod that shares a device and has a whole GPU for its limit is counted as both, and without the limit as one. -/
theorem fraction_in_units_false :
    (sharingPod 0).Replaced (sharingPod 1) ∧ (sharingPod 0).gpuFraction > 0 ∧
      ((NodeView.of {} [sharingPod 0] none).resources.allocatedGpuUnits == 1) = true ∧
      ((NodeView.of {} [sharingPod 1] none).resources.allocatedGpuUnits == 2) = true :=
  ⟨replaced_sharingPod 0 1, by decide +kernel, by decide +kernel, by decide +kernel⟩

end TrainingJobs

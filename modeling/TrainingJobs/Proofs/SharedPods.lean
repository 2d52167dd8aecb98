import TrainingJobs.Job.Row
import TrainingJobs.Proofs.JobPods

/-!
# Pods of several jobs

An owner is found by its kind and its uid, so a pod that a workload owns is a pod of no other workload. A release is found by its name
alone, which a job and a stateful set of one namespace may share: then both have the pods that are left to the release, and count them
(`Snapshot.SharesPod`). Nothing else is counted twice (`pods_counted_once_iff`).
-/

namespace TrainingJobs

/-- A pod is left to its release, and two workloads of its namespace are called so. -/
def Snapshot.SharesPod (s : Snapshot) (p : Pod) : Prop :=
  ∃ a ∈ s.workloads, ∃ b ∈ s.workloads, a.uid ≠ b.uid ∧
    (a.space = p.space ∧ a.IsReleaseOf p) ∧ b.space = p.space ∧ b.IsReleaseOf p

instance (w : Workload) (p : Pod) : Decidable (w.IsReleaseOf p) :=
  decidable_of_iff (p.ownership = .release w.name) Workload.isReleaseOf_iff.symm

instance (s : Snapshot) (p : Pod) : Decidable (s.SharesPod p) :=
  inferInstanceAs (Decidable (∃ a ∈ s.workloads, ∃ b ∈ s.workloads, _))

/-- No pod of a snapshot is counted for two jobs. -/
structure Snapshot.CountsPodsOnce (s : Snapshot) : Prop where
  /-- A pod belongs to one view at most. -/
  apart : (JobView.ofSnapshot s).Pairwise fun a b => a.pods.Disjoint b.pods
  /-- Whichever pods are counted, the views together count no more of them than there are. -/
  counted : ∀ test : Pod → Bool, ((JobView.ofSnapshot s).map fun v => v.pods.countP test).sum ≤ s.pods.countP test

namespace SharedPodsAux

variable {s : Snapshot} {a b w : Workload} {p : Pod}

/-! ## Workloads with a pod in common -/

/-- The owner of a pod is one workload. -/
theorem uid_eq_of_isOwnerOf (ha : a.IsOwnerOf p) (hb : b.IsOwnerOf p) : a.uid = b.uid := by
  rw [Workload.isOwnerOf_iff] at ha hb
  rcases ha with ⟨owner, hp, -, huid⟩ | ⟨owner, hp, -, huid⟩
  · rcases hb with ⟨owner', hp', -, huid'⟩ | ⟨owner', hp', -, -⟩
    · cases hp.symm.trans hp'
      exact huid.symm.trans huid'
    · cases hp.symm.trans hp'
  · rcases hb with ⟨owner', hp', -, -⟩ | ⟨owner', hp', -, huid'⟩
    · cases hp.symm.trans hp'
    · cases hp.symm.trans hp'
      exact huid.symm.trans huid'

/-- A pod that two workloads hold is left to the release of both. -/
theorem isReleaseOf_of_two (ha : a.HoldsPod p) (hb : b.HoldsPod p) (hne : a.uid ≠ b.uid) : a.IsReleaseOf p ∧ b.IsReleaseOf p := by
  rcases ha.2 with hownerA | hreleaseA
  · rcases hb.2 with hownerB | hreleaseB
    · exact absurd (uid_eq_of_isOwnerOf hownerA hownerB) hne
    · exact absurd hownerA hreleaseB.not_isOwnerOf
  · rcases hb.2 with hownerB | hreleaseB
    · exact absurd hownerB hreleaseA.not_isOwnerOf
    · exact ⟨hreleaseA, hreleaseB⟩

theorem mem_pods_of_iff : p ∈ (JobView.of w s.pods).pods ↔ p ∈ s.pods ∧ w.HoldsPod p := by
  rw [JobView.pods_of, List.mem_filter, decide_eq_true_eq]

/-- What two workloads have in common is shared. -/
theorem sharesPod_of_mem (ha : a ∈ s.workloads) (hb : b ∈ s.workloads) (hne : a.uid ≠ b.uid)
    (hpa : p ∈ (JobView.of a s.pods).pods) (hpb : p ∈ (JobView.of b s.pods).pods) : s.SharesPod p := by
  have hholdsA := (mem_pods_of_iff.1 hpa).2
  have hholdsB := (mem_pods_of_iff.1 hpb).2
  obtain ⟨hreleaseA, hreleaseB⟩ := isReleaseOf_of_two hholdsA hholdsB hne
  exact ⟨a, ha, b, hb, hne, ⟨hholdsA.1.symm, hreleaseA⟩, hholdsB.1.symm, hreleaseB⟩

/-! ## Views -/

/-- What holds of any two views holds of the views of any two workloads, since their order does not matter. -/
theorem pairwise_ofSnapshot_iff {R : JobView → JobView → Prop} (hR : ∀ {u v}, R u v → R v u) :
    (JobView.ofSnapshot s).Pairwise R ↔ s.workloads.Pairwise fun a b => R (JobView.of a s.pods) (JobView.of b s.pods) := by
  rw [JobView.ofSnapshot, (List.mergeSort_perm _ _).pairwise_iff hR, List.pairwise_map]

/-- The views have no pods in common but shared ones. -/
theorem pairwise_sharesPod (h : (s.workloads.map (·.uid)).Nodup) :
    (JobView.ofSnapshot s).Pairwise fun a b => ∀ p, p ∈ a.pods → p ∈ b.pods → s.SharesPod p := by
  rw [pairwise_ofSnapshot_iff fun hR p hv hu => hR p hu hv]
  refine (List.pairwise_map.1 h).imp_of_mem fun ha hb hne p hpa hpb => ?_
  exact sharesPod_of_mem ha hb hne hpa hpb

/-- The two views of a shared pod have it in common. -/
theorem not_apart_of_sharesPod (hp : p ∈ s.pods) (hshared : s.SharesPod p) :
    ¬ (JobView.ofSnapshot s).Pairwise fun a b => a.pods.Disjoint b.pods := by
  intro hapart
  obtain ⟨a, ha, b, hb, hne, ⟨hspaceA, hreleaseA⟩, hspaceB, hreleaseB⟩ := hshared
  rw [pairwise_ofSnapshot_iff List.Disjoint.symm] at hapart
  have hsymm : Std.Symm fun a b : Workload => (JobView.of a s.pods).pods.Disjoint (JobView.of b s.pods).pods :=
    ⟨fun _ _ => List.Disjoint.symm⟩
  have hdisjoint := hapart.forall ha hb fun heq => hne (congrArg Workload.uid heq)
  exact hdisjoint (mem_pods_of_iff.2 ⟨hp, hspaceA.symm, .inr hreleaseA⟩) (mem_pods_of_iff.2 ⟨hp, hspaceB.symm, .inr hreleaseB⟩)

/-! ## Counting -/

variable {α β : Type}

/-- Of elements that do not pass a test both, any two of them, one at most passes it. -/
theorem countP_le_one {test : α → Bool} {items : List α} (h : items.Pairwise fun a b => ¬ (test a = true ∧ test b = true)) :
    items.countP test ≤ 1 := by
  induction items with
  | nil => simp
  | cons a rest ih =>
    obtain ⟨ha, hrest⟩ := List.pairwise_cons.1 h
    by_cases htest : test a = true
    · have hnone : rest.countP test = 0 := List.countP_eq_zero.2 fun b hb hb' => ha b hb ⟨htest, hb'⟩
      rw [List.countP_cons, hnone, if_pos htest]
    · rw [List.countP_cons, if_neg htest]
      exact ih hrest

/-- One more thing adds the number of those who have it, if it is counted. -/
theorem sum_countP_filter_cons (has : α → β → Bool) (test : β → Bool) (items : List α) (x : β) (rest : List β) :
    (items.map fun a => ((x :: rest).filter (has a)).countP test).sum =
      (if test x then items.countP (has · x) else 0) + (items.map fun a => (rest.filter (has a)).countP test).sum := by
  induction items with
  | nil => simp
  | cons a more ih =>
    rw [List.map_cons, List.sum_cons, ih, List.map_cons, List.sum_cons, List.filter_cons, List.countP_cons]
    by_cases hhas : has a x = true
    · rw [if_pos hhas, if_pos hhas, List.countP_cons]
      by_cases htest : test x = true
      · rw [if_pos htest, if_pos htest, if_pos htest]
        omega
      · rw [if_neg htest, if_neg htest, if_neg htest]
        omega
    · rw [if_neg hhas, if_neg hhas, Nat.add_zero]
      omega

/-- Things that nobody shares are not counted more often than there are. -/
theorem sum_countP_filter_le {has : α → β → Bool} {items : List α} {things : List β}
    (h : ∀ x ∈ things, items.countP (has · x) ≤ 1) (test : β → Bool) :
    (items.map fun a => (things.filter (has a)).countP test).sum ≤ things.countP test := by
  induction things with
  | nil => simp
  | cons x rest ih =>
    have hrest := ih fun y hy => h y (List.mem_cons_of_mem _ hy)
    have hone := h x List.mem_cons_self
    rw [sum_countP_filter_cons, List.countP_cons]
    by_cases htest : test x = true
    · rw [if_pos htest, if_pos htest]
      omega
    · rw [if_neg htest, if_neg htest]
      omega

/-- Views without common pods count each of them once. -/
theorem sum_countP_le (hapart : (JobView.ofSnapshot s).Pairwise fun a b => a.pods.Disjoint b.pods) (test : Pod → Bool) :
    ((JobView.ofSnapshot s).map fun v => v.pods.countP test).sum ≤ s.pods.countP test := by
  rw [pairwise_ofSnapshot_iff List.Disjoint.symm] at hapart
  have hone : ∀ p ∈ s.pods, s.workloads.countP (·.hasPod p) ≤ 1 := by
    intro p hp
    refine countP_le_one (hapart.imp fun hdisjoint ⟨ha, hb⟩ => ?_)
    exact hdisjoint (mem_pods_of_iff.2 ⟨hp, Workload.hasPod_iff.1 ha⟩) (mem_pods_of_iff.2 ⟨hp, Workload.hasPod_iff.1 hb⟩)
  have hviews : ((JobView.ofSnapshot s).map fun v => v.pods.countP test).Perm
      (s.workloads.map fun w => (s.pods.filter w.hasPod).countP test) := by
    have hperm := (List.mergeSort_perm (s.workloads.map (JobView.of · s.pods)) JobView.newerFirst).map fun v => v.pods.countP test
    rwa [List.map_map] at hperm
  rw [hviews.sum_eq]
  exact sum_countP_filter_le hone test

end SharedPodsAux

open SharedPodsAux

/-- In a snapshot whose workloads have distinct uids the only pods that belong to two views are those left to a release that two
workloads of their namespace are called after. So no pod is counted for two jobs just when there is no such pod. -/
theorem pods_counted_once_iff (s : Snapshot) (h : (s.workloads.map (·.uid)).Nodup) :
    ((JobView.ofSnapshot s).Pairwise fun a b => ∀ p, p ∈ a.pods → p ∈ b.pods → s.SharesPod p) ∧
      (s.CountsPodsOnce ↔ ∀ p ∈ s.pods, ¬ s.SharesPod p) := by
  refine ⟨pairwise_sharesPod h, fun honce p hp hshared => not_apart_of_sharesPod hp hshared honce.apart, fun hnone => ?_⟩
  have hapart : (JobView.ofSnapshot s).Pairwise fun a b => a.pods.Disjoint b.pods := by
    rw [pairwise_ofSnapshot_iff List.Disjoint.symm]
    refine (List.pairwise_map.1 h).imp_of_mem fun ha hb hne p hpa hpb => ?_
    exact hnone p (mem_pods_of_iff.1 hpa).1 (sharesPod_of_mem ha hb hne hpa hpb)
  exact ⟨hapart, sum_countP_le hapart⟩

/-- A job and a stateful set of one namespace that are called alike. -/
def alikeWorkloads : List Workload :=
  [{ kind := .job, name := "shared", space := "team-a", uid := "u1" },
    { kind := .statefulSet, name := "shared", space := "team-a", uid := "u2" }]

/-- A pod that runs and is left to a release. -/
def releasedPod (release : String) : Pod :=
  { name := "pod", space := "team-a", phase := .running, labels := .ofList [(Keys.releaseLabel, release)] }

/-- A pod with the label of that release that the job of the two owns. -/
def ownedPod : Pod := { releasedPod "shared" with owners := [{ kind := "Job", name := "shared", uid := "u1" }] }

/-- Both workloads, and a pod of the job. -/
def Snapshot.ownedByJob : Snapshot := { workloads := alikeWorkloads, pods := [ownedPod] }

/-- Both workloads, and a pod of the release that they are called after. -/
def Snapshot.sharedRelease : Snapshot := { workloads := alikeWorkloads, pods := [releasedPod "shared"] }

/-- A pod that the job owns is counted for the job, and not for the stateful set that its label names too. -/
theorem pods_counted_once_of_owned_pod :
    (Snapshot.ownedByJob.workloads.map (·.uid)).Nodup ∧ Snapshot.ownedByJob.CountsPodsOnce ∧
      (jobRows Snapshot.ownedByJob "").map (·.runningPods) = [1, 0] := by
  have h : (Snapshot.ownedByJob.workloads.map (·.uid)).Nodup := by decide
  have hviews : JobView.ofSnapshot Snapshot.ownedByJob = alikeWorkloads.map (JobView.of · [ownedPod]) :=
    List.mergeSort_of_pairwise (by decide)
  refine ⟨h, (pods_counted_once_iff Snapshot.ownedByJob h).2.2 fun p hp => ?_, ?_⟩
  · revert p
    decide
  · rw [jobRows, hviews]
    rfl

/-- A pod of the release that both workloads are called after is counted for both. -/
theorem pods_of_shared_release_false :
    (Snapshot.sharedRelease.workloads.map (·.uid)).Nodup ∧ ¬ Snapshot.sharedRelease.CountsPodsOnce ∧
      (jobRows Snapshot.sharedRelease "").map (·.runningPods) = [1, 1] ∧
      Snapshot.sharedRelease.pods.countP (·.phase = .running) = 1 := by
  have hshared : Snapshot.sharedRelease.SharesPod (releasedPod "shared") := by decide
  have hviews : JobView.ofSnapshot Snapshot.sharedRelease = alikeWorkloads.map (JobView.of · [releasedPod "shared"]) :=
    List.mergeSort_of_pairwise (by decide)
  refine ⟨by decide, fun honce => not_apart_of_sharesPod List.mem_cons_self hshared honce.apart, ?_, rfl⟩
  rw [jobRows, hviews]
  rfl

end TrainingJobs

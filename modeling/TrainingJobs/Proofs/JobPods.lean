import Mathlib
import TrainingJobs.Job.View

/-!
# The pods of a job

A pod belongs to the first job that owns it, or else to the first stateful set, or else to the workload that its release is called
after; an owner that is not the workload is not passed over (`Workload.HoldsPod`). The view of a workload holds its pods in the order
of the list, and its chief is the last one of the pods that the workload owns itself that no other such pod is newer than
(`view_holds_own_pods`).
-/

namespace TrainingJobs

/-! ## Owners -/

namespace Pod

variable {p : Pod} {kind : String} {owner : Owner}

/-- The first owner of a kind. -/
def HasFirstOwner (p : Pod) (kind : String) (owner : Owner) : Prop :=
  ∃ before after, p.owners = before ++ owner :: after ∧ owner.kind = kind ∧ ∀ other ∈ before, other.kind ≠ kind

/-- No owner is of a kind. -/
def HasNoOwner (p : Pod) (kind : String) : Prop := ∀ owner ∈ p.owners, owner.kind ≠ kind

theorem owner?_eq_some_iff : p.owner? kind = some owner ↔ p.HasFirstOwner kind owner := by
  rw [owner?, List.find?_eq_some_iff_append]
  constructor
  · rintro ⟨hkind, before, after, howners, hbefore⟩
    refine ⟨before, after, howners, eq_of_beq hkind, fun other hother heq => ?_⟩
    have := hbefore other hother
    simp [heq] at this
  · rintro ⟨before, after, howners, hkind, hbefore⟩
    refine ⟨by simp [hkind], before, after, howners, fun other hother => ?_⟩
    simp [hbefore other hother]

theorem owner?_eq_none_iff : p.owner? kind = none ↔ p.HasNoOwner kind := by
  rw [owner?, List.find?_eq_none]
  simp only [beq_iff_eq]
  exact Iff.rfl

/-- What a pod belongs to, by its owners and its label. -/
inductive Belongs (p : Pod) : PodOwnership → Prop
  | job {owner : Owner} (h : p.HasFirstOwner "Job" owner) : Belongs p (.job owner)
  | statefulSet {owner : Owner} (hjob : p.HasNoOwner "Job") (h : p.HasFirstOwner "StatefulSet" owner) :
    Belongs p (.statefulSet owner)
  | release {name : String} (hjob : p.HasNoOwner "Job") (hset : p.HasNoOwner "StatefulSet")
    (h : p.labels.get? Keys.releaseLabel = some name) : Belongs p (.release name)
  | unowned (hjob : p.HasNoOwner "Job") (hset : p.HasNoOwner "StatefulSet") (h : p.labels.get? Keys.releaseLabel = none) :
    Belongs p .unowned

theorem belongs_ownership (p : Pod) : p.Belongs p.ownership := by
  unfold ownership
  cases hjob : p.owner? "Job" with
  | some owner => exact .job (owner?_eq_some_iff.1 hjob)
  | none =>
    cases hset : p.owner? "StatefulSet" with
    | some owner => exact .statefulSet (owner?_eq_none_iff.1 hjob) (owner?_eq_some_iff.1 hset)
    | none =>
      cases hlabel : p.labels.get? Keys.releaseLabel with
      | some name => exact .release (owner?_eq_none_iff.1 hjob) (owner?_eq_none_iff.1 hset) hlabel
      | none => exact .unowned (owner?_eq_none_iff.1 hjob) (owner?_eq_none_iff.1 hset) hlabel

theorem ownership_eq_iff {ownership : PodOwnership} : p.ownership = ownership ↔ p.Belongs ownership := by
  constructor
  · rintro rfl
    exact p.belongs_ownership
  · intro h
    cases h with
    | job h => simp only [Pod.ownership, owner?_eq_some_iff.2 h]
    | statefulSet hjob h => simp only [Pod.ownership, owner?_eq_none_iff.2 hjob, owner?_eq_some_iff.2 h]
    | release hjob hset h => simp only [Pod.ownership, owner?_eq_none_iff.2 hjob, owner?_eq_none_iff.2 hset, h]
    | unowned hjob hset h => simp only [Pod.ownership, owner?_eq_none_iff.2 hjob, owner?_eq_none_iff.2 hset, h]

end Pod

namespace Workload

variable {w : Workload} {p : Pod}

/-- A workload owns a pod itself: it is the first job that owns the pod, or the first stateful set when no job does. -/
inductive IsOwnerOf (w : Workload) (p : Pod) : Prop
  | job {owner : Owner} (hkind : w.kind = .job) (h : p.HasFirstOwner "Job" owner) (huid : owner.uid = w.uid)
  | statefulSet {owner : Owner} (hkind : w.kind = .statefulSet) (hjob : p.HasNoOwner "Job")
    (h : p.HasFirstOwner "StatefulSet" owner) (huid : owner.uid = w.uid)

/-- A workload has a pod by the name of its release: neither a job nor a stateful set owns the pod. -/
structure IsReleaseOf (w : Workload) (p : Pod) : Prop where
  noJob : p.HasNoOwner "Job"
  noStatefulSet : p.HasNoOwner "StatefulSet"
  release : p.labels.get? Keys.releaseLabel = some w.name

/-- A pod of the namespace that a workload owns, or has by the name of its release. -/
def HoldsPod (w : Workload) (p : Pod) : Prop := p.space = w.space ∧ (w.IsOwnerOf p ∨ w.IsReleaseOf p)

theorem isOwnerOf_iff : w.IsOwnerOf p ↔
    (∃ owner, p.ownership = .job owner ∧ w.kind = .job ∧ owner.uid = w.uid) ∨
      ∃ owner, p.ownership = .statefulSet owner ∧ w.kind = .statefulSet ∧ owner.uid = w.uid := by
  constructor
  · intro h
    cases h with
    | job hkind h huid => exact .inl ⟨_, Pod.ownership_eq_iff.2 (.job h), hkind, huid⟩
    | statefulSet hkind hjob h huid => exact .inr ⟨_, Pod.ownership_eq_iff.2 (.statefulSet hjob h), hkind, huid⟩
  · rintro (⟨owner, h, hkind, huid⟩ | ⟨owner, h, hkind, huid⟩)
    · cases Pod.ownership_eq_iff.1 h with
      | job h => exact .job hkind h huid
    · cases Pod.ownership_eq_iff.1 h with
      | statefulSet hjob h => exact .statefulSet hkind hjob h huid

theorem isReleaseOf_iff : w.IsReleaseOf p ↔ p.ownership = .release w.name := by
  rw [Pod.ownership_eq_iff]
  constructor
  · rintro ⟨hjob, hset, h⟩
    exact .release hjob hset h
  · intro h
    cases h with
    | release hjob hset h => exact ⟨hjob, hset, h⟩

theorem hasPod_iff : w.hasPod p = true ↔ w.HoldsPod p := by
  rw [hasPod, HoldsPod, isOwnerOf_iff, isReleaseOf_iff, Bool.and_eq_true, beq_iff_eq]
  cases p.ownership with
  | job owner => simp [owns]
  | statefulSet owner => simp [owns]
  | release name => simp [owns]
  | unowned => simp [owns]

instance : Decidable (w.HoldsPod p) := decidable_of_iff (w.hasPod p = true) hasPod_iff

/-- No workload owns a pod itself that is left to the release of one. -/
theorem IsReleaseOf.not_isOwnerOf {u : Workload} (h : w.IsReleaseOf p) : ¬ u.IsOwnerOf p := by
  rw [isReleaseOf_iff] at h
  rw [isOwnerOf_iff, h]
  rintro (⟨owner, hjob, -⟩ | ⟨owner, hset, -⟩)
  · cases hjob
  · cases hset

/-- Of the pods that a workload holds, those it does not own itself are those of its release. -/
theorem HoldsPod.isReleased_iff (h : w.HoldsPod p) : p.isReleased = false ↔ w.IsOwnerOf p := by
  obtain ⟨-, howner | hrelease⟩ := h
  · refine iff_of_true ?_ howner
    rw [isOwnerOf_iff] at howner
    rcases howner with ⟨owner, hjob, -⟩ | ⟨owner, hset, -⟩
    · rw [Pod.isReleased, hjob]
    · rw [Pod.isReleased, hset]
  · refine iff_of_false ?_ hrelease.not_isOwnerOf
    rw [isReleaseOf_iff] at hrelease
    rw [Pod.isReleased, hrelease]
    exact Bool.noConfusion

end Workload

/-! ## The latest pod -/

/-- When a pod was created. A pod without that time is older than any with one. -/
def Pod.creation (p : Pod) : WithBot ℤ := p.createdAt.map Instant.nanos

theorem before_iff_creation_lt {p q : Pod} : Instant.before p.createdAt q.createdAt = true ↔ p.creation < q.creation := by
  unfold Pod.creation
  cases p.createdAt with
  | none =>
    cases q.createdAt with
    | none => exact iff_of_false nofun (lt_irrefl _)
    | some b => exact iff_of_true rfl (WithBot.bot_lt_coe _)
  | some a =>
    cases q.createdAt with
    | none => exact iff_of_false nofun not_lt_bot
    | some b =>
      rw [Instant.before, decide_eq_true_eq]
      exact WithBot.coe_lt_coe.symm

/-- The pod of a list that passes a test and that no other such pod is newer than, the last one of several. -/
def IsLatest (P : Pod → Prop) (items : List Pod) (p : Pod) : Prop :=
  ∃ front back, items = front ++ p :: back ∧ P p ∧ (∀ q ∈ front, P q → q.creation ≤ p.creation) ∧
    ∀ q ∈ back, P q → q.creation < p.creation

variable {P : Pod → Prop} {items : List Pod} {p q : Pod}

theorem IsLatest.unique (hp : IsLatest P items p) (hq : IsLatest P items q) : p = q := by
  obtain ⟨front, back, rfl, hPp, hfront, hback⟩ := hp
  obtain ⟨front', back', hitems, hPq, hfront', hback'⟩ := hq
  rcases List.append_eq_append_iff.1 hitems with ⟨between, rfl, hrest⟩ | ⟨between, rfl, hrest⟩
  · cases between with
    | nil =>
      cases hrest
      rfl
    | cons first more =>
      -- The one stands in front of the other, which is newer or as new and so not in front of it.
      cases hrest
      exact absurd (hfront' p (by simp) hPp) (hback q (by simp) hPq).not_ge
  · cases between with
    | nil =>
      cases hrest
      rfl
    | cons first more =>
      cases hrest
      exact absurd (hfront q (by simp) hPq) (hback' p (by simp) hPp).not_ge

theorem IsLatest.creation_le (h : IsLatest P items p) (hq : q ∈ items) (hPq : P q) : q.creation ≤ p.creation := by
  obtain ⟨front, back, rfl, -, hfront, hback⟩ := h
  rcases List.mem_append.1 hq with hq | hq
  · exact hfront q hq hPq
  · rcases List.mem_cons.1 hq with rfl | hq
    · exact le_rfl
    · exact (hback q hq hPq).le

theorem IsLatest.congr {Q : Pod → Prop} (h : ∀ q ∈ items, P q ↔ Q q) : IsLatest P items p ↔ IsLatest Q items p := by
  refine exists₂_congr fun front back => and_congr_right ?_
  rintro rfl
  refine and_congr (h p (by simp)) (and_congr ?_ ?_)
  · exact forall₂_congr fun q hq => imp_congr_left (h q (by simp [hq]))
  · exact forall₂_congr fun q hq => imp_congr_left (h q (by simp [hq]))

/-- An older pod behind the first one changes nothing. -/
theorem IsLatest.insert_older {rest : List Pod} {c : Pod} (h : IsLatest (fun _ => True) (p :: rest) c)
    (hlt : q.creation < p.creation) : IsLatest (fun _ => True) (p :: q :: rest) c := by
  have hle := h.creation_le List.mem_cons_self trivial
  obtain ⟨front, back, hitems, -, hfront, hback⟩ := h
  cases front with
  | nil =>
    cases hitems
    refine ⟨[], q :: rest, rfl, trivial, by simp, fun x hx _ => ?_⟩
    rcases List.mem_cons.1 hx with rfl | hx
    · exact hlt
    · exact hback x hx trivial
  | cons first front =>
    cases hitems
    refine ⟨p :: q :: front, back, rfl, trivial, fun x hx _ => ?_, hback⟩
    rcases List.mem_cons.1 hx with rfl | hx
    · exact hle
    · rcases List.mem_cons.1 hx with rfl | hx
      · exact (hlt.trans_le hle).le
      · exact hfront x (List.mem_cons_of_mem _ hx) trivial

/-- Nor does a pod in front that is not newer than the first one. -/
theorem IsLatest.cons {rest : List Pod} {c : Pod} (h : IsLatest (fun _ => True) (q :: rest) c) (hge : p.creation ≤ q.creation) :
    IsLatest (fun _ => True) (p :: q :: rest) c := by
  have hle := h.creation_le List.mem_cons_self trivial
  obtain ⟨front, back, hitems, -, hfront, hback⟩ := h
  refine ⟨p :: front, back, by rw [hitems, List.cons_append], trivial, fun x hx _ => ?_, hback⟩
  rcases List.mem_cons.1 hx with rfl | hx
  · exact hge.trans hle
  · exact hfront x hx trivial

/-- Going through a list, the latest pod so far is kept. -/
theorem isLatest_foldl (rest : List Pod) (p : Pod) : IsLatest (fun _ => True) (p :: rest)
    (rest.foldl (fun best q => if Instant.before q.createdAt best.createdAt then best else q) p) := by
  induction rest generalizing p with
  | nil => exact ⟨[], [], rfl, trivial, by simp, by simp⟩
  | cons q rest ih =>
    rw [List.foldl_cons]
    by_cases hbefore : Instant.before q.createdAt p.createdAt = true
    · rw [if_pos hbefore]
      exact (ih p).insert_older (before_iff_creation_lt.1 hbefore)
    · rw [if_neg hbefore]
      exact (ih q).cons (not_lt.1 (mt before_iff_creation_lt.2 hbefore))

theorem latest?_eq_none_iff : latest? items = none ↔ items = [] := by
  cases items with
  | nil => exact iff_of_true rfl rfl
  | cons p rest => exact iff_of_false nofun nofun

theorem isLatest_of_latest? (h : latest? items = some p) : IsLatest (fun _ => True) items p := by
  cases items with
  | nil => cases h
  | cons first rest =>
    cases h
    exact isLatest_foldl rest first

/-- What is the latest of the pods that pass a test is so among all pods. -/
theorem IsLatest.of_filter {test : Pod → Bool} (h : IsLatest (fun _ => True) (items.filter test) p) :
    IsLatest (test · = true) items p := by
  obtain ⟨front, back, hitems, -, hfront, hback⟩ := h
  obtain ⟨before, rest, rfl, rfl, hrest⟩ := List.filter_eq_append_iff.1 hitems
  obtain ⟨between, after, rfl, hbetween, hp, rfl⟩ := List.filter_eq_cons_iff.1 hrest
  refine ⟨before ++ between, after, by rw [List.append_assoc], hp, fun q hq hPq => ?_, fun q hq hPq => ?_⟩
  · rcases List.mem_append.1 hq with hq | hq
    · exact hfront q (List.mem_filter.2 ⟨hq, hPq⟩) trivial
    · exact absurd hPq (hbetween q hq)
  · exact hback q (List.mem_filter.2 ⟨hq, hPq⟩) trivial

theorem latest?_filter_eq_some_iff {test : Pod → Bool} :
    latest? (items.filter test) = some p ↔ IsLatest (test · = true) items p := by
  constructor
  · intro h
    exact (isLatest_of_latest? h).of_filter
  · intro h
    cases hlatest : latest? (items.filter test) with
    | none =>
      obtain ⟨front, back, rfl, hp, -⟩ := h
      have hmem : p ∈ (front ++ p :: back).filter test := List.mem_filter.2 ⟨by simp, hp⟩
      rw [latest?_eq_none_iff.1 hlatest] at hmem
      cases hmem
    | some q => rw [(isLatest_of_latest? hlatest).of_filter.unique h]

/-! ## The view -/

namespace JobView

variable {w : Workload} {pods : List Pod}

theorem pods_of (w : Workload) (pods : List Pod) : (of w pods).pods = pods.filter (w.HoldsPod ·) :=
  List.filter_congr fun p _ => by rw [Bool.eq_iff_iff, Workload.hasPod_iff, decide_eq_true_eq]

theorem holdsPod_of_mem {p : Pod} (h : p ∈ (of w pods).pods) : w.HoldsPod p := by
  rw [pods_of] at h
  exact of_decide_eq_true (List.mem_filter.1 h).2

theorem isOwnerOf_of_mem_iff {p : Pod} (h : p ∈ (of w pods).pods) : (!p.isReleased) = true ↔ w.IsOwnerOf p := by
  rw [Bool.not_eq_true', (holdsPod_of_mem h).isReleased_iff]

theorem chief_of (w : Workload) (pods : List Pod) :
    (of w pods).chief = latest? ((of w pods).pods.filter (!·.isReleased)) := rfl

/-- The chief is the latest of the pods that the workload owns itself. -/
theorem chief_of_eq_some_iff {chief : Pod} :
    (of w pods).chief = some chief ↔ IsLatest w.IsOwnerOf (of w pods).pods chief := by
  rw [chief_of, latest?_filter_eq_some_iff]
  exact IsLatest.congr fun p hp => isOwnerOf_of_mem_iff hp

theorem chief_of_eq_none_iff : (of w pods).chief = none ↔ ∀ p ∈ (of w pods).pods, ¬ w.IsOwnerOf p := by
  rw [chief_of, latest?_eq_none_iff, List.filter_eq_nil_iff]
  exact forall₂_congr fun p hp => not_congr (isOwnerOf_of_mem_iff hp)

end JobView

/-- The view of a workload holds the pods of the list that the workload has, in order. Without a pod that the workload owns itself there
is no chief. Otherwise the chief is such a pod that no other is newer than, the last one of several, and no pod of the release. -/
theorem view_holds_own_pods (w : Workload) (pods : List Pod) :
    (JobView.of w pods).workload = w ∧ (JobView.of w pods).pods = pods.filter (w.HoldsPod ·) ∧
    ((JobView.of w pods).chief = none ↔ ∀ p ∈ (JobView.of w pods).pods, ¬ w.IsOwnerOf p) ∧
    (∀ chief, (JobView.of w pods).chief = some chief ↔ ∃ front back, (JobView.of w pods).pods = front ++ chief :: back ∧
      w.IsOwnerOf chief ∧ (∀ p ∈ front, w.IsOwnerOf p → p.creation ≤ chief.creation) ∧
      ∀ p ∈ back, w.IsOwnerOf p → p.creation < chief.creation) ∧
    ∀ p, w.IsReleaseOf p → (JobView.of w pods).chief ≠ some p := by
  refine ⟨rfl, JobView.pods_of w pods, JobView.chief_of_eq_none_iff, fun chief => JobView.chief_of_eq_some_iff, fun p hp hchief => ?_⟩
  obtain ⟨-, -, -, howner, -⟩ := JobView.chief_of_eq_some_iff.1 hchief
  exact hp.not_isOwnerOf howner

end TrainingJobs

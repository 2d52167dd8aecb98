import TrainingJobs.Proofs.JobPods

/-!
# The status of a job by its pods

The status of a job is given by the first rule that applies (`JobView.HasStatus`). A job really runs when its chief runs, nothing stands
in the way, and no other pod of it is pending (`RealStatusByChief`). That the chief itself is looked at together with the other pods does
not matter, for a chief that runs is not pending (`real_status_by_chief`).
-/

namespace TrainingJobs

namespace JobView

/-- The scheduler cannot place the job. -/
def IsUnplaced (v : JobView) : Prop := v.workload.annotations.get? Keys.unschedulable = some "true"

instance (v : JobView) : Decidable v.IsUnplaced := inferInstanceAs (Decidable (_ = _))

/-- The rules of the status, each where none before it applies. -/
inductive HasStatus (v : JobView) : JobStatus → Prop
  | unplaced (h : v.IsUnplaced) : HasStatus v .unschedulable
  | chiefless (h : ¬ v.IsUnplaced) (hchief : v.chief = none) : HasStatus v (.pending none)
  | terminating {chief : Pod} (h : ¬ v.IsUnplaced) (hchief : v.chief = some chief) (hdeleted : v.workload.deleted = true) :
    HasStatus v .terminating
  | waiting {chief : Pod} {reason : String} {more : List String} (h : ¬ v.IsUnplaced) (hchief : v.chief = some chief)
    (hkept : v.workload.deleted = false) (hphase : chief.phase = .pending) (hreasons : chief.waitReasons = reason :: more) :
    HasStatus v (.pending (some reason))
  | phase {chief : Pod} (h : ¬ v.IsUnplaced) (hchief : v.chief = some chief) (hkept : v.workload.deleted = false)
    (hreasons : chief.phase = .pending → chief.waitReasons = []) : HasStatus v (.ofPhase chief.phase)

/-- The chief of a job runs, and neither its placement nor a deletion stands in the way. -/
structure ChiefRuns (v : JobView) (chief : Pod) : Prop where
  placed : ¬ v.IsUnplaced
  isChief : v.chief = some chief
  kept : v.workload.deleted = false
  runs : chief.phase = .running

/-- The pods of a job other than its chief. -/
def HasSiblings (v : JobView) (chief : Pod) (others : List Pod) : Prop :=
  v.chief = some chief ∧ ∃ front back, v.pods = front ++ chief :: back ∧ others = front ++ back

variable {v : JobView} {s : JobStatus} {chief : Pod} {others : List Pod}

/-! ## The rules -/

theorem status_eq (v : JobView) : v.status = if v.IsUnplaced then .unschedulable else
    match v.chief with
    | none => .pending none
    | some chief =>
      if v.workload.deleted then .terminating
      else if chief.phase = .pending then .pending chief.waitReasons.head? else .ofPhase chief.phase := rfl

/-- Some rule applies, and the first one gives the status. -/
theorem hasStatus_status (v : JobView) : v.HasStatus v.status := by
  rw [status_eq]
  by_cases hunplaced : v.IsUnplaced
  · rw [if_pos hunplaced]
    exact .unplaced hunplaced
  rw [if_neg hunplaced]
  cases hchief : v.chief with
  | none => exact .chiefless hunplaced hchief
  | some chief =>
    dsimp only
    cases hdeleted : v.workload.deleted with
    | true => exact .terminating hunplaced hchief hdeleted
    | false =>
      rw [if_neg Bool.false_ne_true]
      by_cases hphase : chief.phase = .pending
      · rw [if_pos hphase]
        cases hreasons : chief.waitReasons with
        | nil =>
          have h := HasStatus.phase hunplaced hchief hdeleted fun _ => hreasons
          rwa [hphase] at h
        | cons reason more => exact .waiting hunplaced hchief hdeleted hphase hreasons
      · rw [if_neg hphase]
        exact .phase hunplaced hchief hdeleted fun h => absurd h hphase

/-- No other status follows from the rules. -/
theorem status_eq_iff : v.status = s ↔ v.HasStatus s := by
  constructor
  · rintro rfl
    exact v.hasStatus_status
  · intro h
    rw [status_eq]
    cases h with
    | unplaced h => rw [if_pos h]
    | chiefless h hchief => rw [if_neg h, hchief]
    | terminating h hchief hdeleted => simp only [if_neg h, hchief, hdeleted, ↓reduceIte]
    | waiting h hchief hkept hphase hreasons =>
      simp only [if_neg h, hchief, hkept, hphase, hreasons, Bool.false_eq_true, ↓reduceIte, List.head?_cons]
    | @phase chief h hchief hkept hreasons =>
      simp only [if_neg h, hchief, hkept, Bool.false_eq_true, ↓reduceIte]
      by_cases hphase : chief.phase = .pending
      · rw [if_pos hphase, hreasons hphase, hphase]
        rfl
      · rw [if_neg hphase]

theorem ofPhase_ne_deleted (phase : PodPhase) : JobStatus.ofPhase phase ≠ .deleted := by
  cases phase <;> exact nofun

theorem ofPhase_eq_running_iff {phase : PodPhase} : JobStatus.ofPhase phase = .running ↔ phase = .running := by
  cases phase <;> simp [JobStatus.ofPhase]

theorem status_ne_deleted (v : JobView) : v.status ≠ .deleted := by
  intro h
  have hrule := v.hasStatus_status
  generalize v.status = s at h hrule
  cases hrule with
  | phase => exact ofPhase_ne_deleted _ h
  | _ => cases h

/-- A job runs by its status just when its chief runs. -/
theorem status_eq_running_iff : v.status = .running ↔ ∃ chief, v.ChiefRuns chief := by
  constructor
  · intro h
    have hrule := v.hasStatus_status
    generalize v.status = s at h hrule
    cases hrule with
    | phase hplaced hchief hkept _ => exact ⟨_, hplaced, hchief, hkept, ofPhase_eq_running_iff.1 h⟩
    | _ => cases h
  · rintro ⟨chief, hplaced, hchief, hkept, hruns⟩
    have h := HasStatus.phase hplaced hchief hkept fun hpending => by rw [hruns] at hpending; cases hpending
    rw [hruns] at h
    exact status_eq_iff.2 h

/-! ## Other pods -/

theorem real_eq (s : JobStatus) (pods : List Pod) :
    s.real pods = if s = .running ∧ ∃ p ∈ pods, p.phase = .pending then .pending none else s := by
  simp [JobStatus.real, JobStatus.isRunning]

theorem real_eq_running_iff {pods : List Pod} : s.real pods = .running ↔ s = .running ∧ ¬ ∃ p ∈ pods, p.phase = .pending := by
  rw [real_eq]
  by_cases h : s = .running ∧ ∃ p ∈ pods, p.phase = .pending
  · rw [if_pos h]
    exact iff_of_false nofun fun hnone => hnone.2 h.2
  · rw [if_neg h]
    exact ⟨fun hs => ⟨hs, fun hpending => h ⟨hs, hpending⟩⟩, And.left⟩

theorem real_eq_pending_iff {pods : List Pod} (h : s = .running) : s.real pods = .pending none ↔ ∃ p ∈ pods, p.phase = .pending := by
  rw [real_eq]
  by_cases hpending : ∃ p ∈ pods, p.phase = .pending
  · rw [if_pos ⟨h, hpending⟩]
    exact iff_of_true rfl hpending
  · rw [if_neg fun hboth => hpending hboth.2, h]
    exact iff_of_false nofun hpending

theorem real_eq_self {pods : List Pod} (h : s = .running → ¬ ∃ p ∈ pods, p.phase = .pending) : s.real pods = s := by
  rw [real_eq, if_neg fun hboth => h hboth.1 hboth.2]

theorem real_ne_deleted {pods : List Pod} (h : s ≠ .deleted) : s.real pods ≠ .deleted := by
  rw [real_eq]
  split
  · exact nofun
  · exact h

/-- The chief of a view is one of its pods. -/
theorem exists_hasSiblings {w : Workload} {pods : List Pod} (h : (of w pods).chief = some chief) :
    ∃ others, (of w pods).HasSiblings chief others := by
  obtain ⟨front, back, hpods, -⟩ := chief_of_eq_some_iff.1 h
  exact ⟨_, h, front, back, hpods, rfl⟩

/-- A job that runs by its status has a chief that runs, among other pods. -/
theorem exists_chiefRuns {w : Workload} {pods : List Pod} (h : (of w pods).status = .running) :
    ∃ chief others, (of w pods).ChiefRuns chief ∧ (of w pods).HasSiblings chief others := by
  obtain ⟨chief, hchief⟩ := status_eq_running_iff.1 h
  obtain ⟨others, hothers⟩ := exists_hasSiblings hchief.isChief
  exact ⟨chief, others, hchief, hothers⟩

/-- Of the pods of a job that runs by its status, the chief is not pending. -/
theorem HasSiblings.exists_pending_iff (hothers : v.HasSiblings chief others) (h : v.status = .running) :
    (∃ p ∈ v.pods, p.phase = .pending) ↔ ∃ p ∈ others, p.phase = .pending := by
  obtain ⟨hchief, front, back, hpods, rfl⟩ := hothers
  obtain ⟨other, hother⟩ := status_eq_running_iff.1 h
  obtain rfl : other = chief := Option.some.inj (hother.isChief.symm.trans hchief)
  rw [hpods]
  constructor
  · rintro ⟨p, hp, hpending⟩
    rcases List.mem_append.1 hp with hp | hp
    · exact ⟨p, List.mem_append_left _ hp, hpending⟩
    · rcases List.mem_cons.1 hp with rfl | hp
      · rw [hother.runs] at hpending
        cases hpending
      · exact ⟨p, List.mem_append_right _ hp, hpending⟩
  · rintro ⟨p, hp, hpending⟩
    refine ⟨p, ?_, hpending⟩
    rcases List.mem_append.1 hp with hp | hp
    · exact List.mem_append_left _ hp
    · exact List.mem_append_right _ (List.mem_cons_of_mem _ hp)

/-- So only the other pods matter. -/
theorem HasSiblings.realStatus (hothers : v.HasSiblings chief others) : v.realStatus = v.status.real others := by
  rw [JobView.realStatus, real_eq, real_eq]
  by_cases hstatus : v.status = .running
  · simp only [hothers.exists_pending_iff hstatus]
  · rw [if_neg fun h => hstatus h.1, if_neg fun h => hstatus h.1]

end JobView

/-- The real status of a job is what its chief and its other pods make it. -/
structure RealStatusByChief (v : JobView) : Prop where
  /-- It is running just when the chief runs and no other pod is pending. -/
  running : v.realStatus = .running ↔
    ∃ chief others, v.ChiefRuns chief ∧ v.HasSiblings chief others ∧ ∀ p ∈ others, p.phase ≠ .pending
  /-- It is pending in place of running just when the chief runs and another pod is pending. -/
  pending : v.status = .running ∧ v.realStatus = .pending none ↔
    ∃ chief others, v.ChiefRuns chief ∧ v.HasSiblings chief others ∧ ∃ p ∈ others, p.phase = .pending
  /-- Otherwise it is the status. -/
  otherwise : (∀ chief others, v.ChiefRuns chief → v.HasSiblings chief others → ∀ p ∈ others, p.phase ≠ .pending) →
    v.realStatus = v.status
  /-- The status is the one that the rules give. -/
  status : ∀ s, v.status = s ↔ v.HasStatus s
  /-- The chief is one of the pods, and whether it is looked at with the others makes no difference. -/
  siblings : ∀ chief, v.chief = some chief → ∃ others, v.HasSiblings chief others
  regardless : ∀ chief others, v.HasSiblings chief others → v.realStatus = v.status.real others ∧
    (v.status = .running → ((∃ p ∈ v.pods, p.phase = .pending) ↔ ∃ p ∈ others, p.phase = .pending))
  /-- No job has the status of one that is gone. -/
  neverDeleted : v.status ≠ .deleted ∧ v.realStatus ≠ .deleted

open JobView

/-- The real status of every workload among any pods is what its chief and its other pods make it. -/
theorem real_status_by_chief (w : Workload) (pods : List Pod) : RealStatusByChief (JobView.of w pods) where
  running := by
    constructor
    · intro h
      obtain ⟨hstatus, hnone⟩ := real_eq_running_iff.1 h
      obtain ⟨chief, others, hchief, hothers⟩ := exists_chiefRuns hstatus
      rw [hothers.exists_pending_iff hstatus] at hnone
      exact ⟨chief, others, hchief, hothers, fun p hp hpending => hnone ⟨p, hp, hpending⟩⟩
    · rintro ⟨chief, others, hchief, hothers, hnone⟩
      rw [hothers.realStatus, real_eq_running_iff]
      exact ⟨status_eq_running_iff.2 ⟨chief, hchief⟩, fun ⟨p, hp, hpending⟩ => hnone p hp hpending⟩
  pending := by
    constructor
    · rintro ⟨hstatus, hpending⟩
      obtain ⟨chief, others, hchief, hothers⟩ := exists_chiefRuns hstatus
      rw [hothers.realStatus, real_eq_pending_iff hstatus] at hpending
      exact ⟨chief, others, hchief, hothers, hpending⟩
    · rintro ⟨chief, others, hchief, hothers, hpending⟩
      have hstatus := status_eq_running_iff.2 ⟨chief, hchief⟩
      rw [hothers.realStatus, real_eq_pending_iff hstatus]
      exact ⟨hstatus, hpending⟩
  otherwise := by
    intro h
    refine real_eq_self fun hstatus hpending => ?_
    obtain ⟨chief, others, hchief, hothers⟩ := exists_chiefRuns hstatus
    obtain ⟨p, hp, hphase⟩ := (hothers.exists_pending_iff hstatus).1 hpending
    exact h chief others hchief hothers p hp hphase
  status := fun _ => status_eq_iff
  siblings := fun _ hchief => exists_hasSiblings hchief
  regardless := fun _ _ hothers => ⟨hothers.realStatus, hothers.exists_pending_iff⟩
  neverDeleted := ⟨status_ne_deleted _, real_ne_deleted (status_ne_deleted _)⟩

end TrainingJobs

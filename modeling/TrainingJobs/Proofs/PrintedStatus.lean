import TrainingJobs.Proofs.ProjectLists
import TrainingJobs.Proofs.RealStatus

/-!
# Reading a printed status

A status is printed as one of eight words, or as the reason for which the chief waits. A reason may be any text, so the two meet: the
chief of a job may wait for `Running` or another of the words. Then the status reads back as that of the word, and otherwise as itself
(`printed_status_of_read_pods`). An empty reason would be lost as well, but pods are read without it (`Pod.ne_empty_of_isRead`).
-/

namespace TrainingJobs

namespace JobStatus

/-- The texts of the statuses that give no reason. -/
def words : List String := ["Running", "Pending", "Terminating", "Failed", "Succeeded", "Unschedulable", "Deleted", "Unknown"]

/-- The reason that a status gives. -/
def reason? : JobStatus → Option String
  | .pending reason => reason
  | _ => none

variable {s t : JobStatus} {word reason : String}

/-! ## Words and reasons -/

theorem reason?_eq_some_iff : s.reason? = some reason ↔ s = .pending (some reason) := by
  cases s <;> simp [reason?]

/-- A status is printed as its reason. -/
theorem text_of_reason? (h : s.reason? = some reason) : s.text = reason := by
  rw [reason?_eq_some_iff.1 h]
  rfl

/-- A status without a reason is printed as one of the words. -/
theorem text_mem_words (h : s.reason? = none) : s.text ∈ words := by
  cases s with
  | pending reason =>
    obtain rfl : reason = none := h
    decide
  | _ => decide

/-- And the word reads back. -/
theorem ofText_text (h : s.reason? = none) : ofText s.text = s := by
  cases s with
  | pending reason =>
    obtain rfl : reason = none := h
    decide
  | _ => decide

/-- A word is read as the status that is printed so. -/
theorem text_ofText (h : word ∈ words) : (ofText word).text = word := by
  revert word
  decide

/-- No word is read as a reason, and neither is the empty text. -/
theorem reason?_ofText_eq_none (h : word ∈ "" :: words) : (ofText word).reason? = none := by
  revert word
  decide

/-- Any other text is. -/
theorem ofText_eq_pending (h : reason ∉ "" :: words) : ofText reason = .pending (some reason) := by
  unfold ofText
  split
  case h_10 => rfl
  all_goals exact absurd (by decide) h

/-- A status reads back unless the reason that it gives is a word or empty. -/
theorem ofText_text_eq_iff : ofText s.text = s ↔ ∀ word ∈ "" :: words, s.reason? ≠ some word := by
  constructor
  · intro h word hword hreason
    rw [text_of_reason? hreason] at h
    rw [← h, reason?_ofText_eq_none hword] at hreason
    cases hreason
  · intro h
    cases hreason : s.reason? with
    | none => exact ofText_text hreason
    | some reason =>
      rw [text_of_reason? hreason, reason?_eq_some_iff.1 hreason]
      exact ofText_eq_pending fun hword => h reason hword hreason

/-- Two statuses are printed alike if they are the same, or if one gives the word of the other as its reason. -/
theorem text_eq_text_iff : s.text = t.text ↔
    s = t ∨ ∃ word ∈ words, s.reason? = some word ∧ t = ofText word ∨ t.reason? = some word ∧ s = ofText word := by
  constructor
  · intro h
    cases hs : s.reason? with
    | none =>
      cases ht : t.reason? with
      | none => exact .inl (by rw [← ofText_text hs, h, ofText_text ht])
      | some reason =>
        have hword := text_mem_words hs
        rw [h, text_of_reason? ht] at hword
        exact .inr ⟨reason, hword, .inr ⟨rfl, by rw [← text_of_reason? ht, ← h, ofText_text hs]⟩⟩
    | some reason =>
      cases ht : t.reason? with
      | none =>
        have hword := text_mem_words ht
        rw [← h, text_of_reason? hs] at hword
        exact .inr ⟨reason, hword, .inl ⟨rfl, by rw [← text_of_reason? hs, h, ofText_text ht]⟩⟩
      | some other =>
        rw [text_of_reason? hs, text_of_reason? ht] at h
        rw [reason?_eq_some_iff.1 hs, reason?_eq_some_iff.1 ht, h]
        exact .inl rfl
  · rintro (rfl | ⟨word, hword, ⟨hs, rfl⟩ | ⟨ht, rfl⟩⟩)
    · rfl
    · rw [text_of_reason? hs, text_ofText hword]
    · rw [text_of_reason? ht, text_ofText hword]

theorem text_eq_running_iff : s.text = "Running" ↔ s.isRunning = true ∨ s.reason? = some "Running" := by
  cases s with
  | pending reason => cases reason <;> simp [text, isRunning, reason?]
  | _ => decide

theorem reason?_ofPhase (phase : PodPhase) : (ofPhase phase).reason? = none := by
  cases phase <;> rfl

/-- Looking at the other pods does not change the reason. -/
theorem reason?_real (s : JobStatus) (pods : List Pod) : (s.real pods).reason? = s.reason? := by
  rw [JobView.real_eq]
  by_cases h : s = .running ∧ ∃ p ∈ pods, p.phase = .pending
  · rw [if_pos h, h.1]
    rfl
  · rw [if_neg h]

end JobStatus

namespace JobView

/-- The chief of a job waits for a reason, and neither its placement nor a deletion stands before that. -/
structure ChiefWaits (v : JobView) (chief : Pod) (reason : String) : Prop where
  placed : ¬ v.IsUnplaced
  isChief : v.chief = some chief
  kept : v.workload.deleted = false
  waits : chief.phase = .pending
  first : chief.waitReasons.head? = some reason

/-- A job waits for the reason of its chief. -/
def WaitsFor (v : JobView) (reason : String) : Prop := ∃ chief, v.ChiefWaits chief reason

variable {v : JobView} {reason : String}

/-- The reason of the status is the one that the job waits for. -/
theorem reason?_status_iff : v.status.reason? = some reason ↔ v.WaitsFor reason := by
  constructor
  · intro h
    have hrule := v.hasStatus_status
    generalize v.status = s at h hrule
    cases hrule with
    | waiting hplaced hchief hkept hphase hreasons => exact ⟨_, hplaced, hchief, hkept, hphase, by rw [hreasons]; exact h⟩
    | phase => simp [JobStatus.reason?_ofPhase] at h
    | _ => cases h
  · rintro ⟨chief, hplaced, hchief, hkept, hphase, hfirst⟩
    obtain ⟨more, hreasons⟩ := List.head?_eq_some_iff.1 hfirst
    rw [status_eq_iff.2 (.waiting hplaced hchief hkept hphase hreasons)]
    rfl

theorem reason?_realStatus_iff : v.realStatus.reason? = some reason ↔ v.WaitsFor reason := by
  rw [JobView.realStatus, JobStatus.reason?_real, reason?_status_iff]

end JobView

/-- A pod that was read from an object of the cluster. -/
def Pod.IsRead (p : Pod) : Prop := ∃ object notes, ProjectListsAux.result (Objects.podOf object) notes = .ok p

/-- No container of a pod that was read waits for an empty reason. -/
theorem Pod.ne_empty_of_isRead {p : Pod} (h : p.IsRead) {reason : String} (hreason : reason ∈ p.waitReasons) : reason ≠ "" := by
  obtain ⟨object, notes, h⟩ := h
  obtain ⟨_, _, -, h⟩ := ProjectListsAux.exists_of_result_bind h
  obtain ⟨_, _, -, h⟩ := ProjectListsAux.exists_of_result_bind h
  cases h
  obtain ⟨status, -, hstatus⟩ := List.mem_filterMap.1 hreason
  rw [Objects.waitReason?, Option.filter_eq_some_iff] at hstatus
  rintro rfl
  exact absurd hstatus.2 (by decide)

/-- So no job of pods that were read waits for one. -/
theorem JobView.not_waitsFor_empty {w : Workload} {pods : List Pod} (h : ∀ p ∈ pods, p.IsRead) :
    ¬ (JobView.of w pods).WaitsFor "" := by
  rintro ⟨chief, hchief⟩
  obtain ⟨front, back, hpods, -⟩ := chief_of_eq_some_iff.1 hchief.isChief
  have hmem : chief ∈ (JobView.of w pods).pods := by
    rw [hpods]
    exact List.mem_append_right _ List.mem_cons_self
  have hread := h chief (List.mem_filter.1 hmem).1
  exact Pod.ne_empty_of_isRead hread (List.mem_of_mem_head? (by rw [hchief.first]; rfl)) rfl

/-- What is printed of a status of a job says which one it is, unless a job waits for the word of a status. -/
structure PrintedStatus (shown : JobView → JobStatus) (v : JobView) : Prop where
  /-- It reads back just when the job waits for no word. -/
  readBack : JobStatus.ofText (shown v).text = shown v ↔ ∀ word ∈ JobStatus.words, ¬ v.WaitsFor word
  /-- A job of another status is printed the same just when one of the two waits for the word of the other. -/
  alike : ∀ u : JobView, (shown u).text = (shown v).text ↔ shown u = shown v ∨
    ∃ word ∈ JobStatus.words, u.WaitsFor word ∧ shown v = .ofText word ∨ v.WaitsFor word ∧ shown u = .ofText word

open JobView

/-- A status that gives the reason of its job is printed as said. -/
theorem PrintedStatus.of_reason? {shown : JobView → JobStatus} {v : JobView} (hv : ¬ v.WaitsFor "")
    (h : ∀ {u : JobView} {reason : String}, (shown u).reason? = some reason ↔ u.WaitsFor reason) : PrintedStatus shown v where
  readBack := by
    rw [JobStatus.ofText_text_eq_iff, List.forall_mem_cons, Ne, h]
    simp only [Ne, h, hv, not_false_eq_true, true_and]
  alike := by
    intro u
    rw [JobStatus.text_eq_text_iff]
    simp only [h]

/-- Whatever the workload and the pods that were read, its status and its real status are printed as said, and its row says that it
runs just when it does so or waits for that word. -/
theorem printed_status_of_read_pods (w : Workload) (pods : List Pod) (h : ∀ p ∈ pods, p.IsRead) :
    PrintedStatus JobView.status (.of w pods) ∧ PrintedStatus JobView.realStatus (.of w pods) ∧
      ∀ now scheduler, ((JobView.of w pods).row now scheduler).status.text = "Running" ↔
        (JobView.of w pods).realStatus.isRunning = true ∨ (JobView.of w pods).WaitsFor "Running" := by
  have hempty := not_waitsFor_empty h (w := w)
  refine ⟨.of_reason? hempty reason?_status_iff, .of_reason? hempty reason?_realStatus_iff, fun now scheduler => ?_⟩
  rw [← reason?_realStatus_iff]
  exact JobStatus.text_eq_running_iff

/-- An object of a pod whose container waits. -/
def waitingObject (reason : String) : Json :=
  .object [
    ("metadata", .object [("name", .string "train-0"),
      ("ownerReferences", .array [.object [("kind", .string "Job"), ("uid", .string "u1")]])]),
    ("status", .object [("phase", .string "Pending"),
      ("containerStatuses", .array [.object [("state", .object [("waiting", .object [("reason", .string reason)])])]])])]

/-- The pod that is read from it. -/
def waitingPod (reason : String) : Pod :=
  { name := "train-0", phase := .pending, owners := [{ kind := "Job", uid := "u1" }], waitReasons := [reason] }

/-- Another pod, which runs. -/
def runningPod : Pod := { name := "train-1", phase := .running, owners := [{ kind := "Job", uid := "u1" }] }

/-- The job of these pods. -/
def waitingJob : Workload := { kind := .job, name := "train", uid := "u1" }

/-- The status of a job whose image cannot be pulled reads back. -/
theorem printed_status_of_image_pull :
    (∀ p ∈ [waitingPod "ImagePullBackOff"], p.IsRead) ∧
      JobStatus.ofText (JobView.of waitingJob [waitingPod "ImagePullBackOff"]).status.text = .pending (some "ImagePullBackOff") := by
  have hread : ∀ p ∈ [waitingPod "ImagePullBackOff"], p.IsRead := by
    intro p hp
    obtain rfl := List.mem_singleton.1 hp
    exact ⟨waitingObject "ImagePullBackOff", [], rfl⟩
  refine ⟨hread, (printed_status_of_read_pods waitingJob _ hread).1.readBack.2 fun word hword hwaits => ?_⟩
  obtain rfl : "ImagePullBackOff" = word := Option.some.inj (reason?_status_iff.2 hwaits)
  exact absurd hword (by decide)

/-- A job whose chief waits for `Running` is listed as one that runs, and so reads back, but does not run. -/
theorem printed_status_of_word_false :
    (waitingPod "Running").IsRead ∧
      JobStatus.ofText (JobView.of waitingJob [waitingPod "Running"]).status.text ≠
        (JobView.of waitingJob [waitingPod "Running"]).status ∧
      ((JobView.of waitingJob [waitingPod "Running"]).row ⟨0⟩ "").status.text = "Running" ∧
      (JobView.of waitingJob [waitingPod "Running"]).realStatus.isRunning = false ∧
      (JobView.of waitingJob [runningPod]).realStatus.text = (JobView.of waitingJob [waitingPod "Running"]).realStatus.text ∧
      (JobView.of waitingJob [runningPod]).realStatus ≠ (JobView.of waitingJob [waitingPod "Running"]).realStatus :=
  ⟨⟨waitingObject "Running", [], rfl⟩, by decide, rfl, rfl, rfl, by decide⟩

end TrainingJobs

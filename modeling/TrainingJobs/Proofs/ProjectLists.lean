import TrainingJobs.Cluster.Reader
import TrainingJobs.Job.Row
import TrainingJobs.Proofs.Listings
import TrainingJobs.Proofs.Store

/-!
# The list of one namespace

Jobs are read from all namespaces or from one, and what is shown of them is worked out from what was read alone. The reading of
one namespace gives the workloads and the pods of it (`readJobs_some_eq`), a workload has no pod of another namespace, and views
are sorted without regard to where they come from: so the list of one namespace is its part of the full list, in the same order
(`project_list_is_part`).
-/

namespace TrainingJobs

namespace ProjectListsAux

/-! ## Results of reading objects do not depend on the notes -/

/-- The result of a reading that begins with some notes. -/
def result {α : Type} (x : Noting α) (notes : List String) : Except ObjectError α := (x.run.run notes).1

/-- The result of a reading does not depend on the notes before it. -/
def Steady {α : Type} (x : Noting α) : Prop := ∀ notes, result x notes = result x []

variable {α β : Type}

/-- A reading that goes on after another one fails with it, or goes on with its result. -/
theorem result_bind_cases (x : Noting α) (f : α → Noting β) (notes : List String) :
    (∃ e, result x notes = .error e ∧ result (x >>= f) notes = .error e) ∨
      ∃ a notes', result x notes = .ok a ∧ result (x >>= f) notes = result (f a) notes' := by
  cases hrun : x.run.run notes with
  | mk r notes' =>
    have hx : result x notes = r := congrArg Prod.fst hrun
    have hbind : (x >>= f).run.run notes = (ExceptT.bindCont f r).run notes' := by
      change (x.run >>= ExceptT.bindCont f).run notes = _
      rw [StateT.run_bind]
      exact congrArg (fun y : Except ObjectError α × List String => (ExceptT.bindCont f y.1).run y.2) hrun
    cases r with
    | error e => exact .inl ⟨e, hx, congrArg Prod.fst hbind⟩
    | ok a => exact .inr ⟨a, notes', hx, congrArg Prod.fst hbind⟩

/-- A reading that succeeds after another one goes on with the result of that. -/
theorem exists_of_result_bind {x : Noting α} {f : α → Noting β} {notes : List String} {b : β}
    (h : result (x >>= f) notes = .ok b) : ∃ a notes', result x notes = .ok a ∧ result (f a) notes' = .ok b := by
  obtain ⟨e, -, he⟩ | ⟨a, notes', hx, hf⟩ := result_bind_cases x f notes
  · rw [he] at h
    cases h
  · exact ⟨a, notes', hx, hf.symm.trans h⟩

theorem result_bind {f : α → Noting β} (hf : ∀ a, Steady (f a)) (x : Noting α) (notes : List String) :
    result (x >>= f) notes = (result x notes >>= fun a => result (f a) []) := by
  obtain ⟨e, hx, he⟩ | ⟨a, notes', hx, ha⟩ := result_bind_cases x f notes
  · rw [he, hx]
    rfl
  · rw [ha, hx, hf a notes']
    rfl

theorem steady_pure (a : α) : Steady (pure a) := fun _ => rfl

theorem steady_bind {x : Noting α} {f : α → Noting β} (hx : Steady x) (hf : ∀ a, Steady (f a)) : Steady (x >>= f) := by
  intro notes
  rw [result_bind hf, result_bind hf, hx notes]

theorem result_mapM {f : α → Noting β} (hf : ∀ a, Steady (f a)) (items : List α) (notes : List String) :
    result (items.mapM f) notes = items.mapM fun a => result (f a) [] := by
  induction items generalizing notes with
  | nil => rfl
  | cons a rest ih =>
    have hrest : ∀ b, Steady (do return b :: (← rest.mapM f)) := by
      intro b notes
      rw [result_bind (fun _ => steady_pure _), result_bind (fun _ => steady_pure _), ih, ih]
    rw [List.mapM_cons, List.mapM_cons, result_bind hrest, hf a notes]
    refine congrArg _ (funext fun b => ?_)
    rw [result_bind (fun _ => steady_pure _), ih]
    rfl

theorem steady_mapM {f : α → Noting β} (hf : ∀ a, Steady (f a)) (items : List α) : Steady (items.mapM f) := by
  intro notes
  rw [result_mapM hf, result_mapM hf]

theorem steady_amount (zero : α) (read : String → Except QuantityError α) (name : String) (table : Labels) :
    Steady (Objects.amount zero read name table) := by
  intro notes
  unfold Objects.amount
  cases table.get? name with
  | none => rfl
  | some text =>
    dsimp only
    cases read text with
    | ok a => rfl
    | error e => rfl

theorem steady_resourcesOf (table : Labels) : Steady (Objects.resourcesOf table) :=
  steady_bind (steady_amount _ _ _ _) fun _ => steady_bind (steady_amount _ _ _ _) fun _ =>
    steady_bind (steady_amount _ _ _ _) fun _ => steady_pure _

theorem steady_containerOf (object : Json) : Steady (Objects.containerOf object) :=
  steady_bind (steady_resourcesOf _) fun _ => steady_bind (steady_resourcesOf _) fun _ => steady_pure _

theorem steady_nameOf (object : Json) : Steady (Objects.nameOf object) := by
  intro notes
  unfold Objects.nameOf
  cases Objects.textField? "name" (Objects.metadataOf object) with
  | none => rfl
  | some name => rfl

theorem steady_podOf (object : Json) : Steady (Objects.podOf object) :=
  steady_bind (steady_nameOf _) fun _ => steady_bind (steady_mapM steady_containerOf _) fun _ => steady_pure _

theorem steady_workloadOf (kind : WorkloadKind) (object : Json) : Steady (Objects.workloadOf kind object) :=
  steady_bind (steady_nameOf _) fun _ => steady_bind (steady_mapM steady_containerOf _) fun _ => steady_pure _

/-! ## The namespace of an object and of its record -/

/-- A pod has the namespace of its object. -/
theorem space_podOf {object : Json} {notes : List String} {p : Pod} (h : result (Objects.podOf object) notes = .ok p) :
    p.space = Objects.textField "namespace" (Objects.metadataOf object) := by
  obtain ⟨_, _, -, h⟩ := exists_of_result_bind h
  obtain ⟨_, _, -, h⟩ := exists_of_result_bind h
  cases h
  rfl

/-- A workload has the namespace of its object. -/
theorem space_workloadOf {kind : WorkloadKind} {object : Json} {notes : List String} {w : Workload}
    (h : result (Objects.workloadOf kind object) notes = .ok w) :
    w.space = Objects.textField "namespace" (Objects.metadataOf object) := by
  obtain ⟨_, _, -, h⟩ := exists_of_result_bind h
  obtain ⟨_, _, -, h⟩ := exists_of_result_bind h
  cases h
  rfl

/-- An object that names its namespace is in that and in no other; one that names none is in none. -/
theorem isIn_eq {ns : String} (hns : ns ≠ "") (object : Json) :
    Server.isIn ns object = (Objects.textField "namespace" (Objects.metadataOf object) == ns) := by
  have hempty : (("" : String) == ns) = false := beq_false_of_ne fun h => hns h.symm
  cases hmetadata : Objects.field? "metadata" object with
  | none =>
    have hpath : Objects.path? ["metadata", "namespace"] object = none := by
      simp [Objects.path?, hmetadata]
    have hfield : Objects.textField "namespace" (Objects.metadataOf object) = "" := by
      rw [Objects.metadataOf, hmetadata]
      rfl
    rw [Server.isIn, hpath, hfield, hempty]
    rfl
  | some metadata =>
    have hpath : Objects.path? ["metadata", "namespace"] object = Objects.field? "namespace" metadata := by
      simp [Objects.path?, hmetadata]
    have hfield : Objects.textField "namespace" (Objects.metadataOf object) =
        ((Objects.field? "namespace" metadata).bind Objects.text?).getD "" := by
      rw [Objects.metadataOf, hmetadata]
      rfl
    rw [Server.isIn, hpath, hfield]
    cases (Objects.field? "namespace" metadata).bind Objects.text? with
    | none => exact hempty.symm
    | some found => exact Option.some_beq_some

/-! ## Reading a part of the objects -/

/-- Reading some of the objects gives their part of what reading all of them gives. -/
theorem mapM_filter {ε : Type} {f : α → Except ε β} {p : α → Bool} {q : β → Bool} {items : List α} {results : List β}
    (hpq : ∀ a b, f a = .ok b → p a = q b) (h : items.mapM f = .ok results) :
    (items.filter p).mapM f = .ok (results.filter q) := by
  induction items generalizing results with
  | nil =>
    cases h
    rfl
  | cons a rest ih =>
    rw [List.mapM_cons] at h
    cases ha : f a with
    | error e =>
      rw [ha] at h
      cases h
    | ok b =>
      rw [ha] at h
      cases hrest : rest.mapM f with
      | error e =>
        rw [hrest] at h
        cases h
      | ok bs =>
        rw [hrest] at h
        cases h
        rw [List.filter_cons, List.filter_cons, ← hpq a b ha]
        by_cases hp : p a = true
        · rw [if_pos hp, if_pos hp, List.mapM_cons, ha, ih hrest]
          rfl
        · rw [if_neg hp, if_neg hp, ih hrest]

/-- The records of lists of objects, apart from the notes on them. -/
theorem result_jobRecords {scheduler : String} {jobs sets pods : List Json} {notes : List String}
    {records : List Workload × List Pod} (h : result (Reader.jobRecords scheduler jobs sets pods) notes = .ok records) :
    ∃ jobs' sets', records.1 = jobs' ++ sets' ∧
      (jobs.filter (Objects.isScheduledBy scheduler)).mapM (fun o => result (Objects.workloadOf .job o) []) = .ok jobs' ∧
      (sets.filter (Objects.isScheduledBy scheduler)).mapM (fun o => result (Objects.workloadOf .statefulSet o) []) =
        .ok sets' ∧
      pods.mapM (fun o => result (Objects.podOf o) []) = .ok records.2 := by
  obtain ⟨jobs', _, hjobs, h⟩ := exists_of_result_bind h
  obtain ⟨sets', _, hsets, h⟩ := exists_of_result_bind h
  obtain ⟨pods', _, hpods, h⟩ := exists_of_result_bind h
  cases h
  rw [result_mapM (steady_workloadOf _)] at hjobs hsets
  rw [result_mapM steady_podOf] at hpods
  exact ⟨jobs', sets', rfl, hjobs, hsets, hpods⟩

/-- The records of the objects of one namespace are those of all objects that are in it. -/
theorem jobRecords_filter {scheduler ns : String} {jobs sets pods : List Json} {notes notes' : List String}
    {full part : List Workload × List Pod} (hns : ns ≠ "")
    (hfull : result (Reader.jobRecords scheduler jobs sets pods) notes = .ok full)
    (hpart : result (Reader.jobRecords scheduler (jobs.filter (Server.isIn ns)) (sets.filter (Server.isIn ns))
      (pods.filter (Server.isIn ns))) notes' = .ok part) :
    part.1 = full.1.filter (·.space == ns) ∧ part.2 = full.2.filter (·.space == ns) := by
  have hworkload : ∀ kind o (w : Workload), result (Objects.workloadOf kind o) [] = .ok w →
      Server.isIn ns o = (w.space == ns) := by
    intro kind o w hw
    rw [isIn_eq hns, space_workloadOf hw]
  have hpod : ∀ o (p : Pod), result (Objects.podOf o) [] = .ok p → Server.isIn ns o = (p.space == ns) := by
    intro o p hp
    rw [isIn_eq hns, space_podOf hp]
  obtain ⟨jobs₁, sets₁, hw₁, hjobs₁, hsets₁, hpods₁⟩ := result_jobRecords hfull
  obtain ⟨jobs₂, sets₂, hw₂, hjobs₂, hsets₂, hpods₂⟩ := result_jobRecords hpart
  -- The choice of the scheduler can be made before or after that of the namespace.
  rw [List.filter_filter, List.filter_congr (fun _ _ => Bool.and_comm _ _), ← List.filter_filter,
    mapM_filter (hworkload _) hjobs₁] at hjobs₂
  rw [List.filter_filter, List.filter_congr (fun _ _ => Bool.and_comm _ _), ← List.filter_filter,
    mapM_filter (hworkload _) hsets₁] at hsets₂
  rw [mapM_filter hpod hpods₁] at hpods₂
  cases hjobs₂
  cases hsets₂
  rw [hw₁, hw₂, List.filter_append]
  exact ⟨rfl, (Except.ok.inj hpods₂).symm⟩

/-! ## Reading jobs -/

/-- The objects of a kind that are listed for a namespace, or for all. -/
def listed (w : World) (kind : ObjectKind) (space : Option String) : List Json :=
  (w.server.objects kind).filter fun object => space.all (Server.isIn · object)

/-- A listing that succeeds gives the objects of the world. Listing changes neither them nor the time. -/
theorem answer_listObjects (w : World) (kind : ObjectKind) (space : Option String) :
    (∀ objects, (w.answer (.listObjects kind space false)).1 = .ok objects → objects = listed w kind space) ∧
      (w.answer (.listObjects kind space false)).2.server.objects = w.server.objects ∧
      (w.answer (.listObjects kind space false)).2.clock = w.clock := by
  rw [World.answer_listObjects]
  refine ⟨fun objects hobjects => ?_, World.objects_afterListing w kind, World.clock_afterListing w kind⟩
  rw [World.listed_of_listReply hobjects]
  exact List.filter_congr fun object _ => by simp

/-- The result of a reading with notes is its result without them. -/
theorem run_withNotes (x : Noting α) (w : World) :
    ((Reader.withNotes x).run w).1 = (result x []).mapError .object := by
  unfold Reader.withNotes result
  generalize x.run.run [] = reading
  obtain ⟨r, notes⟩ := reading
  change (((notes.forM Program.warn).andThen fun _ => _).run w).1 = _
  rw [Program.run_andThen]
  cases r with
  | error e => rfl
  | ok a => rfl

/-- A reading of jobs that succeeds gives the records of the objects that are listed, and the time. -/
theorem readJobs_result {scheduler : String} {space : Option String} {w : World} {s : Snapshot}
    (h : ((readJobs scheduler space).run w).1 = .ok s) :
    ∃ records, result (Reader.jobRecords scheduler (listed w .jobs space) (listed w .statefulSets space)
        (listed w .pods space)) [] = .ok records ∧
      s = { workloads := records.1, pods := records.2, takenAt := w.clock } := by
  obtain ⟨hjobs, hobjects₁, hclock₁⟩ := answer_listObjects w .jobs space
  generalize hw₁ : (w.answer (.listObjects .jobs space false)).2 = w₁ at hobjects₁ hclock₁
  obtain ⟨hsets, hobjects₂, hclock₂⟩ := answer_listObjects w₁ .statefulSets space
  generalize hw₂ : (w₁.answer (.listObjects .statefulSets space false)).2 = w₂ at hobjects₂ hclock₂
  obtain ⟨hpods, hobjects₃, hclock₃⟩ := answer_listObjects w₂ .pods space
  generalize hw₃ : (w₂.answer (.listObjects .pods space false)).2 = w₃ at hobjects₃ hclock₃
  have hlisted₁ : ∀ kind, listed w₁ kind space = listed w kind space := fun kind => by rw [listed, hobjects₁, listed]
  have hlisted₂ : ∀ kind, listed w₂ kind space = listed w kind space := fun kind => by
    rw [listed, hobjects₂, ← listed, hlisted₁]
  have hclock : w₃.clock = w.clock := hclock₃.trans (hclock₂.trans hclock₁)
  simp only [readJobs, Program.bind_eq, Program.run_andThen, Program.ask, Program.run_send, Program.run_done, hw₁, hw₂,
    hw₃] at h
  split at h
  · cases h
  · cases h
  · cases h
  · rename_i jobs sets pods hjobs' hsets' hpods'
    have hjobs := hjobs jobs (Reader.decoded_eq_ok_iff.1 hjobs').1
    have hsets := hsets sets (Reader.decoded_eq_ok_iff.1 hsets').1
    have hpods := hpods pods (Reader.decoded_eq_ok_iff.1 hpods').1
    rw [hlisted₁] at hsets
    rw [hlisted₂] at hpods
    subst hjobs hsets hpods
    rw [Program.run_andThen, Program.run_send, Program.run_done, Program.run_andThen, run_withNotes] at h
    generalize result (Reader.jobRecords scheduler (listed w .jobs space) (listed w .statefulSets space)
      (listed w .pods space)) [] = read at h ⊢
    cases read with
    | error e => cases h
    | ok records =>
      cases h
      exact ⟨records, rfl, by rw [← hclock]; rfl⟩

/-! ## Views -/

/-- Where a list is split by a property that holds of all of the one part and of none of the other, the parts are known. -/
theorem append_inj_of_split {q : α → Bool} {a a' b b' : List α} (h : a ++ b = a' ++ b') (ha : ∀ x ∈ a, q x = true)
    (hb : ∀ x ∈ b, q x = false) (ha' : ∀ x ∈ a', q x = true) (hb' : ∀ x ∈ b', q x = false) : a = a' ∧ b = b' := by
  have hparts : ∀ {c d : List α}, (∀ x ∈ c, q x = true) → (∀ x ∈ d, q x = false) → (c ++ d).filter q = c := by
    intro c d hc hd
    rw [List.filter_append, List.filter_eq_self.2 hc, List.filter_eq_nil_iff.2 fun x hx => by simp [hd x hx], List.append_nil]
  have hfirst : a = a' := by rw [← hparts ha hb, h, hparts ha' hb']
  subst hfirst
  exact ⟨rfl, List.append_cancel_left h⟩

/-- A stable sort of some of the elements gives their part of the sorted list. -/
theorem mergeSort_filter {le : α → α → Bool} (htrans : ∀ a b c, le a b = true → le b c = true → le a c = true)
    (htotal : ∀ a b, (le a b || le b a) = true) (p : α → Bool) (items : List α) :
    (items.filter p).mergeSort le = (items.mergeSort le).filter p := by
  induction items with
  | nil => simp
  | cons a rest ih =>
    -- An element is sorted in behind the elements that may not stand behind it, and before the others.
    have hbehind : ∀ {l₁ l₂ : List α}, (l₁ ++ a :: l₂).Pairwise (le · · = true) → ∀ b ∈ l₂, (!le a b) = false := by
      intro l₁ l₂ hsorted b hb
      have hab := (List.pairwise_cons.1 (List.pairwise_append.1 hsorted).2.1).1 b hb
      rw [hab]
      rfl
    obtain ⟨l₁, l₂, hall, hrest, hbefore⟩ := List.mergeSort_cons htrans htotal a rest
    have hafter := hbehind (hall ▸ List.pairwise_mergeSort htrans htotal (a :: rest))
    rw [hrest, List.filter_append] at ih
    rw [hall, List.filter_append, List.filter_cons, List.filter_cons]
    by_cases hp : p a = true
    · rw [if_pos hp, if_pos hp]
      obtain ⟨m₁, m₂, hall', hrest', hbefore'⟩ := List.mergeSort_cons htrans htotal a (rest.filter p)
      have hafter' := hbehind (hall' ▸ List.pairwise_mergeSort htrans htotal (a :: rest.filter p))
      obtain ⟨rfl, rfl⟩ := append_inj_of_split (hrest'.symm.trans ih) hbefore' hafter'
        (fun b hb => hbefore b (List.mem_filter.1 hb).1) (fun b hb => hafter b (List.mem_filter.1 hb).1)
      exact hall'
    · rw [if_neg hp, if_neg hp]
      exact ih

/-- What comes before a time does not come behind it. -/
theorem before_asymm (a b : Option Instant) (h : Instant.before a b = true) : Instant.before b a = false := by
  rcases a with _ | a
  · cases b <;> rfl
  · rcases b with _ | b
    · cases h
    · simp only [Instant.before, decide_eq_true_eq, decide_eq_false_iff_not] at h ⊢
      omega

/-- What does not come before a time that does not come before a third does not come before that either. -/
theorem not_before_trans (a b c : Option Instant) (hab : Instant.before a b = false) (hbc : Instant.before b c = false) :
    Instant.before a c = false := by
  rcases c with _ | c
  · cases a <;> rfl
  · rcases b with _ | b
    · cases hbc
    · rcases a with _ | a
      · cases hab
      · simp only [Instant.before, decide_eq_false_iff_not] at hab hbc ⊢
        omega

theorem newerFirst_total (a b : JobView) : (a.newerFirst b || b.newerFirst a) = true := by
  unfold JobView.newerFirst
  cases h : Instant.before a.workload.createdAt b.workload.createdAt with
  | false => rfl
  | true =>
    rw [before_asymm _ _ h]
    rfl

theorem newerFirst_trans (a b c : JobView) (hab : a.newerFirst b = true) (hbc : b.newerFirst c = true) :
    a.newerFirst c = true := by
  simp only [JobView.newerFirst, Bool.not_eq_true'] at hab hbc ⊢
  exact not_before_trans _ _ _ hab hbc

/-- Among views of one time there is nothing to sort. -/
theorem mergeSort_filter_of_time (time : Option Instant) {p : JobView → Bool}
    (hp : ∀ v, p v = true → v.workload.createdAt = time) (views : List JobView) :
    (views.mergeSort JobView.newerFirst).filter p = views.filter p := by
  rw [← mergeSort_filter newerFirst_trans newerFirst_total]
  refine List.mergeSort_of_pairwise (List.pairwise_of_forall_mem_list fun a ha b hb => ?_)
  rw [JobView.newerFirst, hp a (List.mem_filter.1 ha).2, hp b (List.mem_filter.1 hb).2]
  cases time <;> simp [Instant.before]

/-- A workload has no pod of another namespace. -/
theorem of_filter_space (w : Workload) (pods : List Pod) :
    JobView.of w (pods.filter (·.space == w.space)) = JobView.of w pods := by
  have hown : (pods.filter (·.space == w.space)).filter w.hasPod = pods.filter w.hasPod := by
    rw [List.filter_filter]
    refine List.filter_congr fun p _ => ?_
    rw [Workload.hasPod, Bool.and_right_comm, Bool.and_self]
  rw [JobView.of, hown, JobView.of]

/-- The views of the workloads of one namespace with the pods of it are their part of all views. -/
theorem ofSnapshot_filter {full part : Snapshot} {ns : String}
    (hworkloads : part.workloads = full.workloads.filter (·.space == ns))
    (hpods : part.pods = full.pods.filter (·.space == ns)) :
    JobView.ofSnapshot part = (JobView.ofSnapshot full).filter (·.workload.space == ns) := by
  have hviews : part.workloads.map (JobView.of · part.pods) =
      (full.workloads.map (JobView.of · full.pods)).filter (·.workload.space == ns) := by
    rw [List.filter_map, hworkloads]
    refine List.map_congr_left fun w hw => ?_
    rw [hpods, ← eq_of_beq (List.mem_filter.1 hw).2]
    exact of_filter_space w full.pods
  rw [JobView.ofSnapshot, hviews, mergeSort_filter newerFirst_trans newerFirst_total, JobView.ofSnapshot]

end ProjectListsAux

open ProjectListsAux

/-- The snapshot of one namespace has the workloads and the pods of the full one that are in it. -/
theorem readJobs_some_eq {w w' : World} {scheduler ns : String} {full part : Snapshot} (hns : ns ≠ "")
    (hobjects : w'.server.objects = w.server.objects) (hclock : w'.clock = w.clock)
    (hfull : ((readJobs scheduler none).run w).1 = .ok full)
    (hpart : ((readJobs scheduler (some ns)).run w').1 = .ok part) :
    part = { full with
      workloads := full.workloads.filter (·.space == ns)
      pods := full.pods.filter (·.space == ns) } := by
  obtain ⟨all, hall, rfl⟩ := readJobs_result hfull
  obtain ⟨some, hsome, rfl⟩ := readJobs_result hpart
  have hlisted : ∀ kind, listed w' kind (.some ns) = (listed w kind none).filter (Server.isIn ns) := by
    intro kind
    rw [listed, listed, hobjects, List.filter_filter]
    exact List.filter_congr fun object _ => by simp
  rw [hlisted, hlisted, hlisted] at hsome
  obtain ⟨hworkloads, hpods⟩ := jobRecords_filter hns hall hsome
  rw [hworkloads, hpods, hclock]

/-- Whatever a cluster holds, the list of one namespace is the part of the list of all namespaces that is in it, in the same
order, and so are its jobs that can be pruned. -/
theorem project_list_is_part (w w' : World) (scheduler ns : String) (full part : Snapshot) (hns : ns ≠ "")
    (hobjects : w'.server.objects = w.server.objects) (hclock : w'.clock = w.clock)
    (hfull : ((readJobs scheduler none).run w).1 = .ok full)
    (hpart : ((readJobs scheduler (some ns)).run w').1 = .ok part) :
    (∀ shown, jobRows part shown = (jobRows full shown).filter (·.space == ns)) ∧
      ∀ olderThan, pruneCandidates (JobView.ofSnapshot part) part.takenAt olderThan =
        (pruneCandidates (JobView.ofSnapshot full) full.takenAt olderThan).filter (·.workload.space == ns) := by
  have hsnapshot := readJobs_some_eq hns hobjects hclock hfull hpart
  have htime : part.takenAt = full.takenAt := by rw [hsnapshot]
  have hviews : JobView.ofSnapshot part = (JobView.ofSnapshot full).filter (·.workload.space == ns) :=
    ofSnapshot_filter (by rw [hsnapshot]) (by rw [hsnapshot])
  refine ⟨fun shown => ?_, fun olderThan => ?_⟩
  · rw [jobRows, hviews, htime, jobRows, List.filter_map]
    rfl
  · rw [hviews, htime, pruneCandidates, pruneCandidates, List.filter_filter, List.filter_filter]
    exact List.filter_congr fun v _ => Bool.and_comm _ _

/-- A cluster with two jobs that differ in their namespaces and times only, each with a pod that is owned by the uid of both. -/
def twoProjects : World :=
  let job (space time : String) : Json :=
    .object [("metadata", .object [("namespace", .string space), ("name", .string "job"), ("uid", .string "1"),
        ("creationTimestamp", .string time)]),
      ("spec", .object [("template", .object [("spec", .object [("schedulerName", .string "scheduler")])])])]
  let pod (space : String) : Json :=
    .object [("metadata", .object [("namespace", .string space), ("name", .string "pod"),
        ("ownerReferences", .array [.object [("kind", .string "Job"), ("uid", .string "1")]])]),
      ("status", .object [("phase", .string "Running")])]
  { server := { objects := fun
      | .jobs => [job "team-a" "2024-01-01T00:00:00Z", job "team-b" "2024-01-02T00:00:00Z"]
      | .pods => [pod "team-a", pod "team-b"]
      | _ => [] } }

/-- What is read of that cluster. -/
def twoProjectsRead (space : Option String) : Snapshot :=
  ((readJobs "scheduler" space).run twoProjects).1.toOption.getD {}

/-- The list of one of the projects is its part of the list of both. -/
theorem project_list_is_part_two_projects :
    "team-a" ≠ "" ∧ ((readJobs "scheduler" none).run twoProjects).1 = .ok (twoProjectsRead none) ∧
      ((readJobs "scheduler" (some "team-a")).run twoProjects).1 = .ok (twoProjectsRead (some "team-a")) ∧
      (twoProjectsRead none).workloads.map (·.space) = ["team-a", "team-b"] ∧
      jobRows (twoProjectsRead (some "team-a")) "scheduler" =
        (jobRows (twoProjectsRead none) "scheduler").filter (·.space == "team-a") := by
  have hns : "team-a" ≠ "" := by decide
  have hfull : ((readJobs "scheduler" none).run twoProjects).1 = .ok (twoProjectsRead none) := rfl
  have hpart : ((readJobs "scheduler" (some "team-a")).run twoProjects).1 = .ok (twoProjectsRead (some "team-a")) := rfl
  obtain ⟨hrows, -⟩ := project_list_is_part twoProjects twoProjects "scheduler" "team-a" _ _ hns rfl rfl hfull hpart
  exact ⟨hns, hfull, hpart, rfl, hrows "scheduler"⟩

end TrainingJobs

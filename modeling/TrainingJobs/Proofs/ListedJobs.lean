import TrainingJobs.Commands
import TrainingJobs.Proofs.ProjectLists

/-!
# Listing jobs and showing one

A list of jobs has one row for each workload, the newest first (`Snapshot.Lists`). A job is looked up by its name among the same views,
so it is shown just when one row bears the name, and what is shown is that row; otherwise the failure says how many there are
(`shown_job_is_listed`).
-/

namespace TrainingJobs

/-- Workloads are those of a snapshot, the newest first: one without a time has none with a time behind it, and those of the same time
have the order of the snapshot. -/
structure Snapshot.Lists (s : Snapshot) (jobs : List Workload) : Prop where
  all : jobs.Perm s.workloads
  newest : jobs.Pairwise fun a b => ∀ t, b.createdAt = some t → ∃ u, a.createdAt = some u ∧ t.nanos ≤ u.nanos
  stable : ∀ time, jobs.filter (·.createdAt = time) = s.workloads.filter (·.createdAt = time)

/-- What is shown of a workload of a snapshot. -/
def Snapshot.row (s : Snapshot) (scheduler : String) (job : Workload) : JobRow :=
  (JobView.of job s.pods).row s.takenAt scheduler

namespace Commands

/-- A command that reads the cluster prints a line in the world after the reading, and succeeds. -/
def Shows (command : Command) (w read : World) (text : String) : Prop :=
  command.run w = (.ok (), { read with output := read.output ++ (text ++ "\n") })

/-- A command that reads the cluster fails to look up a job, and does nothing more. -/
def Misses (command : Command) (w read : World) (e : LookupError) : Prop :=
  command.run w = (.error (.ofLookup e), read)

end Commands

namespace ListedJobsAux

open Commands ProjectListsAux

variable {s : Snapshot} {views : List JobView} {v : JobView} {name scheduler : String}

/-! ## The order of a list -/

theorem before_eq_false_iff {a b : Option Instant} :
    Instant.before a b = false ↔ ∀ t, b = some t → ∃ u, a = some u ∧ t.nanos ≤ u.nanos := by
  cases a <;> cases b <;> simp [Instant.before]

/-- A view of a snapshot is the one of its workload. -/
theorem eq_of_mem_ofSnapshot (h : v ∈ JobView.ofSnapshot s) : v = JobView.of v.workload s.pods := by
  obtain ⟨job, -, rfl⟩ := List.mem_map.1 (List.mem_mergeSort.1 h)
  rfl

/-- The workloads of the views are listed. -/
theorem lists_ofSnapshot (s : Snapshot) : s.Lists ((JobView.ofSnapshot s).map (·.workload)) where
  all := by
    have hperm := (List.mergeSort_perm (s.workloads.map (JobView.of · s.pods)) JobView.newerFirst).map (·.workload)
    rwa [List.map_map, show (·.workload) ∘ (JobView.of · s.pods) = id from rfl, List.map_id] at hperm
  newest := by
    rw [List.pairwise_map]
    refine (List.pairwise_mergeSort newerFirst_trans newerFirst_total _).imp fun {a b} hab => ?_
    rwa [JobView.newerFirst, Bool.not_eq_true', before_eq_false_iff] at hab
  stable := by
    intro time
    rw [List.filter_map, JobView.ofSnapshot, mergeSort_filter_of_time time (fun v hv => by simpa using hv), List.filter_map,
      List.map_map]
    exact List.map_id _

/-- The rows are those of these workloads. -/
theorem jobRows_eq (s : Snapshot) (scheduler : String) :
    jobRows s scheduler = ((JobView.ofSnapshot s).map (·.workload)).map (s.row scheduler) := by
  rw [jobRows, List.map_map]
  refine List.map_congr_left fun v hv => ?_
  rw [Function.comp_apply, Snapshot.row, ← eq_of_mem_ofSnapshot hv]

/-! ## Rows of a name -/

/-- The rows that bear a name are those of the views of the name. -/
theorem filter_name_jobRows (s : Snapshot) (name scheduler : String) :
    (jobRows s scheduler).filter (·.name == name) =
      ((JobView.ofSnapshot s).filter (·.name == name)).map (·.row s.takenAt scheduler) := by
  rw [jobRows, List.filter_map]
  rfl

/-- As many rows bear a name as workloads do. -/
theorem countP_name_jobRows (s : Snapshot) (name scheduler : String) :
    (jobRows s scheduler).countP (·.name == name) = s.workloads.countP (·.name == name) := by
  rw [jobRows_eq, List.countP_map, (lists_ofSnapshot s).all.countP_eq]
  rfl

/-- What a look-up answers, against the views of the name: none of them, the only one, or that there are several. -/
theorem findJob_cases (views : List JobView) (name : String) :
    (views.filter (·.name == name) = [] ∧ findJob views name = .error (.notFound name)) ∨
      (∃ v, views.filter (·.name == name) = [v] ∧ findJob views name = .ok v) ∨
      (2 ≤ (views.filter (·.name == name)).length ∧
        findJob views name = .error (.ambiguous name (views.filter (·.name == name)).length)) := by
  unfold findJob
  cases hnamed : views.filter (·.name == name) with
  | nil => exact .inl ⟨rfl, rfl⟩
  | cons v more =>
    cases more with
    | nil => exact .inr (.inl ⟨v, rfl, rfl⟩)
    | cons u more => exact .inr (.inr ⟨by rw [List.length_cons, List.length_cons]; omega, rfl⟩)

/-! ## Failures of a look-up -/

theorem message_eq_of_ofLookup_eq {e e' : LookupError} (h : Failure.ofLookup e = Failure.ofLookup e') : e.message = e'.message := by
  simpa only [Failure.ofLookup, Failure.of, Failure.mk.injEq, List.cons.injEq, Cause.message.injEq, and_true] using h

/-- That there is no job of a name is not said as that there are several: the one text begins with a letter, the other with a digit. -/
theorem ofLookup_ne (name : String) (count : Nat) :
    Failure.ofLookup (.notFound name) ≠ Failure.ofLookup (.ambiguous name count) := by
  intro h
  obtain ⟨c, more, hdigits⟩ := List.exists_cons_of_ne_nil (Nat.toDigits_ne_nil (n := count) (b := 10))
  have hc : c.isDigit = true := Nat.isDigit_of_mem_toDigits (by decide) (by decide) (hdigits ▸ List.mem_cons_self)
  have hcount : (toString count).toList = c :: more := String.toList_ofList.trans hdigits
  have htext := congrArg String.toList (message_eq_of_ofLookup_eq h)
  simp only [LookupError.message, String.toList_append, hcount, List.cons_append] at htext
  have hletter : 'N' = c := (List.cons.inj htext).1
  subst hletter
  exact absurd hc (by decide)

/-- How many there are is told by what is said. -/
theorem eq_of_ofLookup_eq {name : String} {count count' : Nat}
    (h : Failure.ofLookup (.ambiguous name count) = Failure.ofLookup (.ambiguous name count')) : count = count' := by
  have htext := message_eq_of_ofLookup_eq h
  simp only [LookupError.message, String.append_left_inj] at htext
  exact toString_inj htext

/-! ## The commands -/

variable {cluster : Reading} {w : World}

theorem shows_listJobs (h : (cluster.run w).1 = .ok s) (scheduler : String) (format : OutputFormat) :
    Shows (listJobs cluster scheduler format) w (cluster.run w).2 (format.list (jobRows s scheduler)) := by
  rw [Shows, listJobs, Program.bind_eq, Program.run_andThen, h]
  rfl

/-- A look-up that finds a job shows it, and another one fails with its error. -/
theorem run_getJob (h : (cluster.run w).1 = .ok s) (name scheduler : String) (format : OutputFormat) :
    match findJob (JobView.ofSnapshot s) name with
    | .ok job => Shows (getJob cluster name scheduler format) w (cluster.run w).2 (format.item (job.row s.takenAt scheduler))
    | .error e => Misses (getJob cluster name scheduler format) w (cluster.run w).2 e := by
  unfold Shows Misses
  rw [getJob, Program.bind_eq, Program.run_andThen, h]
  dsimp only
  cases findJob (JobView.ofSnapshot s) name with
  | ok job => rfl
  | error e => rfl

/-- So what is shown of a name is the only row that bears it, or that there is none, or how many there are. -/
theorem getJob_cases (h : (cluster.run w).1 = .ok s) (name scheduler : String) (format : OutputFormat) :
    ((jobRows s scheduler).filter (·.name == name) = [] ∧
        Misses (getJob cluster name scheduler format) w (cluster.run w).2 (.notFound name)) ∨
      (∃ row, (jobRows s scheduler).filter (·.name == name) = [row] ∧
        Shows (getJob cluster name scheduler format) w (cluster.run w).2 (format.item row)) ∨
      (2 ≤ ((jobRows s scheduler).filter (·.name == name)).length ∧
        Misses (getJob cluster name scheduler format) w (cluster.run w).2
          (.ambiguous name ((jobRows s scheduler).filter (·.name == name)).length)) := by
  have hrun := run_getJob h name scheduler format
  rw [filter_name_jobRows, List.length_map]
  obtain ⟨hnone, hfound⟩ | ⟨v, hone, hfound⟩ | ⟨hseveral, hfound⟩ := findJob_cases (JobView.ofSnapshot s) name
  · rw [hfound] at hrun
    exact .inl ⟨by rw [hnone, List.map_nil], hrun⟩
  · rw [hfound] at hrun
    exact .inr (.inl ⟨_, by rw [hone, List.map_singleton], hrun⟩)
  · rw [hfound] at hrun
    exact .inr (.inr ⟨hseveral, hrun⟩)

variable {command : Command} {read : World} {e e' : LookupError} {text : String}

theorem not_misses_of_shows (h : Shows command w read text) : ¬ Misses command w read e := by
  intro he
  cases h.symm.trans he

theorem ofLookup_eq_of_misses (h : Misses command w read e) (h' : Misses command w read e') :
    Failure.ofLookup e = Failure.ofLookup e' :=
  Except.error.inj (Prod.mk.inj (h.symm.trans h')).1

end ListedJobsAux

/-- What commands show of the jobs of a snapshot that they read, all of them or the one of a name. -/
structure Commands.ListAndGetAgree (cluster : Reading) (w : World) (s : Snapshot) (name scheduler : String) (format : OutputFormat) :
    Prop where
  /-- The rows are those of the listed workloads. -/
  rows : ∃ jobs, s.Lists jobs ∧ jobRows s scheduler = jobs.map (s.row scheduler)
  /-- The list shows the rows. -/
  listed : Shows (listJobs cluster scheduler format) w (cluster.run w).2 (format.list (jobRows s scheduler))
  /-- The only row that bears the name is shown of it. -/
  shown : ∀ row, (jobRows s scheduler).filter (·.name == name) = [row] →
    Shows (getJob cluster name scheduler format) w (cluster.run w).2 (format.item row)
  /-- There is no other success. -/
  only : ((getJob cluster name scheduler format).run w).1 = .ok () → ∃ row, (jobRows s scheduler).filter (·.name == name) = [row]
  /-- That there is no such job is said just when no row bears the name. -/
  notFound : Misses (getJob cluster name scheduler format) w (cluster.run w).2 (.notFound name) ↔
    ∀ row ∈ jobRows s scheduler, row.name ≠ name
  /-- That there are several, and how many, is said just when so many rows bear it. -/
  ambiguous : ∀ count, Misses (getJob cluster name scheduler format) w (cluster.run w).2 (.ambiguous name count) ↔
    2 ≤ count ∧ (jobRows s scheduler).countP (·.name == name) = count

open Commands ListedJobsAux

/-- When the jobs of a cluster were read, the list of them has a row for each, in order, and a job is shown just when one row bears its
name: that row. -/
theorem shown_job_is_listed {cluster : Reading} {w : World} {s : Snapshot} (h : (cluster.run w).1 = .ok s) (name scheduler : String)
    (format : OutputFormat) : ListAndGetAgree cluster w s name scheduler format where
  rows := ⟨_, lists_ofSnapshot s, jobRows_eq s scheduler⟩
  listed := shows_listJobs h scheduler format
  shown := by
    intro row hrow
    obtain ⟨hnone, -⟩ | ⟨row', hone, hshows⟩ | ⟨hseveral, -⟩ := getJob_cases h name scheduler format
    · cases hnone.symm.trans hrow
    · obtain rfl : row' = row := List.singleton_inj.1 (hone.symm.trans hrow)
      exact hshows
    · rw [hrow] at hseveral
      exact absurd hseveral (by simp)
  only := by
    intro hok
    obtain ⟨-, hmisses⟩ | ⟨row, hone, -⟩ | ⟨-, hmisses⟩ := getJob_cases h name scheduler format
    · cases (congrArg Prod.fst hmisses).symm.trans hok
    · exact ⟨row, hone⟩
    · cases (congrArg Prod.fst hmisses).symm.trans hok
  notFound := by
    have hnone_iff : (∀ row ∈ jobRows s scheduler, row.name ≠ name) ↔ (jobRows s scheduler).filter (·.name == name) = [] := by
      simp only [List.filter_eq_nil_iff, beq_iff_eq, ne_eq]
    rw [hnone_iff]
    obtain ⟨hnone, hmisses⟩ | ⟨row, hone, hshows⟩ | ⟨hseveral, hmisses⟩ := getJob_cases h name scheduler format
    · exact iff_of_true hmisses hnone
    · exact iff_of_false (not_misses_of_shows hshows) (by simp [hone])
    · refine iff_of_false (fun hnone => ofLookup_ne name _ (ofLookup_eq_of_misses hnone hmisses)) fun hnone => ?_
      rw [hnone] at hseveral
      exact absurd hseveral (by simp)
  ambiguous := by
    intro count
    rw [List.countP_eq_length_filter]
    obtain ⟨hnone, hmisses⟩ | ⟨row, hone, hshows⟩ | ⟨hseveral, hmisses⟩ := getJob_cases h name scheduler format
    · refine iff_of_false (fun hcount => ofLookup_ne name _ (ofLookup_eq_of_misses hmisses hcount)) ?_
      rw [hnone, List.length_nil]
      omega
    · refine iff_of_false (not_misses_of_shows hshows) ?_
      rw [hone, List.length_singleton]
      omega
    · constructor
      · intro hcount
        obtain rfl := eq_of_ofLookup_eq (ofLookup_eq_of_misses hmisses hcount)
        exact ⟨hseveral, rfl⟩
      · rintro ⟨-, rfl⟩
        exact hmisses

/-- Three workloads, two of which are called alike. -/
def Snapshot.twoShared : Snapshot :=
  { workloads := [
      { kind := .job, name := "shared", uid := "u1" },
      { kind := .job, name := "train", uid := "u2", createdAt := some ⟨5⟩ },
      { kind := .statefulSet, name := "shared", uid := "u3", createdAt := some ⟨7⟩ }]
    pods := [] }

/-- Of these, the name of the two is ambiguous, and a name that none has is not found. -/
theorem shown_job_is_listed_of_two_shared :
    ((pure (.ok Snapshot.twoShared) : Reading).run {}).1 = .ok Snapshot.twoShared ∧
      Misses (getJob (pure (.ok Snapshot.twoShared)) "shared" "" .json) {} {} (.ambiguous "shared" 2) ∧
      Misses (getJob (pure (.ok Snapshot.twoShared)) "other" "" .json) {} {} (.notFound "other") := by
  have h : ((pure (.ok Snapshot.twoShared) : Reading).run {}).1 = .ok Snapshot.twoShared := rfl
  have hshared := (shown_job_is_listed h "shared" "" .json).ambiguous 2
  have hother := (shown_job_is_listed h "other" "" .json).notFound
  refine ⟨h, hshared.2 ⟨Nat.le_refl 2, (countP_name_jobRows _ _ _).trans (by decide)⟩, hother.2 fun row hrow hname => ?_⟩
  have hnone : (jobRows Snapshot.twoShared "").countP (·.name == "other") = 0 := (countP_name_jobRows _ _ _).trans (by decide)
  exact List.countP_eq_zero.1 hnone row hrow (beq_iff_eq.2 hname)

end TrainingJobs

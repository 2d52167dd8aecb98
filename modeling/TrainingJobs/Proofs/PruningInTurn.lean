import TrainingJobs.Proofs.FailedDeletions
import TrainingJobs.Proofs.ProjectLists
import TrainingJobs.Proofs.WantedJobs

/-!
# Jobs that are pruned in turn

A pruning has to do with the workloads of a snapshot that do not run and are old enough, the newest first (`Snapshot.Candidates`). It
deletes one after the other, each in the world that the ones before it have left: a job is deleted, or passed over with a warning when
nothing was submitted under its name (`Handled`), and any other failure is the last thing that happens (`PruningEnds`). So the names that
it gives are those of the jobs that were deleted, and what is held under no name of a candidate stays (`pruning_in_turn`).
-/

namespace TrainingJobs

/-! ## Jobs that can be pruned -/

/-- The jobs of a snapshot that do not run and are older than a duration: the newest first, and those of the same time in the order of
the snapshot. With a positive duration all of them were created before the time of the snapshot. -/
structure Snapshot.Candidates (s : Snapshot) (olderThan : Duration) (jobs : List JobView) : Prop where
  mem_iff : ∀ v, v ∈ jobs ↔ ∃ job ∈ s.workloads, v = JobView.of job s.pods ∧ v.realStatus.isRunning = false ∧
    ∃ t, job.createdAt = some t ∧ olderThan.nanos < (s.takenAt.since t).nanos
  newest : jobs.Pairwise fun a b => Instant.before a.workload.createdAt b.workload.createdAt = false
  stable : ∀ time, jobs.filter (·.workload.createdAt = time) =
    ((s.workloads.map (JobView.of · s.pods)).filter (·.isPrunable s.takenAt olderThan)).filter (·.workload.createdAt = time)
  past : 0 < olderThan.nanos → ∀ v ∈ jobs, ∃ t, v.workload.createdAt = some t ∧ t.nanos < s.takenAt.nanos

namespace PruningInTurnAux

open ProjectListsAux

theorem isPrunable_iff {now : Instant} {olderThan : Duration} {v : JobView} :
    v.isPrunable now olderThan = true ↔
      v.realStatus.isRunning = false ∧ ∃ t, v.workload.createdAt = some t ∧ olderThan.nanos < (now.since t).nanos := by
  rw [JobView.isPrunable, Bool.and_eq_true, Bool.not_eq_true', JobView.age]
  refine and_congr_right fun _ => ?_
  cases v.workload.createdAt with
  | none => simp
  | some t => simp

/-- The candidates of a snapshot are what the name says. -/
theorem candidates (s : Snapshot) (olderThan : Duration) :
    s.Candidates olderThan (pruneCandidates (JobView.ofSnapshot s) s.takenAt olderThan) := by
  have hmem : ∀ v, v ∈ pruneCandidates (JobView.ofSnapshot s) s.takenAt olderThan ↔
      ∃ job ∈ s.workloads, v = JobView.of job s.pods ∧ v.realStatus.isRunning = false ∧
        ∃ t, job.createdAt = some t ∧ olderThan.nanos < (s.takenAt.since t).nanos := by
    intro v
    simp only [pruneCandidates, JobView.ofSnapshot, List.mem_filter, List.mem_mergeSort, List.mem_map, isPrunable_iff]
    constructor
    · rintro ⟨⟨job, hjob, rfl⟩, hidle, hold⟩
      exact ⟨job, hjob, rfl, hidle, hold⟩
    · rintro ⟨job, hjob, rfl, hidle, hold⟩
      exact ⟨⟨job, hjob, rfl⟩, hidle, hold⟩
  refine ⟨hmem, ?_, fun time => ?_, fun hpositive v hv => ?_⟩
  · have hsorted := List.pairwise_mergeSort newerFirst_trans newerFirst_total (s.workloads.map (JobView.of · s.pods))
    refine (hsorted.filter _).imp fun {a b} hab => ?_
    rwa [JobView.newerFirst, Bool.not_eq_true'] at hab
  · rw [pruneCandidates, JobView.ofSnapshot, List.filter_filter, List.filter_filter]
    exact mergeSort_filter_of_time time (fun v hv => by simp_all) _
  · obtain ⟨job, -, rfl, -, t, ht, hold⟩ := (hmem v).1 hv
    refine ⟨t, ht, ?_⟩
    simp only [Instant.since] at hold
    omega

end PruningInTurnAux

/-! ## One job after the other -/

/-- The deletion of a job. -/
def JobView.deletion (job : JobView) : Program (Except LifecycleError Unit) :=
  Lifecycle.delete job.workload.space job.workload.name

/-- The exchange in which the log says that a job is passed over. -/
def JobView.skipped (job : JobView) : Exchange :=
  ⟨.log .warn ("Skipping " ++ job.workload.name ++ ", it was not submitted from this CLI"), ()⟩

/-- Jobs are handled one after the other, from a world to another, by exchanges: each is deleted, and its name is given, or nothing was
submitted under its name, and the log says that it is passed over. -/
inductive Handled : World → List JobView → List String → List Exchange → World → Prop
  | none (w : World) : Handled w [] [] [] w
  | deleted {w w₁ w' : World} {job : JobView} {rest : List JobView} {names : List String} {xs : List Exchange} :
    job.deletion.run w = (.ok (), w₁) → Handled w₁ rest names xs w' →
    Handled w (job :: rest) (job.workload.name :: names) (job.deletion.exchanges w ++ xs) w'
  | passedOver {w w₁ w₂ w' : World} {job : JobView} {rest : List JobView} {names : List String} {xs : List Exchange} :
    job.deletion.run w = (.error (.notFound job.workload.name), w₁) → w₁.answer job.skipped.request = ((), w₂) →
    Handled w₂ rest names xs w' →
    Handled w (job :: rest) names (job.deletion.exchanges w ++ job.skipped :: xs) w'

/-- How a pruning of jobs ends in a world: all are handled, and the names of the deleted ones are given; or some first ones are, and the
deletion of the next one fails otherwise than by finding nothing, which is the failure of the pruning and the last thing it does. -/
inductive PruningEnds (w : World) (jobs : List JobView) : List Exchange → Except Failure (List String) → World → Prop
  | all {names : List String} {xs : List Exchange} {w' : World} :
    Handled w jobs names xs w' → PruningEnds w jobs xs (.ok names) w'
  | failed {before after : List JobView} {job : JobView} {names : List String} {xs : List Exchange} {w₁ w' : World}
    {e : LifecycleError} : jobs = before ++ job :: after → Handled w before names xs w₁ →
    job.deletion.run w₁ = (.error e, w') → (∀ name, e ≠ .notFound name) →
    PruningEnds w jobs (xs ++ job.deletion.exchanges w₁)
      (.error ((Failure.ofLifecycle e).within ("Failed to prune " ++ job.workload.name))) w'

namespace PruningInTurnAux

open Commands Lifecycle

variable {w w₁ w₂ w' : World} {job : JobView} {jobs rest : List JobView} {names : List String} {xs : List Exchange}
  {result : Except Failure (List String)}

/-- A pruning that begins with a job that is deleted. -/
theorem PruningEnds.deleted (hjob : job.deletion.run w = (.ok (), w₁)) (h : PruningEnds w₁ rest xs result w') :
    PruningEnds w (job :: rest) (job.deletion.exchanges w ++ xs) (result.map (job.workload.name :: ·)) w' := by
  cases h with
  | all hhandled => exact .all (.deleted hjob hhandled)
  | failed hrest hhandled he hne =>
    rw [← List.append_assoc]
    exact .failed (by rw [hrest, List.cons_append]) (.deleted hjob hhandled) he hne

/-- A pruning that begins with a job that is passed over. -/
theorem PruningEnds.passedOver (hjob : job.deletion.run w = (.error (.notFound job.workload.name), w₁))
    (hnote : w₁.answer job.skipped.request = ((), w₂)) (h : PruningEnds w₂ rest xs result w') :
    PruningEnds w (job :: rest) (job.deletion.exchanges w ++ job.skipped :: xs) result w' := by
  cases h with
  | all hhandled => exact .all (.passedOver hjob hnote hhandled)
  | failed hrest hhandled he hne =>
    rw [← List.cons_append, ← List.append_assoc]
    exact .failed (by rw [hrest, List.cons_append]) (.passedOver hjob hnote hhandled) he hne

/-- A deletion that finds nothing says so of the name it was asked for. -/
theorem eq_of_notFound {space name other : String} (h : ((delete space name).run w).1 = .error (.notFound other)) :
    other = name := by
  have hended := delete_ended ((delete space name).run_yields w)
  rw [h] at hended
  generalize (delete space name).exchanges w = xs at hended
  cases hended
  rfl

/-- A pruning of jobs, by induction on those that are left. -/
theorem pruneEach_ends (jobs : List JobView) (w : World) :
    PruningEnds w jobs ((pruneEach jobs).exchanges w) ((pruneEach jobs).run w).1 ((pruneEach jobs).run w).2 := by
  induction jobs generalizing w with
  | nil => exact .all (.none w)
  | cons job rest ih =>
    obtain ⟨outcome, w₁, hjob⟩ : ∃ outcome w₁, job.deletion.run w = (outcome, w₁) := ⟨_, _, rfl⟩
    rw [pruneEach, Program.bind_eq, ← JobView.deletion, Program.exchanges_andThen, Program.run_andThen, hjob]
    cases outcome with
    | ok u =>
      have hrest := PruningEnds.deleted hjob (ih w₁)
      simpa only [Program.bind_eq, Program.pure_eq, Program.exchanges_andThen, Program.run_andThen, Program.exchanges,
        Program.run_done, List.append_nil] using hrest
    | error e =>
      cases e with
      | notFound name =>
        obtain rfl : name = job.workload.name := eq_of_notFound (congrArg Prod.fst hjob)
        exact PruningEnds.passedOver hjob rfl (ih _)
      | _ =>
        -- Any other failure is the last thing that happens.
        have hfailed := PruningEnds.failed (List.nil_append (job :: rest)).symm (.none w) hjob fun _ heq => by cases heq
        simpa only [Program.pure_eq, Program.exchanges, Program.run_done, List.append_nil, List.nil_append] using hfailed

/-- A deletion writes to nothing but what is under its name. -/
theorem held_deletion {key : ObjectKey} (hkey : key ≠ job.key) {outcome : Except LifecycleError Unit}
    (h : job.deletion.run w = (outcome, w₁)) : w₁.held key = w.held key := by
  have hended := delete_ended (job.deletion.run_yields w)
  have hpath := job.deletion.run_path w
  rw [h] at hended hpath
  obtain ⟨hgone, hkept⟩ := FailedDeletionsAux.Ended.held hended hpath
  cases outcome with
  | ok u => exact ((hgone rfl).2 key).trans (if_neg hkey)
  | error e => exact congrFun (hkept e rfl) key

/-- A note does not either. -/
theorem held_skipped (h : w₁.answer job.skipped.request = ((), w₂)) : w₂.held = w₁.held := by
  cases h
  rfl

/-- Neither do several deletions, with notes about what they pass over. -/
theorem Handled.held {key : ObjectKey} (h : Handled w jobs names xs w') (hkey : key ∉ jobs.map JobView.key) :
    w'.held key = w.held key := by
  induction h with
  | none w => rfl
  | deleted hjob _ ih =>
    rw [List.map_cons, List.mem_cons, not_or] at hkey
    rw [ih hkey.2, held_deletion hkey.1 hjob]
  | passedOver hjob hnote _ ih =>
    rw [List.map_cons, List.mem_cons, not_or] at hkey
    rw [ih hkey.2, held_skipped hnote, held_deletion hkey.1 hjob]

theorem PruningEnds.held {key : ObjectKey} (h : PruningEnds w jobs xs result w') (hkey : key ∉ jobs.map JobView.key) :
    w'.held key = w.held key := by
  cases h with
  | all hhandled => exact Handled.held hhandled hkey
  | failed hjobs hhandled he _ =>
    rw [hjobs, List.map_append, List.map_cons, List.mem_append, List.mem_cons, not_or, not_or] at hkey
    rw [held_deletion hkey.2.1 he, Handled.held hhandled hkey.1]

/-! ## Reading the jobs -/

theorem held_warnings (notes : List String) (w : World) : ((notes.forM Program.warn).run w).2.held = w.held := by
  induction notes generalizing w with
  | nil => rfl
  | cons note rest ih => exact ih _

theorem held_withNotes {α : Type} (x : Noting α) (w : World) : ((Reader.withNotes x).run w).2.held = w.held := by
  unfold Reader.withNotes
  generalize x.run.run [] = reading
  obtain ⟨outcome, notes⟩ := reading
  change (((notes.forM Program.warn).andThen fun _ => _).run w).2.held = w.held
  rw [Program.run_andThen]
  cases outcome with
  | error e => exact held_warnings notes w
  | ok a => exact held_warnings notes w

/-- A reading of the jobs changes no config map. -/
theorem held_readJobs (scheduler : String) (space : Option String) (w : World) :
    ((readJobs scheduler space).run w).2.held = w.held := by
  simp only [readJobs, Program.bind_eq, Program.run_andThen, Program.ask, Program.run_send, Program.run_done]
  obtain ⟨jobs, w₁, hjobs⟩ : ∃ jobs w₁, w.answer (.listObjects .jobs space false) = (jobs, w₁) := ⟨_, _, rfl⟩
  obtain ⟨sets, w₂, hsets⟩ : ∃ sets w₂, w₁.answer (.listObjects .statefulSets space false) = (sets, w₂) := ⟨_, _, rfl⟩
  obtain ⟨pods, w₃, hpods⟩ : ∃ pods w₃, w₂.answer (.listObjects .pods space false) = (pods, w₃) := ⟨_, _, rfl⟩
  have hheld : w₃.held = w.held :=
    (World.held_listObjects hpods).trans ((World.held_listObjects hsets).trans (World.held_listObjects hjobs))
  rw [hjobs, hsets, hpods]
  split
  · exact hheld
  · exact hheld
  · exact hheld
  · -- The time is no request to the server, and the notes go to the log.
    rename_i jobs sets pods _ _ _
    have hnotes := held_withNotes (Reader.jobRecords scheduler jobs sets pods) w₃
    rw [Program.run_andThen, Program.run_send, Program.run_done, Program.run_andThen]
    split
    · exact hnotes.trans hheld
    · exact hnotes.trans hheld

end PruningInTurnAux

open Commands PruningInTurnAux

/-- A pruning deletes its candidates and nothing else, whatever was read, is stored and fails. When the jobs cannot be read it does nothing
more. Otherwise it has to do with the candidates of the snapshot in their order: all are deleted or, when nothing was submitted under
their names, passed over with a warning each, and the names of the deleted ones are given; or some first ones are, and then the failure of
the next deletion ends it. What is held under no name of a candidate is as before, and reading the jobs changes nothing either. -/
theorem pruning_in_turn (cluster : Reading) (olderThan : Duration) (w : World) :
    (∀ e, (cluster.run w).1 = .error e → (prune cluster olderThan).run w = (.error (jobsUnread e), (cluster.run w).2) ∧
      (prune cluster olderThan).exchanges w = cluster.exchanges w) ∧
    (∀ s, (cluster.run w).1 = .ok s →
      let jobs := pruneCandidates (JobView.ofSnapshot s) s.takenAt olderThan
      s.Candidates olderThan jobs ∧
      (∃ xs, (prune cluster olderThan).exchanges w = cluster.exchanges w ++ xs ∧
        PruningEnds (cluster.run w).2 jobs xs ((prune cluster olderThan).run w).1 ((prune cluster olderThan).run w).2) ∧
      ∀ key, key ∉ jobs.map JobView.key → ((prune cluster olderThan).run w).2.held key = (cluster.run w).2.held key) ∧
    ∀ scheduler space, ((readJobs scheduler space).run w).2.held = w.held := by
  refine ⟨fun e he => ?_, fun s hs => ?_, fun scheduler space => held_readJobs scheduler space w⟩
  · rw [prune, Program.bind_eq, Program.run_andThen, Program.exchanges_andThen, he]
    exact ⟨rfl, List.append_nil _⟩
  · have hends := pruneEach_ends (pruneCandidates (JobView.ofSnapshot s) s.takenAt olderThan) (cluster.run w).2
    rw [prune, Program.bind_eq, Program.run_andThen, Program.exchanges_andThen, hs]
    exact ⟨candidates s olderThan, ⟨_, rfl, hends⟩, fun key hkey => PruningEnds.held hends hkey⟩

/-- A job that has finished like `job` and came an hour later. -/
def laterJob : Workload :=
  { kind := .job, name := "later", space := "team-a", uid := "u3", createdAt := some ⟨3600 * Duration.secondNanos⟩ }

/-- Both jobs, four hours after the first was created. -/
def twoFinished : Snapshot := { workloads := [finishedJob, laterJob], takenAt := ⟨4 * 3600 * Duration.secondNanos⟩ }

theorem ofSnapshot_twoFinished : JobView.ofSnapshot twoFinished = [JobView.of laterJob [], JobView.of finishedJob []] := by
  have hlater : (JobView.of finishedJob []).newerFirst (JobView.of laterJob []) = false := rfl
  simp [JobView.ofSnapshot, twoFinished, List.mergeSort, hlater]

/-- Where only `job` was submitted the later job is passed over and `job` is deleted. -/
theorem pruning_in_turn_of_two_finished :
    let cluster : Reading := pure (.ok twoFinished)
    let pruning := prune cluster ⟨3600 * Duration.secondNanos⟩
    let w := World.calmWith recordedName
    (cluster.run w).1 = .ok twoFinished ∧
      (pruning.run w).1 = .ok ["job"] ∧ (pruning.run w).2.held finishedJob.key = none ∧
      (pruning.run w).2.log = [(.warn, "Skipping later, it was not submitted from this CLI")] ∧
      ∃ xs, pruning.exchanges w = xs ∧
        PruningEnds w [JobView.of laterJob [], JobView.of finishedJob []] xs (.ok ["job"]) (pruning.run w).2 := by
  intro cluster pruning w
  have hread : (cluster.run w).1 = .ok twoFinished := rfl
  have hjobs : pruneCandidates (JobView.ofSnapshot twoFinished) twoFinished.takenAt ⟨3600 * Duration.secondNanos⟩ =
      [JobView.of laterJob [], JobView.of finishedJob []] := by
    rw [ofSnapshot_twoFinished]
    rfl
  have hpruning : pruning = pruneEach [JobView.of laterJob [], JobView.of finishedJob []] := by
    rw [← hjobs]
    rfl
  obtain ⟨-, ⟨xs, hxs, hends⟩, -⟩ := (pruning_in_turn cluster ⟨3600 * Duration.secondNanos⟩ w).2.1 twoFinished hread
  rw [hjobs] at hends
  have hresult : (pruning.run w).1 = .ok ["job"] := by
    rw [hpruning]
    rfl
  change PruningEnds w _ xs (pruning.run w).1 (pruning.run w).2 at hends
  rw [hresult] at hends
  refine ⟨hread, hresult, ?_, ?_, xs, hxs, hends⟩
  · rw [hpruning]
    rfl
  · rw [hpruning]
    rfl

end TrainingJobs

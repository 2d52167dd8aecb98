import TrainingJobs.Proofs.Pruning

/-!
# Jobs that are still wanted

A pruning looks for workloads that do not run and are old enough, and deletes by name. Two workloads of different kinds can share
a name, and then the record under it should stay as long as one of them is wanted (`SparesWanted`). The other workloads of a name
are never looked at, so that holds just where a record under the name of a workload that can be pruned is under the names of no
others (`wanted_spared_iff`, `wanted_spared_of_shared_name_false`).
-/

namespace TrainingJobs

open Lifecycle Commands

/-- By exchanges the config map of a key was taken away, or its manifest was handed to the installer. -/
def Affects (xs : List Exchange) (key : ObjectKey) : Prop :=
  ⟨.deleteMap key, .ok ()⟩ ∈ xs ∨
    ∃ found manifest outcome, ⟨.getMap key, .ok (some found)⟩ ∈ xs ∧ found.map.text? manifestText = some manifest ∧
      uninstalled key.space manifest outcome ∈ xs

/-- A pruning affects no key of a workload that cannot be pruned. -/
def SparesWanted (w : World) (s : Snapshot) (olderThan : Duration) : Prop :=
  ∀ key, Affects ((prune (pure (.ok s)) olderThan).exchanges w) key → ∀ job ∈ s.workloads, job.key = key →
    s.Prunable olderThan job

namespace WantedJobsAux

variable {w : World} {s : Snapshot} {olderThan : Duration} {key : ObjectKey}

/-- What a pruning affects was held before under the key of a workload that can be pruned. -/
theorem prunable_of_affects (h : Affects ((prune (pure (.ok s)) olderThan).exchanges w) key) :
    (∃ job ∈ s.workloads, job.key = key ∧ s.Prunable olderThan job) ∧ w.held key ≠ none := by
  have hturn := prune_deletedInTurn w s olderThan
  have hpath := (prune (pure (.ok s)) olderThan).run_path w
  rcases h with hdeleted | ⟨found, manifest, outcome, hfound, -, -⟩
  · have hkey := hturn.mem_keys hdeleted (.inr rfl)
    exact ⟨mem_keys_pruneCandidates_iff.1 hkey, hpath.held_of_deleted hturn.putsNothing hdeleted⟩
  · have hkey := hturn.mem_keys hfound (.inl rfl)
    have hheld := hpath.held_of_found hturn.putsNothing hfound
    exact ⟨mem_keys_pruneCandidates_iff.1 hkey, by rw [hheld]; exact Option.some_ne_none found⟩

/-- Where nothing fails a pruning affects whatever is held under the key of a workload that can be pruned. -/
theorem affects_of_prunable {job : Workload} (hw : w.Calm) (hjob : job ∈ s.workloads) (hprunable : s.Prunable olderThan job)
    (hheld : w.held job.key ≠ none) : Affects ((prune (pure (.ok s)) olderThan).exchanges w) job.key := by
  have hturn := prune_deletedInTurn w s olderThan
  have hpath := (prune (pure (.ok s)) olderThan).run_path w
  obtain ⟨names, w', hrun, hbehind⟩ := prune_calm hw s olderThan
  have hgone : w'.held job.key = none := by
    rw [hbehind, if_pos (mem_keys_pruneCandidates_iff.2 ⟨job, hjob, rfl, hprunable⟩)]
  rw [hrun] at hpath
  -- Something was written to the key, and deletions write nothing but removals.
  refine Classical.byContradiction fun hnot => hheld (hpath.free (fun x hx hw => hnot (.inl ?_)) hgone)
  rw [← hturn.writes hx hw]
  exact hx

end WantedJobsAux

open WantedJobsAux

/-- Prunings affect no workload that is still wanted, in every world with some store, just when every workload can be pruned that
shares its name with one that can, where the store holds something under the name. -/
theorem wanted_spared_iff (maps : MapStore) (s : Snapshot) (olderThan : Duration) :
    (∀ w : World, w.server.maps = maps → SparesWanted w s olderThan) ↔
      ∀ job ∈ s.workloads, s.Prunable olderThan job → maps.get? job.key ≠ none →
        ∀ other ∈ s.workloads, other.key = job.key → s.Prunable olderThan other := by
  constructor
  · intro h job hjob hprunable hheld other hother hkey
    have haffects := affects_of_prunable (World.calm_calmWith maps) hjob hprunable hheld
    exact h (.calmWith maps) rfl job.key haffects other hother hkey
  · intro h w hw key haffects other hother hkey
    obtain ⟨⟨job, hjob, rfl, hprunable⟩, hheld⟩ := prunable_of_affects haffects
    rw [← hw] at h
    exact h job hjob hprunable hheld other hother hkey

/-! ## A name of two workloads -/

/-- A training job that has finished. -/
def finishedJob : Workload := { kind := .job, name := "job", space := "team-a", uid := "u1", createdAt := some .epoch }

/-- An interactive job of the same name that runs. -/
def runningSet : Workload := { kind := .statefulSet, name := "job", space := "team-a", uid := "u2", createdAt := some .epoch }

/-- Both jobs with their pods, four hours after they were created. -/
def sharedName : Snapshot where
  workloads := [finishedJob, runningSet]
  pods := [{ name := "job-1", space := "team-a", phase := .succeeded, owners := [⟨"Job", "job", "u1"⟩] },
    { name := "job-0", space := "team-a", phase := .running, owners := [⟨"StatefulSet", "job", "u2"⟩] }]
  takenAt := ⟨4 * 3600 * Duration.secondNanos⟩

/-- A store with the record of the name. -/
def recordedName : MapStore :=
  .ofList [(⟨"team-a", "job"⟩, ⟨(Record.candidate .job "team-a" 0).toConfigMap.withTexts (texts "" "" "kind: StatefulSet"), 1⟩)]

/-- A job that runs is pruned together with a finished one of its name. -/
theorem wanted_spared_of_shared_name_false :
    finishedJob.key = runningSet.key ∧ sharedName.Prunable ⟨3600 * Duration.secondNanos⟩ finishedJob ∧
      ¬sharedName.Prunable ⟨3600 * Duration.secondNanos⟩ runningSet ∧
      Affects ((prune (pure (.ok sharedName)) ⟨3600 * Duration.secondNanos⟩).exchanges (.calmWith recordedName))
        runningSet.key ∧
      ¬SparesWanted (.calmWith recordedName) sharedName ⟨3600 * Duration.secondNanos⟩ := by
  have hfinished : sharedName.Prunable ⟨3600 * Duration.secondNanos⟩ finishedJob := rfl
  have hrunning : ¬sharedName.Prunable ⟨3600 * Duration.secondNanos⟩ runningSet := nofun
  have hheld : (World.calmWith recordedName).held finishedJob.key ≠ none := nofun
  have haffects := affects_of_prunable (World.calm_calmWith recordedName) List.mem_cons_self hfinished hheld
  refine ⟨rfl, hfinished, hrunning, haffects, fun h => hrunning ?_⟩
  exact h _ haffects runningSet (List.mem_cons_of_mem _ List.mem_cons_self) rfl

end TrainingJobs

import TrainingJobs.Proofs.PruningInTurn

/-!
# What is said about deleted jobs

Both commands that delete jobs make deletions in turn, with notes between them (`Deletions`). A deletion of named jobs says of each job
that it was deleted when that is done. A pruning says so when all is done: where it fails it has said nothing of the jobs that it had
already deleted (`deletions_reported_iff`).
-/

namespace TrainingJobs

/-- The text that an exchange prints. -/
def Exchange.printed? : Exchange → Option String
  | ⟨.print text, _⟩ => some text
  | _ => none

/-- The name of the record that an exchange has taken away. -/
def Exchange.removed? : Exchange → Option String
  | ⟨.deleteMap key, .ok _⟩ => some key.name
  | _ => none

/-- Whether an exchange only says something, in the log or on the output. -/
def Exchange.IsNote : Exchange → Prop
  | ⟨.log _ _, _⟩ => True
  | ⟨.print _, _⟩ => True
  | _ => False

/-- Deletions are made in turn, from a world to another, by exchanges: each has its outcome in the world that the ones before it have left,
and between them there are notes. -/
inductive Deletions : World → List (ObjectKey × Except LifecycleError Unit) → List Exchange → World → Prop
  | none (w : World) : Deletions w [] [] w
  | note {w w₁ w' : World} {x : Exchange} {outcomes : List (ObjectKey × Except LifecycleError Unit)} {xs : List Exchange} :
    x.IsNote → w.answer x.request = (x.reply, w₁) → Deletions w₁ outcomes xs w' → Deletions w outcomes (x :: xs) w'
  | deletion {w w₁ w' : World} {key : ObjectKey} {outcome : Except LifecycleError Unit}
    {outcomes : List (ObjectKey × Except LifecycleError Unit)} {xs : List Exchange} :
    (Lifecycle.delete key.space key.name).run w = (outcome, w₁) → Deletions w₁ outcomes xs w' →
    Deletions w ((key, outcome) :: outcomes) ((Lifecycle.delete key.space key.name).exchanges w ++ xs) w'

/-- The names of the deletions that succeeded. -/
def succeeded (outcomes : List (ObjectKey × Except LifecycleError Unit)) : List String :=
  (outcomes.filter (·.2.isOk)).map (·.1.name)

/-- What is printed about a job that was deleted. -/
def deletedLine (name : String) : String := "The job " ++ name ++ " has been deleted" ++ "\n"

/-- What is printed about a job that was pruned. -/
def prunedLine (name : String) : String := "The job " ++ name ++ " has been pruned" ++ "\n"

/-- What is printed where there is none. -/
def noneLine : String := "No jobs to prune" ++ "\n"

namespace ReportsAux

open Lifecycle Commands PruningInTurnAux

variable {w w₁ w' : World} {space name : String} {key : ObjectKey} {xs ys : List Exchange}
  {outcomes later : List (ObjectKey × Except LifecycleError Unit)}

theorem succeeded_cons_ok : succeeded ((key, .ok ()) :: outcomes) = key.name :: succeeded outcomes := rfl

theorem succeeded_cons_error {e : LifecycleError} : succeeded ((key, .error e) :: outcomes) = succeeded outcomes := rfl

theorem Deletions.append (h : Deletions w outcomes xs w₁) (hlater : Deletions w₁ later ys w') :
    Deletions w (outcomes ++ later) (xs ++ ys) w' := by
  induction h with
  | none w => exact hlater
  | note hx hanswer _ ih => exact .note hx hanswer (ih hlater)
  | deletion hrun _ ih =>
    rw [List.cons_append, List.append_assoc]
    exact .deletion hrun (ih hlater)

/-- A deletion prints nothing. -/
theorem printed_of_ended {result : Except LifecycleError Unit} (h : Ended space name xs result) :
    xs.filterMap Exchange.printed? = [] := by
  have hcleared : ∀ {found clearing}, Cleared space found clearing → clearing.printed? = none := by
    intro found clearing hclearing
    cases hclearing <;> rfl
  cases h with
  | unread | absent | uncleared => rfl
  | refused e hclearing | gone hclearing =>
    rw [List.filterMap_cons_none rfl, List.filterMap_cons_none (hcleared hclearing)]
    rfl

theorem printed_delete (key : ObjectKey) (w : World) :
    ((delete key.space key.name).exchanges w).filterMap Exchange.printed? = [] :=
  printed_of_ended (delete_ended ((delete key.space key.name).run_yields w))

/-- A deletion that succeeds takes the record of its name away, and one that fails takes none. -/
theorem removed_of_ended {result : Except LifecycleError Unit} (h : Ended space name xs result) :
    xs.filterMap Exchange.removed? = if result.isOk then [name] else [] := by
  have hcleared : ∀ {found clearing}, Cleared space found clearing → clearing.removed? = none := by
    intro found clearing hclearing
    cases hclearing <;> rfl
  cases h with
  | unread | absent | uncleared => rfl
  | refused e hclearing | gone hclearing =>
    rw [List.filterMap_cons_none rfl, List.filterMap_cons_none (hcleared hclearing)]
    rfl

theorem removed?_of_isNote {x : Exchange} (h : x.IsNote) : x.removed? = none := by
  unfold Exchange.IsNote at h
  split at h
  · rfl
  · rfl
  · exact h.elim

/-- The exchanges say which deletions succeeded: those that took a record away. -/
theorem Deletions.succeeded_eq (h : Deletions w outcomes xs w') : succeeded outcomes = xs.filterMap Exchange.removed? := by
  induction h with
  | none w => rfl
  | note hx _ _ ih => rw [ih, List.filterMap_cons_none (removed?_of_isNote hx)]
  | @deletion w w₁ w' key outcome outcomes xs hrun _ ih =>
    have hremoved := removed_of_ended (delete_ended ((delete key.space key.name).run_yields w))
    rw [hrun] at hremoved
    rw [List.filterMap_append, hremoved, ← ih]
    cases outcome <;> rfl

/-! ## Named jobs -/

/-- Each deletion of named jobs that succeeds is followed by its report. -/
theorem deleteEach_reports (space : String) (names : List String) (w : World) :
    ∃ outcomes, Deletions w outcomes ((deleteEach space names).exchanges w) ((deleteEach space names).run w).2 ∧
      outcomes.map (·.1) = names.map (⟨space, ·⟩) ∧
      ((deleteEach space names).exchanges w).filterMap Exchange.printed? = (succeeded outcomes).map deletedLine := by
  induction names generalizing w with
  | nil => exact ⟨[], .none w, rfl, rfl⟩
  | cons name rest ih =>
    obtain ⟨outcome, w₁, hrun⟩ : ∃ outcome w₁, (delete space name).run w = (outcome, w₁) := ⟨_, _, rfl⟩
    have hsilent := printed_delete ⟨space, name⟩ w
    rw [deleteEach, Program.bind_eq, Program.exchanges_andThen, Program.run_andThen, hrun, List.filterMap_append, hsilent,
      List.nil_append]
    cases outcome with
    | ok u =>
      obtain ⟨outcomes, hrest, hkeys, hprinted⟩ := ih (w₁.answer (.print (deletedLine name))).2
      refine ⟨(⟨space, name⟩, .ok ()) :: outcomes, ?_, ?_, ?_⟩
      · exact @Deletions.deletion w w₁ _ ⟨space, name⟩ _ _ _ hrun (.note trivial rfl hrest)
      · rw [List.map_cons, List.map_cons, hkeys]
      · exact congrArg (deletedLine name :: ·) hprinted
    | error e =>
      let note : Request := .log .error ("Failed to delete " ++ name ++ ": " ++ e.message)
      obtain ⟨outcomes, hrest, hkeys, hprinted⟩ := ih (w₁.answer note).2
      have hafter : ((deleteEach space rest).andThen fun n => Program.done (n + 1)).exchanges (w₁.answer note).2 =
          (deleteEach space rest).exchanges (w₁.answer note).2 := by
        rw [Program.exchanges_andThen, Program.exchanges, List.append_nil]
      have hend : (((deleteEach space rest).andThen fun n => Program.done (n + 1)).run (w₁.answer note).2).2 =
          ((deleteEach space rest).run (w₁.answer note).2).2 := by
        rw [Program.run_andThen, Program.run_done]
      rw [← hafter, ← hend] at hrest
      rw [← hafter] at hprinted
      refine ⟨(⟨space, name⟩, .error e) :: outcomes, ?_, ?_, ?_⟩
      · exact @Deletions.deletion w w₁ _ ⟨space, name⟩ _ _ _ hrun (.note trivial rfl hrest)
      · rw [List.map_cons, List.map_cons, hkeys]
      · exact hprinted

/-! ## Pruned jobs -/

variable {jobs : List JobView} {names : List String}

/-- Jobs that are handled one after the other are deletions in turn, of which those succeed whose names are given. Nothing is printed. -/
theorem Handled.deletions (h : Handled w jobs names xs w') :
    ∃ outcomes, Deletions w outcomes xs w' ∧ outcomes.map (·.1) = jobs.map JobView.key ∧ succeeded outcomes = names ∧
      xs.filterMap Exchange.printed? = [] := by
  induction h with
  | none w => exact ⟨[], .none w, rfl, rfl, rfl⟩
  | @deleted w w₁ w' job rest names xs hjob _ ih =>
    obtain ⟨outcomes, hrest, hkeys, hnames, hprinted⟩ := ih
    refine ⟨(job.key, .ok ()) :: outcomes, @Deletions.deletion w w₁ _ job.key _ _ _ hjob hrest, ?_, ?_, ?_⟩
    · rw [List.map_cons, List.map_cons, hkeys]
    · rw [succeeded_cons_ok, hnames]
      rfl
    · rw [List.filterMap_append, hprinted, List.append_nil]
      exact printed_delete job.key w
  | @passedOver w w₁ w₂ w' job rest names xs hjob hnote _ ih =>
    obtain ⟨outcomes, hrest, hkeys, hnames, hprinted⟩ := ih
    refine ⟨(job.key, .error (.notFound job.workload.name)) :: outcomes,
      @Deletions.deletion w w₁ _ job.key _ _ _ hjob (.note trivial hnote hrest), ?_, ?_, ?_⟩
    · rw [List.map_cons, List.map_cons, hkeys]
    · rw [succeeded_cons_error, hnames]
    · rw [List.filterMap_append, List.filterMap_cons_none rfl, hprinted, List.append_nil]
      exact printed_delete job.key w

/-- A pruning makes deletions in turn, of first ones of its jobs, and prints nothing. If it succeeds it gives the names of those that
succeeded. -/
theorem PruningEnds.deletions {result : Except Failure (List String)} (h : PruningEnds w jobs xs result w') :
    ∃ outcomes, Deletions w outcomes xs w' ∧ outcomes.map (·.1) <+: jobs.map JobView.key ∧
      xs.filterMap Exchange.printed? = [] ∧ ∀ names, result = .ok names → succeeded outcomes = names := by
  cases h with
  | all hhandled =>
    obtain ⟨outcomes, hdeletions, hkeys, hnames, hprinted⟩ := Handled.deletions hhandled
    refine ⟨outcomes, hdeletions, hkeys ▸ List.prefix_refl _, hprinted, fun names heq => ?_⟩
    cases heq
    exact hnames
  | @failed before after job names xs w₁ w' e hjobs hhandled he _ =>
    obtain ⟨outcomes, hdeletions, hkeys, -, hprinted⟩ := Handled.deletions hhandled
    have hlast : Deletions w₁ [(job.key, .error e)] (job.deletion.exchanges w₁ ++ []) w' :=
      @Deletions.deletion w₁ w' _ job.key _ _ _ he (.none w')
    rw [List.append_nil] at hlast
    refine ⟨outcomes ++ [(job.key, .error e)], Deletions.append hdeletions hlast, ?_, ?_, nofun⟩
    · rw [hjobs, List.map_append, List.map_append, hkeys]
      exact (List.prefix_append_right_inj _).2 (List.prefix_append _ _)
    · rw [List.filterMap_append, hprinted, List.nil_append]
      exact printed_delete job.key w₁

/-- Lines are printed one after the other. -/
theorem printed_forM (lines : List String) (w : World) :
    Deletions w [] ((lines.forM Program.printLine).exchanges w) ((lines.forM Program.printLine).run w).2 ∧
      ((lines.forM Program.printLine).exchanges w).filterMap Exchange.printed? = lines.map (· ++ "\n") := by
  induction lines generalizing w with
  | nil => exact ⟨.none w, rfl⟩
  | cons line rest ih =>
    obtain ⟨hrest, hprinted⟩ := ih (w.answer (.print (line ++ "\n"))).2
    exact ⟨.note trivial rfl hrest, congrArg ((line ++ "\n") :: ·) hprinted⟩

theorem prunedLine_ne_noneLine (name : String) : prunedLine name ≠ noneLine := by
  intro h
  have hhead : (prunedLine name).toList.head? = noneLine.toList.head? := by rw [h]
  simp [prunedLine, noneLine, String.toList_append] at hhead

/-- Of the lines about pruned jobs, all but that there is none are reports. -/
theorem filter_pruned (names : List String) :
    ((pruned names).map (· ++ "\n")).filter (· ≠ noneLine) = names.map prunedLine := by
  have hreports : (names.map prunedLine).filter (· ≠ noneLine) = names.map prunedLine := by
    refine List.filter_eq_self.2 fun line hline => ?_
    obtain ⟨name, -, rfl⟩ := List.mem_map.1 hline
    exact decide_eq_true (prunedLine_ne_noneLine name)
  have hlines : (names.map fun name => "The job " ++ name ++ " has been pruned").map (· ++ "\n") = names.map prunedLine := by
    rw [List.map_map]
    rfl
  rw [pruned, List.map_append, hlines, List.filter_append, hreports]
  cases names <;> rfl

/-- What a pruning does behind its reading of the jobs. -/
theorem prune_deletions (cluster : Reading) (olderThan : Duration) (w : World) :
    ∃ outcomes xs, (prune cluster olderThan).exchanges w = cluster.exchanges w ++ xs ∧
      Deletions (cluster.run w).2 outcomes xs ((prune cluster olderThan).run w).2 ∧
      (∀ e, (cluster.run w).1 = .error e → outcomes = []) ∧
      (∀ s, (cluster.run w).1 = .ok s →
        outcomes.map (·.1) <+: (pruneCandidates (JobView.ofSnapshot s) s.takenAt olderThan).map JobView.key) ∧
      xs.filterMap Exchange.printed? = [] ∧
      ∀ names, ((prune cluster olderThan).run w).1 = .ok names → succeeded outcomes = names := by
  rw [prune, Program.bind_eq, Program.exchanges_andThen, Program.run_andThen]
  cases hread : (cluster.run w).1 with
  | error e =>
    refine ⟨[], [], rfl, .none _, fun _ _ => rfl, fun s hs => ?_, rfl, fun names hnames => ?_⟩
    · cases hs
    · cases hnames
  | ok s =>
    obtain ⟨outcomes, hdeletions, hkeys, hprinted, hnames⟩ := PruningEnds.deletions
      (pruneEach_ends (pruneCandidates (JobView.ofSnapshot s) s.takenAt olderThan) (cluster.run w).2)
    refine ⟨outcomes, _, rfl, hdeletions, fun e he => ?_, fun s' hs => ?_, hprinted, hnames⟩
    · cases he
    · cases hs
      exact hkeys

end ReportsAux

open Commands ReportsAux

/-- Both commands make deletions in turn. A deletion of named jobs makes one for each name and prints, whatever fails, the reports of those
that succeed and nothing else. A pruning makes those of first ones of its candidates, none if they cannot be read. It reports just the
deletions that succeed if it succeeds, or if there are none to report; otherwise some have been made that it does not report. -/
theorem deletions_reported_iff (w : World) :
    (∀ space names, ∃ outcomes,
      Deletions w outcomes ((deleteJobs space names).exchanges w) ((deleteJobs space names).run w).2 ∧
      outcomes.map (·.1) = names.map (⟨space, ·⟩) ∧
      ((deleteJobs space names).exchanges w).filterMap Exchange.printed? = (succeeded outcomes).map deletedLine) ∧
    ∀ (cluster : Reading) (olderThan : Duration), ∃ outcomes xs,
      (pruneJobs cluster olderThan).exchanges w = cluster.exchanges w ++ xs ∧
      Deletions (cluster.run w).2 outcomes xs ((pruneJobs cluster olderThan).run w).2 ∧
      (∀ e, (cluster.run w).1 = .error e → outcomes = []) ∧
      (∀ s, (cluster.run w).1 = .ok s →
        outcomes.map (·.1) <+: (pruneCandidates (JobView.ofSnapshot s) s.takenAt olderThan).map JobView.key) ∧
      ((xs.filterMap Exchange.printed?).filter (· ≠ noneLine) = (succeeded outcomes).map prunedLine ↔
        ((pruneJobs cluster olderThan).run w).1.isOk = true ∨ succeeded outcomes = []) := by
  refine ⟨fun space names => ?_, fun cluster olderThan => ?_⟩
  · obtain ⟨outcomes, hdeletions, hkeys, hprinted⟩ := deleteEach_reports space names w
    rw [deleteJobs, Program.bind_eq, Program.exchanges_andThen, Program.run_andThen]
    -- Behind the deletions there is only the result.
    have hcount : ∀ failures : Nat, ∃ result, (if failures > 0 then
        return .error (.of (toString failures ++ " of " ++ toString names.length ++ " jobs could not be deleted"))
        else return .ok () : Command) = .done result := by
      intro failures
      split
      · exact ⟨_, rfl⟩
      · exact ⟨_, rfl⟩
    obtain ⟨result, hresult⟩ := hcount ((deleteEach space names).run w).1
    rw [hresult, Program.exchanges, List.append_nil]
    exact ⟨outcomes, hdeletions, hkeys, hprinted⟩
  · obtain ⟨outcomes, xs, hxs, hdeletions, hunread, hkeys, hprinted, hnames⟩ := prune_deletions cluster olderThan w
    rw [pruneJobs, Program.bind_eq, Program.exchanges_andThen, Program.run_andThen, hxs]
    cases hresult : ((prune cluster olderThan).run w).1 with
    | error e =>
      refine ⟨outcomes, xs, List.append_nil _, hdeletions, hunread, hkeys, ?_⟩
      rw [hprinted, List.filter_nil, eq_comm, List.map_eq_nil_iff]
      constructor
      · exact .inr
      · rintro (hok | hnone)
        · cases hok
        · exact hnone
    | ok names =>
      obtain ⟨hlines, hsaid⟩ := printed_forM (pruned names) ((prune cluster olderThan).run w).2
      have hafter : (((pruned names).forM Program.printLine).andThen fun _ => Program.done (.ok () : Except Failure Unit)).exchanges
          ((prune cluster olderThan).run w).2 =
          ((pruned names).forM Program.printLine).exchanges ((prune cluster olderThan).run w).2 := by
        rw [Program.exchanges_andThen, Program.exchanges, List.append_nil]
      have hall := Deletions.append hdeletions hlines
      rw [List.append_nil] at hall
      dsimp only
      rw [Program.bind_eq, Program.pure_eq, hafter, Program.run_andThen, Program.run_done, List.append_assoc]
      refine ⟨outcomes, _, rfl, hall, hunread, hkeys, ?_⟩
      rw [List.filterMap_append, hprinted, List.nil_append, hsaid, filter_pruned, hnames names hresult]
      exact iff_of_true rfl (.inl rfl)

/-- The jobs of the snapshot are its candidates, the later one first. -/
theorem pruneCandidates_twoFinished :
    pruneCandidates (JobView.ofSnapshot twoFinished) twoFinished.takenAt ⟨3600 * Duration.secondNanos⟩ =
      [JobView.of laterJob [], JobView.of finishedJob []] := by
  rw [ofSnapshot_twoFinished]
  rfl

/-- A pruning of both jobs. -/
def twoPruned : Command := pruneJobs (pure (.ok twoFinished)) ⟨3600 * Duration.secondNanos⟩

theorem twoPruned_eq :
    twoPruned = (pruneEach [JobView.of laterJob [], JobView.of finishedJob []]).andThen fun names =>
      match names with
      | .error e => .done (.error e)
      | .ok names => ((pruned names).forM Program.printLine).andThen fun _ => .done (.ok ()) := by
  rw [← pruneCandidates_twoFinished]
  rfl

/-- Where only `job` was submitted, just its deletion succeeds, and it is reported. -/
theorem deletions_reported_of_two_finished :
    let w := World.calmWith recordedName
    (twoPruned.run w).1.isOk = true ∧ (twoPruned.run w).2.output = "The job job has been pruned\n" ∧
      ∃ outcomes, Deletions w outcomes (twoPruned.exchanges w) (twoPruned.run w).2 ∧
        outcomes.map (·.1) <+: [laterJob.key, finishedJob.key] ∧ succeeded outcomes = ["job"] ∧
        ((twoPruned.exchanges w).filterMap Exchange.printed?).filter (· ≠ noneLine) = (succeeded outcomes).map prunedLine := by
  intro w
  have hok : (twoPruned.run w).1.isOk = true := by
    rw [twoPruned_eq]
    rfl
  have houtput : (twoPruned.run w).2.output = "The job job has been pruned\n" := by
    rw [twoPruned_eq]
    rfl
  obtain ⟨outcomes, xs, hxs, hdeletions, -, hkeys, hreported⟩ :=
    (deletions_reported_iff w).2 (pure (.ok twoFinished)) ⟨3600 * Duration.secondNanos⟩
  have hprefix := hkeys twoFinished rfl
  rw [pruneCandidates_twoFinished] at hprefix
  have hexchanges : twoPruned.exchanges w = xs := hxs
  have hnames : succeeded outcomes = ["job"] := by
    rw [Deletions.succeeded_eq hdeletions, ← hexchanges, twoPruned_eq]
    rfl
  rw [hexchanges]
  exact ⟨hok, houtput, outcomes, hdeletions, hprefix, hnames, hreported.2 (.inl hok)⟩

/-- A world in which both jobs were submitted, and the second removal of a record is refused. -/
def refusedSecond : World :=
  let stored (name : String) : StoredMap :=
    ⟨(Record.candidate .job "team-a" 0).toConfigMap.withTexts (Lifecycle.texts "" "" ("kind: Job\nname: " ++ name ++ "\n")), 1⟩
  { server := { maps := .ofList [(finishedJob.key, stored "job"), (laterJob.key, stored "later")]
                faults := [{ verb := .delete, skip := 1 }] } }

/-- There a pruning deletes the later job and fails at the other one, and nothing is printed of the one that was deleted. -/
theorem deletions_reported_of_refused_second_false :
    (∃ outcomes, Deletions refusedSecond outcomes (twoPruned.exchanges refusedSecond) (twoPruned.run refusedSecond).2 ∧
        succeeded outcomes = ["later"]) ∧
      (twoPruned.exchanges refusedSecond).filterMap Exchange.printed? = [] ∧ (twoPruned.run refusedSecond).2.output = "" ∧
      refusedSecond.held laterJob.key ≠ none ∧ (twoPruned.run refusedSecond).2.held laterJob.key = none := by
  rw [twoPruned_eq]
  refine ⟨⟨[(laterJob.key, .ok ()), (finishedJob.key, .error (.registry (.api (.status 500))))], ?_, rfl⟩, ?_, ?_, ?_, ?_⟩
  · exact .deletion rfl (.deletion rfl (.none _))
  · rfl
  · rfl
  · nofun
  · rfl

end TrainingJobs

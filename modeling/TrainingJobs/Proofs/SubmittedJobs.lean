import TrainingJobs.Commands
import TrainingJobs.Proofs.TakingBack

/-!
# What a submission leaves behind

A submission that succeeds has stored the document that it answers and the manifest that was rendered from it, before that was applied
(`SubmittedJob`). The document has the number that was drawn, and without one it is what a dry run prints. The records of other jobs stay
as they are, with one exception (`submission_leaves_others_false`): a job can have the name of the counter, and its record then holds the
number of each later one. But for that text all of it stays too (`submission_leaves_what_it_reports`).
-/

namespace TrainingJobs

/-- The name `cli-index`, which is that of the counter. -/
def JobName.cliIndex : JobName := ⟨"cli-index", by decide, by decide, by decide⟩

/-- The record under a key holds some texts and no others. -/
def World.HoldsTexts (w : World) (key : ObjectKey) (texts : Labels) : Prop :=
  ∃ m, w.held key = some m ∧ m.map.data = some texts

namespace Lifecycle

/-- A submission that succeeded with some exchanges, a manifest and the outcome of drawing a number. It registered a name, drew a number
and launched; the document has that number, or none, and is then what a dry run prints. The installer was called twice, to render the
document and to apply what it had rendered; the record held that before, and holds it in the end. Nothing was written to but this record
and the counter, and at each step what lies under other keys stays, but for the value of the counter. -/
structure SubmittedJob (settings : LifecycleSettings) (request : SubmitRequest) (space : String) (w : World) (xs : List Exchange)
    (submission : Submission) (w' : World) (manifest : String) (number : Except JobIndexError Nat) : Prop where
  numbered : ∃ registering counting launching, xs = registering ++ (counting ++ launching) ∧
    (Registration.register settings.registrationRetries request.name space request.autoName).Yields registering
      (.ok submission.identity) ∧
    (JobIndex.next settings.systemSpace settings.indexRetries).Yields counting number
  document : ∃ values, request.values = .ok values ∧
    { values with jobIndex := number.toOption }.render? = some submission.values
  dryRun : (∃ e, number = .error e) →
    ∀ v : World, (Commands.dryRun request).run v = (.ok (), { v with output := v.output ++ submission.values })
  calls : ∃ text, xs.filterMap Exchange.call? =
    [(.render submission.identity.resolved space submission.values, .ok manifest), (.apply space manifest, .ok text)]
  storedFirst : ∃ before outcome w₁, xs = before ++ [applied space manifest outcome] ∧ w.Path before w₁ ∧
    w₁.HoldsTexts ⟨space, submission.identity.resolved⟩ (texts settings.chart submission.values manifest)
  stored : w'.HoldsTexts ⟨space, submission.identity.resolved⟩ (texts settings.chart submission.values manifest)
  writes : ∀ x ∈ xs, ∀ key, x.Writes key → key = ⟨space, submission.identity.resolved⟩ ∨ key = JobIndex.key settings.systemSpace
  others : ∀ key, key ≠ ⟨space, submission.identity.resolved⟩ →
    w.Steps (JobIndex.Keeps (JobIndex.key settings.systemSpace) key) xs

namespace SubmittedJobsAux

variable {settings : LifecycleSettings} {request : SubmitRequest} {space : String} {submission : Submission}
  {xs : List Exchange} {w w' : World}

/-- The exchanges of a submission that succeeds. -/
theorem submit_yields_ok (h : (submit settings request space).Yields xs (.ok submission)) :
    ∃ values registering counting number launching, request.values = .ok values ∧
      xs = registering ++ (counting ++ launching) ∧
      (Registration.register settings.registrationRetries request.name space request.autoName).Yields registering
        (.ok submission.identity) ∧
      (JobIndex.next settings.systemSpace settings.indexRetries).Yields counting number ∧
      { values with jobIndex := number.toOption }.render? = some submission.values ∧
      Launched settings.chart submission.identity space submission.values launching (.ok submission) := by
  cases hvalues : request.values with
  | error e =>
    unfold submit at h
    rw [hvalues] at h
    cases (Program.done_yields_iff.1 h).2
  | ok values =>
    obtain ⟨registering, registered, zs, rfl, hregister, hend⟩ := submit_yields_registration hvalues h
    obtain ⟨e, -, he⟩ | ⟨identity, counting, number, launching, rfl, rfl, hcount, hend⟩ := hend
    · cases he
    · obtain ⟨-, -, hcrashed⟩ | ⟨-, hfailed⟩ | ⟨text, htext, hlaunched⟩ := hend
      · cases hcrashed
      · cases hfailed
      · obtain rfl : submission = ⟨identity, text⟩ := by
          cases hlaunched
          rfl
        exact ⟨values, registering, counting, number, launching, rfl, rfl, hregister, hcount, htext, hlaunched⟩

/-- A launch that succeeds, of a record without texts: it renders, and applies what the record holds by then. -/
theorem launched_stored {chart values : String} {identity : JobIdentity} {m : StoredMap}
    (h : Launched chart identity space values xs (.ok submission)) (hp : w.Path xs w')
    (hm : w.held ⟨space, identity.resolved⟩ = some m) (hdata : m.map.data = none) :
    ∃ manifest text, xs.filterMap Exchange.call? =
        [(.render identity.resolved space values, .ok manifest), (.apply space manifest, .ok text)] ∧
      (∃ before w₁, xs = before ++ [applied space manifest (.ok text)] ∧ w.Path before w₁ ∧
        w₁.HoldsTexts ⟨space, identity.resolved⟩ (texts chart values manifest)) ∧
      w'.HoldsTexts ⟨space, identity.resolved⟩ (texts chart values manifest) := by
  cases h with
  | @started manifest text =>
    obtain ⟨w₁, hrender, hrest⟩ := World.path_cons_iff.1 hp
    obtain ⟨w₂, hpatch, hlast⟩ := World.path_cons_iff.1 hrest
    obtain ⟨w₃, happly, hend⟩ := World.path_cons_iff.1 hlast
    have hm₁ : w₁.held ⟨space, identity.resolved⟩ = some m := World.held_answer hrender not_false hm
    have hstored : w₂.HoldsTexts ⟨space, identity.resolved⟩ (texts chart values manifest) := by
      obtain ⟨e, he, -⟩ | ⟨-, old, version, hold, hheld⟩ := World.patchMap_cases hpatch
      · cases he
      · obtain rfl : m = old := Option.some.inj (hm₁.symm.trans hold)
        refine ⟨_, (hheld _).trans (if_pos rfl), ?_⟩
        exact ConfigMap.data_withTexts_of_none hdata _
    have hkept : w'.HoldsTexts ⟨space, identity.resolved⟩ (texts chart values manifest) := by
      obtain ⟨m₂, hm₂, htexts⟩ := hstored
      rw [World.path_nil_iff.1 hend]
      exact ⟨m₂, World.held_answer happly not_false hm₂, htexts⟩
    exact ⟨manifest, text, rfl, ⟨[_, _], w₂, rfl, .cons hrender (.cons hpatch (.nil w₂)), hstored⟩, hkept⟩

/-- Where nothing is written to a key, what is held there stays at each step. -/
theorem steps_of_not_writes {counter key : ObjectKey} (hp : w.Path xs w') (hx : ∀ x ∈ xs, ¬x.Writes key) :
    w.Steps (JobIndex.Keeps counter key) xs := by
  refine hp.steps fun x hmem v v' ha => ?_
  exact .of_held fun m hm => World.held_answer ha (hx x hmem) hm

/-- A dry run prints the document of values without a number. -/
theorem dryRun_run {values : ChartValues} {text : String} (hvalues : request.values = .ok values)
    (htext : { values with jobIndex := none }.render? = some text) (v : World) :
    (Commands.dryRun request).run v = (.ok (), { v with output := v.output ++ text }) := by
  have hsame : { values with jobIndex := none } = values := by
    rw [← jobIndex_of_values hvalues]
  rw [hsame] at htext
  rw [Commands.dryRun, hvalues]
  simp only [htext]
  rfl

end SubmittedJobsAux

open SubmittedJobsAux

/-- What a submission that succeeds leaves behind is what it answers and what a dry run shows, whatever the server, other clients and the
installer do, as long as the job does not get the name of the counter. -/
theorem submission_leaves_what_it_reports (settings : LifecycleSettings) (request : SubmitRequest) (space : String) (w : World)
    (submission : Submission) (hok : ((submit settings request space).run w).1 = .ok submission)
    (hname : (⟨space, submission.identity.resolved⟩ : ObjectKey) ≠ JobIndex.key settings.systemSpace) :
    ∃ manifest number, SubmittedJob settings request space w ((submit settings request space).exchanges w) submission
      ((submit settings request space).run w).2 manifest number := by
  have hp : w.Path ((submit settings request space).exchanges w) ((submit settings request space).run w).2 := Program.run_path _ w
  have hyields : (submit settings request space).Yields ((submit settings request space).exchanges w) (.ok submission) :=
    hok ▸ Program.run_yields _ w
  generalize ((submit settings request space).run w).2 = w' at hp ⊢
  generalize (submit settings request space).exchanges w = xs at hp hyields ⊢
  obtain ⟨values, registering, counting, number, launching, hvalues, rfl, hregister, hcount, htext, hlaunched⟩ :=
    submit_yields_ok hyields
  have hcounted := JobIndex.next_yields hcount
  obtain ⟨registered, record, hregistering, hvain, hkey, -, hbare⟩ := register_yields_ok hregister
  obtain ⟨w₁, hpath₁, hrest⟩ := World.path_append_iff.1 hp
  obtain ⟨w₂, hcounting, hlaunching⟩ := World.path_append_iff.1 hrest
  -- The record holds no texts when the launch begins: drawing a number has not written to it.
  obtain ⟨m, hm, hmap⟩ := held_stored (hregistering ▸ hpath₁)
  rw [hkey] at hm
  have hm₂ : w₂.held ⟨space, submission.identity.resolved⟩ = some m :=
    hcounting.held (fun x hx hw => hname (hcounted.writes hx hw)) hm
  obtain ⟨manifest, text, hcalls, ⟨before, w₃, hsplit, hbefore, hheld⟩, hstored⟩ :=
    launched_stored hlaunched hlaunching hm₂ (hmap ▸ hbare)
  have hwrites : ∀ x ∈ launching, ∀ key, x.Writes key → key = record.key := fun x hx key hw => by
    rw [hkey]
    exact hlaunched.writes hx hw
  have hall : registering ++ (counting ++ launching) = registered ++ record.stored :: (counting ++ launching) := by
    rw [hregistering, List.append_assoc, List.singleton_append]
  exact ⟨manifest, number, {
    numbered := ⟨registering, counting, launching, rfl, hregister, hcount⟩
    document := ⟨values, hvalues, htext⟩
    dryRun := by
      rintro ⟨e, rfl⟩
      exact dryRun_run hvalues htext
    calls := by
      rw [hall, filterMap_call?_registered hvain hcounted]
      exact ⟨text, hcalls⟩
    storedFirst := by
      refine ⟨registering ++ (counting ++ before), .ok text, w₃, ?_, ?_, hheld⟩
      · rw [hsplit, List.append_assoc, List.append_assoc]
      · exact World.path_append_iff.2 ⟨w₁, hpath₁, World.path_append_iff.2 ⟨w₂, hcounting, hbefore⟩⟩
    stored := hstored
    writes := fun x hx key hw => by
      rw [hall] at hx
      rw [← hkey]
      exact writes_registered hvain hcounted (fun y hy => hwrites y hy key) hx hw
    others := fun key hne => by
      refine (World.steps_append_iff hpath₁).2 ⟨?_, (World.steps_append_iff hcounting).2 ⟨hcounted.steps hcounting, ?_⟩⟩
      · refine steps_of_not_writes hpath₁ fun x hx hw => ?_
        rw [hregistering] at hx
        rcases List.mem_append.1 hx with hx | hx
        · exact (hvain x hx).not_writes key hw
        · rw [List.mem_singleton.1 hx] at hw
          exact hne (hw.symm.trans hkey)
      · exact steps_of_not_writes hlaunching fun x hx hw => hne (hlaunched.writes hx hw) }⟩

/-- A world whose installer renders, and in which the counter cannot be read. -/
def uncounted : World :=
  { server := { faults := [{ verb := .get }] }
    installer := fun _ call =>
      match call with
      | .render _ _ _ => .ok "kind: Job"
      | _ => .ok "" }

/-- The document that a job is submitted with there. -/
def uncountedDocument : String := "image: ubuntu\nproject: team-a\ninteractive: false\n"

/-- A job is submitted there without a number. -/
theorem submission_leaves_what_it_reports_of_uncounted :
    let program := submit {} plainRequest "team-a"
    (program.run uncounted).1 = .ok ⟨⟨.job, "job", 0⟩, uncountedDocument⟩ ∧
      (⟨"team-a", "job"⟩ : ObjectKey) ≠ JobIndex.key "runai" ∧
      ∃ manifest number, SubmittedJob {} plainRequest "team-a" uncounted (program.exchanges uncounted)
        ⟨⟨.job, "job", 0⟩, uncountedDocument⟩ (program.run uncounted).2 manifest number := by
  intro program
  have hok : (program.run uncounted).1 = .ok ⟨⟨.job, "job", 0⟩, uncountedDocument⟩ := by rfl
  have hname : (⟨"team-a", "job"⟩ : ObjectKey) ≠ JobIndex.key "runai" := by decide
  exact ⟨hok, hname, submission_leaves_what_it_reports {} plainRequest "team-a" uncounted _ hok hname⟩

/-- A request for a job with the name of the counter. -/
def counterRequest : SubmitRequest := { plainRequest with name := .cliIndex }

/-- A world in which that job was submitted to the namespace of the counter. -/
def jobUnderCounter : World := ((submit {} counterRequest "runai").run {}).2

/-- The text of the counter in what lies under its key. -/
def countText (w : World) : Option String := (w.held (JobIndex.key "runai")).bind (·.map.text? JobIndex.textName)

/-- The records of other jobs do not all stay as they are. With a job under the name of the counter, a job of another name that is
submitted to another namespace changes the record of the first one. -/
theorem submission_leaves_others_false :
    (∃ first, ((submit {} counterRequest "runai").run {}).1 = .ok first ∧ first.identity.resolved = "cli-index") ∧
      (∃ m, jobUnderCounter.held (JobIndex.key "runai") = some m ∧ m.map.Managed) ∧
      ∃ submission, ((submit {} plainRequest "team-a").run jobUnderCounter).1 = .ok submission ∧
        (⟨"team-a", submission.identity.resolved⟩ : ObjectKey) ≠ JobIndex.key "runai" ∧
        countText jobUnderCounter = some "1" ∧
        countText ((submit {} plainRequest "team-a").run jobUnderCounter).2 = some "2" := by
  refine ⟨⟨_, rfl, rfl⟩, ⟨_, rfl, ?_⟩, _, rfl, ?_, rfl, rfl⟩
  · decide
  · decide

end Lifecycle

end TrainingJobs

import TrainingJobs.Proofs.CounterSteps
import TrainingJobs.Proofs.Orphans
import TrainingJobs.Proofs.Undisturbed
import TrainingJobs.Proofs.Undoing

/-!
# Deleting takes a submission back

A submission that succeeds leaves a record with the manifest that was applied, and a deletion finds it there, uninstalls it and takes
the record away. All that is left behind is the counter: an old one keeps its labels and a new one has none (`KeptBut`), so a
registration finds the names and the numbers of families that it found before (`Registration.register_again`). Together these say
that a job which is deleted was never there (`delete_takes_back_submit`).
-/

namespace TrainingJobs

/-- The labels of the config map under a key. -/
def World.labels? (w : World) (key : ObjectKey) : Option Labels := (w.held key).bind (·.map.labels)

namespace TakingBackAux

open JobIndex Lifecycle

/-- All but one key is left as it was. Only the counter may have moved or be there for the first time; it has no label more. -/
structure KeptBut (system : String) (key : ObjectKey) (w w' : World) : Prop where
  held : ∀ k, k ≠ key → k ≠ JobIndex.key system → w'.held k = w.held k
  taken : ∀ k, k ≠ key → w.held k ≠ none → w'.held k ≠ none
  labels : ∀ k, k ≠ key → w'.labels? k = w.labels? k

variable {system space : String} {key : ObjectKey} {w w' w'' : World} {xs : List Exchange}

theorem KeptBut.trans (h : KeptBut system key w w') (h' : KeptBut system key w' w'') : KeptBut system key w w'' where
  held k hk hsystem := (h'.held k hk hsystem).trans (h.held k hk hsystem)
  taken k hk htaken := h'.taken k hk (h.taken k hk htaken)
  labels k hk := (h'.labels k hk).trans (h.labels k hk)

/-- Where nothing else is written to, all but one key is left as it was. -/
theorem KeptBut.of_held (h : ∀ k, k ≠ key → w'.held k = w.held k) : KeptBut system key w w' where
  held k hk _ := h k hk
  taken k hk htaken := by rwa [h k hk]
  labels k hk := by rw [World.labels?, World.labels?, h k hk]

/-! ## The counter -/

/-- An attempt at the counter changes no labels. -/
theorem labels_attempted (h : Attempted space xs) (hw : w.Quiet) (hp : w.Path xs w') (k : ObjectKey) :
    w'.labels? k = w.labels? k := by
  by_cases hk : k = JobIndex.key space
  · subst hk
    cases h with
    | unread e =>
      obtain ⟨w₁, hget, -⟩ := World.path_cons_iff.1 hp
      rw [hw.answer_getMap] at hget
      cases hget
    | created reply =>
      obtain ⟨w₁, hget, hrest⟩ := World.path_cons_iff.1 hp
      obtain ⟨w₂, hcreate, hend⟩ := World.path_cons_iff.1 hrest
      rw [hw.answer_getMap] at hget
      obtain ⟨hnone, rfl⟩ := Prod.mk.inj hget
      rw [World.path_nil_iff.1 hend]
      cases reply with
      | error e => rw [hw.eq_of_inVain hcreate trivial]
      | ok u =>
        obtain ⟨-, ⟨e, he⟩ | ⟨-, -, version, hheld⟩⟩ := World.createMap_cases hcreate
        · cases he
        · -- The counter is created without labels.
          rw [World.labels?, World.labels?, hheld, Except.ok.inj hnone]
          rfl
    | stuck found hnone =>
      obtain ⟨w₁, hget, hend⟩ := World.path_cons_iff.1 hp
      rw [World.path_nil_iff.1 hend, World.labels?, World.labels?, (World.getMap_cases hget).1]
    | moved found reply hnext =>
      obtain ⟨w₁, hget, hrest⟩ := World.path_cons_iff.1 hp
      obtain ⟨w₂, hreplace, hend⟩ := World.path_cons_iff.1 hrest
      rw [hw.answer_getMap] at hget
      obtain ⟨hfound, rfl⟩ := Prod.mk.inj hget
      rw [World.path_nil_iff.1 hend]
      obtain ⟨e, -, hheld⟩ | ⟨-, -, v, hheld⟩ := World.replaceMap_cases hreplace
      · rw [World.labels?, World.labels?, hheld]
      · rw [World.labels?, World.labels?, hheld, if_pos rfl, Except.ok.inj hfound]
        rfl
  · have hsilent : ∀ x ∈ xs, ¬x.Writes k := by
      intro x hx hwrites
      have hc : Counted space xs := by
        rw [← List.append_nil xs]
        exact .attempt h .nil
      exact hk (hc.writes hx hwrites)
    rw [World.labels?, World.labels?, (hp.quiet hw).2 k hsilent]

/-- Drawing a number moves the counter, and leaves all else as it was. -/
theorem keptBut_counted (h : Counted system xs) (hw : w.Quiet) (hp : w.Path xs w') : KeptBut system key w w' where
  held k _ hsystem := (hp.quiet hw).2 k fun _ hx hwrites => hsystem (h.writes hx hwrites)
  taken k _ htaken := by
    obtain ⟨m, hm⟩ := Option.ne_none_iff_exists'.1 htaken
    obtain ⟨m', hm', -⟩ := h.path hp hm
    rw [hm']
    exact Option.some_ne_none m'
  labels k _ := by
    induction h generalizing w with
    | nil => rw [World.path_nil_iff.1 hp]
    | attempt ha _ ih =>
      obtain ⟨w₁, hattempt, hrest⟩ := World.path_append_iff.1 hp
      rw [ih (hattempt.quiet hw).1 hrest, labels_attempted ha hw hattempt]

/-! ## Registering anew -/

/-- Which numbers of a family are carried is told by labels. -/
theorem carries_of_labels {family : String} {index : Nat} (h : ∀ k, w'.labels? k = w.labels? k)
    (hc : w'.server.Carries space family index) : w.server.Carries space family index := by
  obtain ⟨name, stored', hheld', hfamily, hindex⟩ := hc
  obtain ⟨labels, hlabels, hget⟩ := Option.bind_eq_some_iff.1 hfamily
  have hsame := h ⟨space, name⟩
  have hthere : w'.labels? ⟨space, name⟩ = some labels := by
    rw [World.labels?, World.held, hheld']
    exact hlabels
  rw [hthere] at hsame
  obtain ⟨stored, hheld, hlabels'⟩ := Option.bind_eq_some_iff.1 hsame.symm
  refine ⟨name, stored, hheld, ?_, ?_⟩
  · rw [ConfigMap.label?, hlabels', ← hlabels]
    exact hfamily
  · rw [← hindex, Record.ofConfigMap, Record.ofConfigMap, hlabels', hlabels]
    rfl

/-- The first number that a family does not use is told by labels. -/
theorem firstUnused_of_labels {family : String} {index : Nat} (h : ∀ k, w'.labels? k = w.labels? k)
    (hi : w.server.FirstUnused space family index) : w'.server.FirstUnused space family index where
  positive := hi.positive
  unused hc := hi.unused (carries_of_labels h hc)
  first j hj hlt := carries_of_labels (fun k => (h k).symm) (hi.first j hj hlt)

end TakingBackAux

namespace Registration

variable {w w' : World} {requested : JobName} {space : String}

open TakingBackAux in
/-- A name that was granted is granted again, with its number, when it is free again and all else is taken as before under the
same labels. -/
theorem register_again {retries : Nat} {autoName : Bool} {identity : JobIdentity} (hw : w.Quiet) (hw' : w'.Quiet)
    (h : ((register retries requested space autoName).run w).1 = .ok identity)
    (hfree : w'.held ⟨space, identity.resolved⟩ = none)
    (htaken : ∀ k, k ≠ ⟨space, identity.resolved⟩ → w.held k ≠ none → w'.held k ≠ none)
    (hlabels : ∀ k, w'.labels? k = w.labels? k) :
    ((register retries requested space autoName).run w').1 = .ok identity := by
  cases autoName with
  | false =>
    have hyields := (register retries requested space false).run_yields
    have hresult := register_plain_result (hw.register_answers _ _ _ _) (hyields w)
    have hresult' := register_plain_result (hw'.register_answers _ _ _ _) (hyields w')
    rw [h] at hresult
    split at hresult
    · cases hresult
      exact hresult'.trans (if_pos hfree)
    · cases hresult
  | true =>
    have hyields := (register retries requested space true).run_yields
    obtain ⟨index, hindex⟩ : ∃ index, w.server.FirstUnused space requested.text index :=
      ⟨_, w.server.firstUnused_smallestUnoccupiedIndex space requested.text⟩
    have hindex' := firstUnused_of_labels hlabels hindex
    have hresult := register_result (hw.register_answers _ _ _ _) hindex (hyields w)
    have hresult' := register_result (hw'.register_answers _ _ _ _) hindex' (hyields w')
    rw [h] at hresult
    split at hresult
    · cases hresult
      exact hresult'.trans (if_pos hfree)
    · rename_i hbare
      split at hresult
      · rename_i hnumbered
        cases hresult
        -- The name itself was taken and the numbered one was free: they are not the same.
        have hne : (⟨space, requested.text⟩ : ObjectKey) ≠ ⟨space, candidateName requested.text index⟩ := by
          intro heq
          rw [heq] at hbare
          exact hbare hnumbered.2
        exact hresult'.trans ((if_neg (htaken _ hne hbare)).trans (if_pos ⟨hnumbered.1, hfree⟩))
      · cases hresult

end Registration

namespace Lifecycle

open TakingBackAux OrphansAux

variable {w w' : World} {xs : List Exchange} {settings : LifecycleSettings} {request : SubmitRequest} {space name : String}
  {values : ChartValues} {result : Except LifecycleError Submission}

/-! ## Submitting -/

/-- The values of a request have no number yet. -/
theorem jobIndex_of_values (h : request.values = .ok values) : values.jobIndex = none := by
  simp only [SubmitRequest.values, bind, Except.bind] at h
  repeat' split at h
  all_goals cases h
  rfl

/-- The exchanges of a submission whose request is not refused are those of the registration and, where a name is granted, those
in which a number is drawn and those of the launch, unless the program crashes before or the values cannot be written. -/
theorem submit_yields_registration (hvalues : request.values = .ok values)
    (h : (submit settings request space).Yields xs result) :
    ∃ ys registered zs, xs = ys ++ zs ∧
      (Registration.register settings.registrationRetries request.name space request.autoName).Yields ys registered ∧
      ((∃ e, registered = .error e ∧ result = .error (.registration e)) ∨
        ∃ identity counting number launching, registered = .ok identity ∧ zs = counting ++ launching ∧
          (JobIndex.next settings.systemSpace settings.indexRetries).Yields counting number ∧
          ((number = .error .crashed ∧ launching = [] ∧ result = .error .crashed) ∨
            ({ values with jobIndex := number.toOption }.render? = none ∧ result = .error .unwritableValues) ∨
            ∃ text, { values with jobIndex := number.toOption }.render? = some text ∧
              Launched settings.chart identity space text launching result)) := by
  unfold submit at h
  rw [hvalues] at h
  obtain ⟨ys, registered, zs, hregister, hrest, rfl⟩ := Program.andThen_yields_iff.1 h
  refine ⟨ys, registered, zs, rfl, hregister, ?_⟩
  cases registered with
  | error e => exact .inl ⟨e, rfl, (Program.done_yields_iff.1 hrest).2⟩
  | ok identity =>
    obtain ⟨counting, number, launching, hcount, hafter, rfl⟩ := Program.andThen_yields_iff.1 hrest
    refine .inr ⟨identity, counting, number, launching, rfl, rfl, hcount, ?_⟩
    split at hafter
    · obtain ⟨rfl, rfl⟩ := Program.done_yields_iff.1 hafter
      exact .inl ⟨rfl, rfl, rfl⟩
    · rw [jobIndex_of_values hvalues, Option.or_none] at hafter
      dsimp only at hafter
      cases htext : { values with jobIndex := number.toOption }.render? with
      | none =>
        rw [htext] at hafter
        exact .inr (.inl ⟨rfl, (Program.done_yields_iff.1 hafter).2⟩)
      | some text =>
        rw [htext] at hafter
        exact .inr (.inr ⟨text, rfl, launch_yields hafter⟩)

/-- A name is granted by a record of its own, without texts, and all requests before are in vain. -/
theorem register_yields_ok {retries : Nat} {requested : JobName} {autoName : Bool} {identity : JobIdentity}
    (h : (Registration.register retries requested space autoName).Yields xs (.ok identity)) :
    ∃ (before : List Exchange) (record : Record), xs = before ++ [record.stored] ∧ (∀ x ∈ before, Registration.InVain x) ∧
      record.key = ⟨space, identity.resolved⟩ ∧ record.identity requested = identity ∧ record.toConfigMap.data = none := by
  obtain ⟨⟨e, he⟩, -⟩ | ⟨before, index, rfl, hvain, hgranted⟩ := Registration.register_yields h
  · cases he
  · cases hgranted
    exact ⟨before, _, rfl, hvain, rfl, rfl, rfl⟩

/-- The record that a name was granted by is held where it was stored. -/
theorem held_stored {before : List Exchange} {record : Record} (hp : w.Path (before ++ [record.stored]) w') :
    ∃ m, w'.held record.key = some m ∧ m.map = record.toConfigMap := by
  obtain ⟨w₁, -, hlast⟩ := World.path_append_iff.1 hp
  obtain ⟨w₂, hstored, hend⟩ := World.path_cons_iff.1 hlast
  rw [World.path_nil_iff.1 hend]
  obtain ⟨-, ⟨e, he⟩ | ⟨-, -, version, hheld⟩⟩ := World.createMap_cases hstored
  · cases he
  · exact ⟨_, hheld, rfl⟩

/-- What a registration that was granted a name has done: the key of the name was free and is taken, and all else is as it was. -/
theorem path_granted {retries : Nat} {requested : JobName} {autoName : Bool} {identity : JobIdentity} (hw : w.Quiet)
    (h : (Registration.register retries requested space autoName).Yields xs (.ok identity)) (hp : w.Path xs w') :
    w.held ⟨space, identity.resolved⟩ = none ∧ w'.held ⟨space, identity.resolved⟩ ≠ none ∧ w'.calls = w.calls ∧
      ∀ k, k ≠ ⟨space, identity.resolved⟩ → w'.held k = w.held k := by
  obtain ⟨before, record, rfl, hvain, hkey, -⟩ := register_yields_ok h
  rw [← hkey]
  obtain ⟨hfree, w₁, -, htaken, hend⟩ := path_registered hvain hp
  have hcalls : (before ++ [record.stored]).filterMap Exchange.call? = [] := by
    rw [List.filterMap_append, Registration.filterMap_call?_of_inVain hvain]
    rfl
  refine ⟨hfree, ?_, ?_, fun k hk => ?_⟩
  · rw [World.path_nil_iff.1 hend]
    exact htaken
  · rw [hp.calls, hcalls, List.map_nil, List.append_nil]
  · refine (hp.quiet hw).2 k fun x hx hwrites => ?_
    rcases List.mem_append.1 hx with hx | hx
    · exact (hvain x hx).not_writes k hwrites
    · rw [List.mem_singleton.1 hx] at hwrites
      exact hk (Eq.symm hwrites)

/-- A name that is granted does not move the counter: under the name of the counter itself the record has no number yet. -/
theorem counter_granted {retries : Nat} {requested : JobName} {autoName : Bool} {identity : JobIdentity} (hw : w.Quiet)
    (h : (Registration.register retries requested space autoName).Yields xs (.ok identity)) (hp : w.Path xs w')
    (system : String) : w'.counter system = w.counter system := by
  obtain ⟨hfree, -, -, hothers⟩ := path_granted hw h hp
  by_cases hk : JobIndex.key system = ⟨space, identity.resolved⟩
  · obtain ⟨before, record, rfl, -, hkey, -, hbare⟩ := register_yields_ok h
    obtain ⟨m, hm, hmap⟩ := held_stored hp
    have hdata : m.map.data = none := hmap ▸ hbare
    rw [hkey, ← hk] at hm
    rw [← hk] at hfree
    rw [JobIndex.counter_of_held_some hm, World.counter, hfree]
    simp [JobIndex.stored, ConfigMap.text?, hdata]
  · rw [World.counter, hothers _ hk, ← World.counter]

/-- What a submission has done before its launch: the key of the name was free and is taken, the installer is not called, and all
else is as it was but for the counter. -/
theorem path_numbered {retries : Nat} {requested : JobName} {autoName : Bool} {identity : JobIdentity}
    {system : String} {ys counting : List Exchange} {w₁ w₂ : World} (hw : w.Quiet)
    (hregister : (Registration.register retries requested space autoName).Yields ys (.ok identity))
    (hregistering : w.Path ys w₁) (hcounted : JobIndex.Counted system counting) (hcounting : w₁.Path counting w₂) :
    w₂.Quiet ∧ w.held ⟨space, identity.resolved⟩ = none ∧ w₂.held ⟨space, identity.resolved⟩ ≠ none ∧
      w₂.calls = w.calls ∧ KeptBut system ⟨space, identity.resolved⟩ w w₂ := by
  have hw₁ := (hregistering.quiet hw).1
  obtain ⟨hfree, htaken, hcalls₁, hothers₁⟩ := path_granted hw hregister hregistering
  obtain ⟨m, hm⟩ := Option.ne_none_iff_exists'.1 htaken
  obtain ⟨m', hm', -⟩ := hcounted.path hcounting hm
  refine ⟨(hcounting.quiet hw₁).1, hfree, ?_, ?_, (KeptBut.of_held hothers₁).trans (keptBut_counted hcounted hw₁ hcounting)⟩
  · rw [hm']
    exact Option.some_ne_none m'
  · rw [hcounting.calls, hcounted.filterMap_call?, List.map_nil, List.append_nil, hcalls₁]

/-- Whether values can be written does not depend on the number of the job. -/
theorem render?_ne_none_of_number {number : Option Nat} {text : String}
    (h : { values with jobIndex := number }.render? = some text) (number' : Option Nat) :
    { values with jobIndex := number' }.render? ≠ none := by
  intro hnone
  have hunwritable := (ChartValues.render?_eq_none_iff _).1 hnone
  have hnone' : { values with jobIndex := number }.render? = none := (ChartValues.render?_eq_none_iff _).2 hunwritable
  rw [h] at hnone'
  cases hnone'

/-- A launch that succeeds has rendered and applied one manifest, which the record holds; all other keys are as they were. -/
theorem launched_ok {chart text : String} {identity : JobIdentity} {submission : Submission} (hw : w.Quiet)
    (h : Launched chart identity space text xs (.ok submission)) (hp : w.Path xs w') :
    submission = ⟨identity, text⟩ ∧ (∃ manifest, w'.manifest? ⟨space, identity.resolved⟩ = some manifest ∧
      w'.calls = w.calls ++ [.render identity.resolved space text, .apply space manifest]) ∧
      ∀ k, k ≠ ⟨space, identity.resolved⟩ → w'.held k = w.held k := by
  have hothers : ∀ k, k ≠ ⟨space, identity.resolved⟩ → w'.held k = w.held k :=
    fun k hk => (hp.quiet hw).2 k fun x hx hwrites => hk (h.writes hx hwrites)
  have hcalls := hp.calls
  cases h with
  | @started manifest outcome =>
    obtain ⟨w₁, -, hrest⟩ := World.path_cons_iff.1 hp
    obtain ⟨w₂, hpatch, hlast⟩ := World.path_cons_iff.1 hrest
    refine ⟨rfl, ⟨manifest, ?_, hcalls⟩, hothers⟩
    refine manifest?_path hlast (fun x hx => ?_) (manifest?_populated hpatch)
    rw [List.mem_singleton.1 hx]
    exact not_false

/-- A launch with its record in place renders the job of its name. It succeeds or the installer fails. -/
theorem launched_of_held {chart text : String} {identity : JobIdentity} (hw : w.Quiet)
    (hheld : w.held ⟨space, identity.resolved⟩ ≠ none) (h : Launched chart identity space text xs result)
    (hp : w.Path xs w') :
    (∃ later, w'.calls = w.calls ++ .render identity.resolved space text :: later) ∧
      (result = .ok ⟨identity, text⟩ ∨ ∃ e, result = .error (.install e)) := by
  have hcalls := hp.calls
  cases h with
  | unrendered _ => exact ⟨⟨_, hcalls⟩, .inr ⟨_, rfl⟩⟩
  | unstored _ =>
    -- The texts of the record can be set, since it is there.
    obtain ⟨w₁, hrender, hrest⟩ := World.path_cons_iff.1 hp
    obtain ⟨w₂, hpatch, -⟩ := World.path_cons_iff.1 hrest
    obtain ⟨hw₁, hsame⟩ := hw.step hrender
    obtain ⟨m, hm⟩ := Option.ne_none_iff_exists'.1 hheld
    rw [← hsame _ not_false] at hm
    rw [hw₁.answer_patchMap _ hm] at hpatch
    cases hpatch
  | unapplied _ _ => exact ⟨⟨_, hcalls⟩, .inr ⟨_, rfl⟩⟩
  | started => exact ⟨⟨_, hcalls⟩, .inl rfl⟩

/-- A submission that succeeds in a quiet world. -/
theorem submit_ok {submission : Submission} (hw : w.Quiet)
    (h : (submit settings request space).Yields xs (.ok submission)) (hp : w.Path xs w') :
    (∃ values, request.values = .ok values ∧ ∀ number, { values with jobIndex := number }.render? ≠ none) ∧
      ((Registration.register settings.registrationRetries request.name space request.autoName).run w).1 =
        .ok submission.identity ∧
      w.held ⟨space, submission.identity.resolved⟩ = none ∧
      (∃ manifest, w'.manifest? ⟨space, submission.identity.resolved⟩ = some manifest ∧
        w'.calls = w.calls ++ [.render submission.identity.resolved space submission.values, .apply space manifest]) ∧
      KeptBut settings.systemSpace ⟨space, submission.identity.resolved⟩ w w' := by
  cases hvalues : request.values with
  | error e =>
    unfold submit at h
    rw [hvalues] at h
    cases (Program.done_yields_iff.1 h).2
  | ok values =>
    obtain ⟨ys, registered, zs, rfl, hregister, hend⟩ := submit_yields_registration hvalues h
    obtain ⟨e, -, he⟩ | ⟨identity, counting, number, launching, rfl, rfl, hcount, hend⟩ := hend
    · cases he
    · have hcounted := JobIndex.next_yields hcount
      obtain ⟨-, -, hcrashed⟩ | ⟨-, hfailed⟩ | ⟨text, htext, hlaunched⟩ := hend
      · cases hcrashed
      · cases hfailed
      · obtain ⟨w₁, hregistering, hrest⟩ := World.path_append_iff.1 hp
        obtain ⟨w₂, hcounting, hlaunching⟩ := World.path_append_iff.1 hrest
        obtain ⟨hw₂, hfree, -, hcalls₂, hkept⟩ := path_numbered hw hregister hregistering hcounted hcounting
        obtain ⟨rfl, ⟨manifest, hmanifest, hcalls⟩, hothers⟩ := launched_ok hw₂ hlaunched hlaunching
        rw [hcalls₂] at hcalls
        refine ⟨⟨values, rfl, render?_ne_none_of_number htext⟩, ?_, hfree, ⟨manifest, hmanifest, hcalls⟩,
          hkept.trans (.of_held hothers)⟩
        rw [Program.run_of_yields hregister hregistering]

/-- A submission in a quiet world that is granted a name and whose values can be written stores the record of that name and renders
its job. It succeeds with that name or the installer fails, unless the counter has its greatest value and the program crashes. -/
theorem submit_of_granted {identity : JobIdentity} (hw : w.Quiet) (hvalues : request.values = .ok values)
    (hwritable : ∀ number, { values with jobIndex := number }.render? ≠ none)
    (hgranted : ((Registration.register settings.registrationRetries request.name space request.autoName).run w).1 =
      .ok identity)
    (h : (submit settings request space).Yields xs result) (hp : w.Path xs w') :
    (∃ record : Record, record.stored ∈ xs ∧ record.key = ⟨space, identity.resolved⟩ ∧
        record.identity request.name = identity) ∧
      ((result = .error .crashed ∧ w.counter settings.systemSpace + 1 = JobIndex.modulus) ∨
        (∃ text later, w'.calls = w.calls ++ .render identity.resolved space text :: later) ∧
          ((∃ submission, result = .ok submission ∧ submission.identity = identity) ∨ ∃ e, result = .error (.install e))) := by
  obtain ⟨ys, registered, zs, rfl, hregister, hend⟩ := submit_yields_registration hvalues h
  obtain ⟨w₁, hregistering, hrest⟩ := World.path_append_iff.1 hp
  rw [Program.run_of_yields hregister hregistering] at hgranted
  obtain ⟨e, he, -⟩ | ⟨_, counting, number, launching, hidentity, rfl, hcount, hend⟩ := hend
  · rw [he] at hgranted
    cases hgranted
  · rw [hidentity] at hgranted hregister
    cases hgranted
    have hcounted := JobIndex.next_yields hcount
    obtain ⟨before, record, hys, -, hkey, hrecord, -⟩ := register_yields_ok hregister
    refine ⟨⟨record, by simp [hys], hkey, hrecord⟩, ?_⟩
    obtain ⟨w₂, hcounting, hlaunching⟩ := World.path_append_iff.1 hrest
    obtain ⟨hnumber, -, hresult⟩ | ⟨hnone, -⟩ | ⟨text, -, hlaunched⟩ := hend
    · have hquiet := (hregistering.quiet hw).1
      have hrun := Program.run_of_yields hcount hcounting
      rw [hnumber] at hrun
      have hgreatest := (JobIndex.draws ⟨hquiet.races, hquiet.racing⟩ settings.indexRetries).crashed (congrArg Prod.fst hrun)
      rw [counter_granted hw hregister hregistering] at hgreatest
      exact .inl ⟨hresult, hgreatest⟩
    · exact absurd hnone (hwritable number.toOption)
    · obtain ⟨hw₂, -, htaken, hcalls₂, -⟩ := path_numbered hw hregister hregistering hcounted hcounting
      obtain ⟨⟨later, hcalls⟩, hresult⟩ := launched_of_held hw₂ htaken hlaunched hlaunching
      rw [hcalls₂] at hcalls
      refine .inr ⟨⟨text, later, hcalls⟩, ?_⟩
      rcases hresult with rfl | hfailed
      · exact .inl ⟨_, rfl, rfl⟩
      · exact .inr hfailed

/-! ## Deleting -/

/-- No call of the installer among some exchanges has failed. -/
def Installs (xs : List Exchange) : Prop := ∀ x ∈ xs, ∀ call e, x.call? ≠ some (call, .error e)

/-- A deletion that finds a manifest and meets no failure succeeds. -/
theorem delete_yields_removed {found : StoredMap} {manifest : String} (text : String)
    (htext : found.map.text? manifestText = some manifest) :
    (delete space name).Yields [⟨.getMap ⟨space, name⟩, .ok (some found)⟩, uninstalled space manifest (.ok text),
      ⟨.deleteMap ⟨space, name⟩, .ok ()⟩] (.ok ()) := by
  have hlook : (Registry.get? space name).Yields [⟨.getMap ⟨space, name⟩, .ok (some found)⟩]
      (.ok (some (Record.ofConfigMap name space found.map))) := .send (.here _)
  refine Program.andThen_yields_iff.2 ⟨_, _, _, hlook, ?_, rfl⟩
  simp only [Record.get?_data_ofConfigMap, htext]
  exact .send (.send (.here _))

/-- A deletion in a quiet world, whose installer does not fail, of a record with a manifest. -/
theorem delete_ok {manifest : String} (hw : w.Quiet) (hm : w.manifest? ⟨space, name⟩ = some manifest)
    (hinstalls : Installs ((delete space name).exchanges w)) :
    ∃ w' : World, (delete space name).run w = (.ok (), w') ∧ w'.calls = w.calls ++ [.uninstall space manifest] ∧
      ∀ k, w'.held k = if k = ⟨space, name⟩ then none else w.held k := by
  obtain ⟨m, hheld, htext⟩ := manifest?_eq_some_iff.1 hm
  have hp := (delete space name).run_path w
  have hdeleted := delete_yields ((delete space name).run_yields w)
  generalize (delete space name).exchanges w = xs at hp hdeleted hinstalls
  cases hdeleted with
  | unread e =>
    obtain ⟨w₁, hget, -⟩ := World.path_cons_iff.1 hp
    rw [hw.answer_getMap] at hget
    cases hget
  | absent =>
    obtain ⟨w₁, hget, -⟩ := World.path_cons_iff.1 hp
    rw [hw.answer_getMap, hheld] at hget
    cases hget
  | kept e _ => exact absurd rfl (hinstalls _ (List.mem_cons_of_mem _ List.mem_cons_self) _ e)
  | bare note reply hnone =>
    obtain ⟨w₁, hget, -⟩ := World.path_cons_iff.1 hp
    rw [hw.answer_getMap, hheld] at hget
    cases hget
    rw [htext] at hnone
    cases hnone
  | @removed found manifest' text reply htext' =>
    obtain ⟨w₁, hget, hrest⟩ := World.path_cons_iff.1 hp
    obtain ⟨w₂, huninstall, hlast⟩ := World.path_cons_iff.1 hrest
    obtain ⟨w₃, hdelete, hend⟩ := World.path_cons_iff.1 hlast
    have hcalls := hp.calls
    rw [hw.answer_getMap, hheld] at hget
    cases hget
    cases htext.symm.trans htext'
    obtain ⟨hw₂, hsame⟩ := hw.step huninstall
    have hthere : w₂.held ⟨space, name⟩ ≠ none := by
      rw [hsame _ not_false, hheld]
      exact Option.some_ne_none m
    have hremove := hw₂.answer_deleteMap hthere
    rw [hdelete] at hremove
    obtain ⟨hreply, hw₃⟩ := Prod.mk.inj hremove
    cases hreply
    refine ⟨_, Program.run_of_yields (delete_yields_removed text htext) hp, hcalls, fun k => ?_⟩
    rw [World.path_nil_iff.1 hend, hw₃, ← hsame k not_false]
    exact Server.held_erase w₂.server _ k

/-- Deleting takes a submission back. Where a submission succeeds and neither it nor the deletion of its job behind it meets a
failure or another client, the deletion succeeds and uninstalls the manifest that was applied, and all config maps are as they were
before the submission, but for the counter. Submitted again, beside no other client, the request is granted the same name with the
same number, and its job is rendered, unless the counter has come to its greatest value and the program crashes. -/
theorem delete_takes_back_submit (settings : LifecycleSettings) (request : SubmitRequest) (space : String) (w : World)
    (submission : Submission) (hsubmit : (submit settings request space).RunsAlone w)
    (hok : ((submit settings request space).run w).1 = .ok submission)
    (hdelete : (delete space submission.identity.resolved).RunsAlone ((submit settings request space).run w).2)
    (hinstalls : Installs ((delete space submission.identity.resolved).exchanges ((submit settings request space).run w).2)) :
    let w₁ := ((submit settings request space).run w).2
    let w₂ := ((delete space submission.identity.resolved).run w₁).2
    ((delete space submission.identity.resolved).run w₁).1 = .ok () ∧
      (∃ manifest,
        w₁.calls = w.calls ++ [.render submission.identity.resolved space submission.values, .apply space manifest] ∧
        w₂.calls = w₁.calls ++ [.uninstall space manifest]) ∧
      (∀ key, key ≠ JobIndex.key settings.systemSpace → w₂.held key = w.held key) ∧
      ((submit settings request space).RunsAlone w₂ →
        (∃ record : Record, record.stored ∈ (submit settings request space).exchanges w₂ ∧
          record.key = ⟨space, submission.identity.resolved⟩ ∧ record.identity request.name = submission.identity) ∧
        ((((submit settings request space).run w₂).1 = .error .crashed ∧ w₂.counter settings.systemSpace + 1 = JobIndex.modulus) ∨
          (∃ values later, ((submit settings request space).run w₂).2.calls =
            w₂.calls ++ .render submission.identity.resolved space values :: later) ∧
          ((∃ again, ((submit settings request space).run w₂).1 = .ok again ∧ again.identity = submission.identity) ∨
            ∃ e, ((submit settings request space).run w₂).1 = .error (.install e)))) := by
  intro w₁ w₂
  obtain ⟨⟨values, hvalues, hwritable⟩, hgranted, hfree, ⟨manifest, hmanifest, hcalls⟩, hkept⟩ :=
    submit_ok w.quiet_alone ((hsubmit.result.symm.trans hok) ▸ Program.run_yields _ w.alone) (Program.run_path _ w.alone)
  have hheld₁ : w₁.held = ((submit settings request space).run w.alone).2.held := hsubmit.held
  have hmanifest₁ : w₁.alone.manifest? ⟨space, submission.identity.resolved⟩ = some manifest := by
    rw [← hmanifest, World.manifest?, World.manifest?, ← hheld₁]
    rfl
  have hinstalls' : Installs ((delete space submission.identity.resolved).exchanges w₁.alone) :=
    hdelete.exchanges ▸ hinstalls
  obtain ⟨v, hrun, hcalls₂, hheld₂⟩ := delete_ok w₁.quiet_alone hmanifest₁ hinstalls'
  have hw₂ : w₂.held = v.held := by rw [hdelete.held, hrun]
  have hgone : w₂.held ⟨space, submission.identity.resolved⟩ = none := by rw [hw₂, hheld₂, if_pos rfl]
  have hkept₂ : KeptBut settings.systemSpace ⟨space, submission.identity.resolved⟩ w.alone w₂ := by
    refine hkept.trans (.of_held fun k hk => ?_)
    rw [hw₂, hheld₂, if_neg hk, ← hheld₁]
    rfl
  refine ⟨?_, ⟨manifest, ?_, ?_⟩, fun key hkey => ?_, fun hagain => ?_⟩
  · rw [hdelete.result, hrun]
  · rw [hsubmit.calls, hcalls]
    rfl
  · rw [hdelete.calls, hrun, hcalls₂]
    rfl
  · by_cases hk : key = ⟨space, submission.identity.resolved⟩
    · rw [hk, hgone]
      exact hfree.symm
    · exact hkept₂.held key hk hkey
  · have hlabels : ∀ k, w₂.alone.labels? k = w.alone.labels? k := by
      intro k
      by_cases hk : k = ⟨space, submission.identity.resolved⟩
      · have hnone : w₂.alone.held k = none := hk ▸ hgone
        rw [World.labels?, World.labels?, hnone, hk, hfree]
      · exact hkept₂.labels k hk
    have hgranted₂ := Registration.register_again w.quiet_alone w₂.quiet_alone hgranted hgone hkept₂.taken hlabels
    have hend := submit_of_granted w₂.quiet_alone hvalues hwritable hgranted₂ (Program.run_yields _ _) (Program.run_path _ _)
    rw [hagain.exchanges, hagain.result, hagain.calls]
    exact hend

/-- A request for a job whose name may get a number. -/
def numberedRequest : SubmitRequest := { plainRequest with autoName := true }

/-- A world in which the name `job` is taken by a record of its family. -/
def firstTaken : World :=
  { server := { maps := .ofList [(⟨"team-a", "job"⟩, ⟨(Record.candidate .job "team-a" 0).toConfigMap, 1⟩)] } }

/-- What it is submitted as there. -/
def numberedSubmission : Submission :=
  ((submit {} numberedRequest "team-a").run firstTaken).1.toOption.getD ⟨⟨.job, "job", 0⟩, ""⟩

/-- Beside a job of its name a job is submitted as `job-1`, deleted, and submitted as `job-1` again. -/
theorem delete_takes_back_submit_of_numbered :
    let w₁ := ((submit {} numberedRequest "team-a").run firstTaken).2
    let w₂ := ((delete "team-a" "job-1").run w₁).2
    (submit {} numberedRequest "team-a").RunsAlone firstTaken ∧ (delete "team-a" "job-1").RunsAlone w₁ ∧
      Installs ((delete "team-a" "job-1").exchanges w₁) ∧
      ((submit {} numberedRequest "team-a").run firstTaken).1 = .ok numberedSubmission ∧
      numberedSubmission.identity = ⟨.job, "job-1", 1⟩ ∧ ((delete "team-a" "job-1").run w₁).1 = .ok () ∧
      (∀ key, key ≠ JobIndex.key "runai" → w₂.held key = firstTaken.held key) ∧
      ∃ again, ((submit {} numberedRequest "team-a").run w₂).1 = .ok again ∧ again.identity = ⟨.job, "job-1", 1⟩ := by
  intro w₁ w₂
  have hw : firstTaken.Quiet := ⟨rfl, rfl, rfl, rfl⟩
  have hw₁ : w₁.Quiet := ((Program.run_path _ firstTaken).quiet hw).1
  have hw₂ : w₂.Quiet := ((Program.run_path _ w₁).quiet hw₁).1
  have hok : ((submit {} numberedRequest "team-a").run firstTaken).1 = .ok numberedSubmission := rfl
  have hinstalls : Installs ((delete "team-a" "job-1").exchanges w₁) := by
    have hcalls : ((delete "team-a" "job-1").exchanges w₁).filterMap Exchange.call? = [(.uninstall "team-a" "", .ok "")] := rfl
    intro x hx call e hcall
    have hmem : (call, .error e) ∈ ((delete "team-a" "job-1").exchanges w₁).filterMap Exchange.call? :=
      List.mem_filterMap.2 ⟨x, hx, hcall⟩
    rw [hcalls, List.mem_singleton] at hmem
    cases hmem
  have hsubmit := (submit {} numberedRequest "team-a").runsAlone_of_quiet hw
  have hdelete := (delete "team-a" "job-1").runsAlone_of_quiet hw₁
  obtain ⟨hdeleted, -, hheld, hagain⟩ :=
    delete_takes_back_submit {} numberedRequest "team-a" firstTaken numberedSubmission hsubmit hok hdelete hinstalls
  refine ⟨hsubmit, hdelete, hinstalls, hok, rfl, hdeleted, hheld, ?_⟩
  obtain ⟨-, ⟨hcrashed, -⟩ | ⟨-, hgranted | ⟨e, he⟩⟩⟩ := hagain (Program.runsAlone_of_quiet _ hw₂)
  · cases hcrashed
  · exact hgranted
  · cases he

end Lifecycle

end TrainingJobs

import TrainingJobs.Commands
import TrainingJobs.Proofs.SubmittingPaths

/-!
# What deletions leave

A pruning deletes one job after the other. What it asks for is told by the keys alone (`DeletedInTurn`): it writes to nothing
else, and it hands nothing to the installer but the manifest of a record that it has found under one of them. In a world in which
nothing fails every record under one of the keys is gone behind it, and all else is as before (`prune_calm`).
-/

namespace TrainingJobs

/-! ## Requests by which nothing is put -/

/-- Requests by which nothing is put under a key, neither by their client nor by others. -/
def Request.PutsNothing : Request → Prop
  | .createMap _ _ | .listMaps _ _ _ | .replaceMap _ _ _ | .patchMap _ _ => False
  | _ => True

namespace World

variable {w w' : World} {xs : List Exchange}

/-- All that is held behind a request by which nothing is put was held before. -/
theorem grows_of_putsNothing {r : Request} {reply : r.Reply} (hr : r.PutsNothing) (h : w.answer r = (reply, w')) :
    w'.Grows w := by
  cases r with
  | createMap key map => exact hr.elim
  | listMaps space label value => exact hr.elim
  | replaceMap key version map => exact hr.elim
  | patchMap key texts => exact hr.elim
  | getMap key =>
    intro k m hm
    have hheld : w'.held = w.held := (getMap_cases h).1
    rw [← hm]
    exact (congrFun hheld k).symm
  | deleteMap key =>
    intro k m hm
    change w'.held k = some m at hm
    obtain ⟨e, -, hheld⟩ | ⟨-, -, hheld⟩ := deleteMap_cases h
    · rw [hheld] at hm
      exact hm
    · rw [hheld] at hm
      split at hm
      · cases hm
      · exact hm
  | listObjects kind space activeOnly =>
    intro k m hm
    rw [← hm]
    exact (congrFun (held_listObjects h) k).symm
  | install call | query address expression | log level text | print text | now =>
    cases h
    exact Server.Grows.refl _

section Path

variable {key : ObjectKey}

/-- What is found among requests by which nothing is put was there before all of them. -/
theorem Path.held_of_found {found : StoredMap} (h : w.Path xs w')
    (hputs : ∀ x ∈ xs, x.request.PutsNothing) (hx : ⟨.getMap key, .ok (some found)⟩ ∈ xs) : w.held key = some found := by
  induction h with
  | nil w => cases hx
  | cons ha _ ih =>
    rcases List.mem_cons.1 hx with rfl | hx
    · exact (getMap_cases ha).2 found rfl
    · have hheld := ih (fun y hy => hputs y (List.mem_cons_of_mem _ hy)) hx
      exact grows_of_putsNothing (hputs _ List.mem_cons_self) ha key found hheld

/-- What is taken away among requests by which nothing is put was there before all of them. -/
theorem Path.held_of_deleted (h : w.Path xs w') (hputs : ∀ x ∈ xs, x.request.PutsNothing)
    (hx : ⟨.deleteMap key, .ok ()⟩ ∈ xs) : w.held key ≠ none := by
  induction h with
  | nil w => cases hx
  | cons ha _ ih =>
    rcases List.mem_cons.1 hx with rfl | hx
    · obtain ⟨e, he, -⟩ | ⟨-, hheld, -⟩ := deleteMap_cases ha
      · cases he
      · exact hheld
    · have hheld := ih (fun y hy => hputs y (List.mem_cons_of_mem _ hy)) hx
      exact fun hfree => hheld ((grows_of_putsNothing (hputs _ List.mem_cons_self) ha).free hfree)

end Path

end World

namespace Lifecycle

variable {xs : List Exchange} {space name : String}

/-! ## The exchanges of deletions -/

/-- A deletion looks at its record, hands a manifest to the installer, may note something and asks for the removal of the
record. -/
theorem Deleted.cases {x : Exchange} (h : Deleted space name xs) (hx : x ∈ xs) :
    (∃ reply, x = ⟨.getMap ⟨space, name⟩, reply⟩) ∨ (∃ manifest outcome, x = uninstalled space manifest outcome) ∨
      (∃ text, x = ⟨.log .warn text, ()⟩) ∨ ∃ reply, x = ⟨.deleteMap ⟨space, name⟩, reply⟩ := by
  cases h with
  | unread e => exact .inl ⟨_, List.mem_singleton.1 hx⟩
  | absent => exact .inl ⟨_, List.mem_singleton.1 hx⟩
  | kept e htext =>
    simp only [List.mem_cons, List.not_mem_nil, or_false] at hx
    rcases hx with rfl | rfl
    · exact .inl ⟨_, rfl⟩
    · exact .inr (.inl ⟨_, _, rfl⟩)
  | bare note reply htext =>
    simp only [List.mem_cons, List.not_mem_nil, or_false] at hx
    rcases hx with rfl | rfl | rfl
    · exact .inl ⟨_, rfl⟩
    · exact .inr (.inr (.inl ⟨_, rfl⟩))
    · exact .inr (.inr (.inr ⟨_, rfl⟩))
  | removed text reply htext =>
    simp only [List.mem_cons, List.not_mem_nil, or_false] at hx
    rcases hx with rfl | rfl | rfl
    · exact .inl ⟨_, rfl⟩
    · exact .inr (.inl ⟨_, _, rfl⟩)
    · exact .inr (.inr (.inr ⟨_, rfl⟩))

/-- What a deletion hands to the installer is the manifest of the record that it has found. -/
theorem Deleted.found_of_uninstalled {space' manifest : String} {outcome : Except InstallError String}
    (h : Deleted space name xs) (hx : uninstalled space' manifest outcome ∈ xs) :
    space' = space ∧ ∃ found : StoredMap, ⟨.getMap ⟨space, name⟩, .ok (some found)⟩ ∈ xs ∧
      found.map.text? manifestText = some manifest := by
  cases h with
  | unread e => cases congrArg Exchange.request (List.mem_singleton.1 hx)
  | absent => cases congrArg Exchange.request (List.mem_singleton.1 hx)
  | kept e htext =>
    simp only [List.mem_cons, List.not_mem_nil, or_false] at hx
    rcases hx with hx | hx
    · cases congrArg Exchange.request hx
    · cases congrArg Exchange.request hx
      exact ⟨rfl, _, List.mem_cons_self, htext⟩
  | bare note reply htext =>
    simp only [List.mem_cons, List.not_mem_nil, or_false] at hx
    rcases hx with hx | hx | hx <;> cases congrArg Exchange.request hx
  | removed text reply htext =>
    simp only [List.mem_cons, List.not_mem_nil, or_false] at hx
    rcases hx with hx | hx | hx
    · cases congrArg Exchange.request hx
    · cases congrArg Exchange.request hx
      exact ⟨rfl, _, List.mem_cons_self, htext⟩
    · cases congrArg Exchange.request hx

/-- The exchanges of deletions of several keys, one after the other, with notes between them. The last one need not be that of
the last key. -/
inductive DeletedInTurn : List ObjectKey → List Exchange → Prop
  | none : DeletedInTurn [] []
  | last {key : ObjectKey} {keys : List ObjectKey} {xs : List Exchange} :
    Deleted key.space key.name xs → DeletedInTurn (key :: keys) xs
  | next {key : ObjectKey} {keys : List ObjectKey} {xs notes ys : List Exchange} :
    Deleted key.space key.name xs → Noted notes → DeletedInTurn keys ys → DeletedInTurn (key :: keys) (xs ++ (notes ++ ys))

section DeletedInTurn

variable {keys : List ObjectKey} {x : Exchange}

/-- An exchange of deletions is part of the deletion of one of the keys, or a note. -/
theorem DeletedInTurn.cases (h : DeletedInTurn keys xs) (hx : x ∈ xs) :
    (∃ key ∈ keys, ∃ ys, Deleted key.space key.name ys ∧ x ∈ ys ∧ ∀ y ∈ ys, y ∈ xs) ∨ ∃ text, x = ⟨.log .warn text, ()⟩ := by
  induction h with
  | none => cases hx
  | @last key keys xs hdeleted => exact .inl ⟨key, List.mem_cons_self, xs, hdeleted, hx, fun _ h => h⟩
  | @next key keys xs notes ys hdeleted hnotes _ ih =>
    rcases List.mem_append.1 hx with hx | hx
    · exact .inl ⟨key, List.mem_cons_self, xs, hdeleted, hx, fun y hy => List.mem_append_left _ hy⟩
    · rcases List.mem_append.1 hx with hx | hx
      · exact .inr (hnotes.cases hx)
      · obtain ⟨k, hk, zs, hzs, hxz, hsub⟩ | ⟨text, rfl⟩ := ih hx
        · refine .inl ⟨k, List.mem_cons_of_mem _ hk, zs, hzs, hxz, fun y hy => ?_⟩
          exact List.mem_append_right _ (List.mem_append_right _ (hsub y hy))
        · exact .inr ⟨text, rfl⟩

/-- Nothing is put by deletions. -/
theorem DeletedInTurn.putsNothing (h : DeletedInTurn keys xs) : ∀ x ∈ xs, x.request.PutsNothing := by
  intro x hx
  obtain ⟨key, -, ys, hdeleted, hxy, -⟩ | ⟨text, rfl⟩ := h.cases hx
  · obtain ⟨reply, rfl⟩ | ⟨manifest, outcome, rfl⟩ | ⟨text, rfl⟩ | ⟨reply, rfl⟩ := hdeleted.cases hxy <;> exact trivial
  · exact trivial

/-- Deletions look up nothing and take away nothing but what is under their keys. -/
theorem DeletedInTurn.mem_keys {key : ObjectKey} (h : DeletedInTurn keys xs) (hx : x ∈ xs)
    (hrequest : x.request = .getMap key ∨ x.request = .deleteMap key) : key ∈ keys := by
  obtain ⟨k, hk, ys, hdeleted, hxy, -⟩ | ⟨text, rfl⟩ := h.cases hx
  · obtain ⟨reply, rfl⟩ | ⟨manifest, outcome, rfl⟩ | ⟨text, rfl⟩ | ⟨reply, rfl⟩ := hdeleted.cases hxy <;>
      rcases hrequest with heq | heq <;> cases heq <;> exact hk
  · rcases hrequest with heq | heq <;> cases heq

/-- Deletions write to their keys only, by taking away what is there. -/
theorem DeletedInTurn.writes {key : ObjectKey} (h : DeletedInTurn keys xs) (hx : x ∈ xs) (hw : x.Writes key) :
    x = ⟨.deleteMap key, .ok ()⟩ := by
  have hputs := h.putsNothing x hx
  obtain ⟨r, reply⟩ := x
  cases r with
  | createMap k map => exact hputs.elim
  | replaceMap k version map => exact hputs.elim
  | patchMap k texts => exact hputs.elim
  | deleteMap k =>
    cases reply with
    | ok u =>
      cases hw
      rfl
    | error e => cases hw
  | _ => cases hw

/-- What deletions hand to the installer are manifests of records that they have found under their keys. -/
theorem DeletedInTurn.found_of_uninstalled {manifest : String} {outcome : Except InstallError String}
    (h : DeletedInTurn keys xs) (hx : uninstalled space manifest outcome ∈ xs) :
    ∃ key ∈ keys, key.space = space ∧ ∃ found : StoredMap, ⟨.getMap key, .ok (some found)⟩ ∈ xs ∧
      found.map.text? manifestText = some manifest := by
  obtain ⟨key, hkey, ys, hdeleted, hxy, hsub⟩ | ⟨text, heq⟩ := h.cases hx
  · obtain ⟨rfl, found, hfound, htext⟩ := hdeleted.found_of_uninstalled hxy
    exact ⟨key, hkey, rfl, found, hsub _ hfound, htext⟩
  · cases congrArg Exchange.request heq

end DeletedInTurn

end Lifecycle

/-! ## Pruning -/

/-- The key of the record that has the name of a workload. -/
def Workload.key (job : Workload) : ObjectKey := ⟨job.space, job.name⟩

/-- The key of the record that has the name of a job. -/
def JobView.key (job : JobView) : ObjectKey := job.workload.key

/-- A workload of a snapshot does not run and is older than a duration. -/
def Snapshot.Prunable (s : Snapshot) (olderThan : Duration) (job : Workload) : Prop :=
  (JobView.of job s.pods).isPrunable s.takenAt olderThan = true

/-- The keys of the jobs that are pruned are those of the workloads that can be. -/
theorem mem_keys_pruneCandidates_iff {s : Snapshot} {olderThan : Duration} {key : ObjectKey} :
    key ∈ (pruneCandidates (JobView.ofSnapshot s) s.takenAt olderThan).map JobView.key ↔
      ∃ job ∈ s.workloads, job.key = key ∧ s.Prunable olderThan job := by
  simp only [pruneCandidates, JobView.ofSnapshot, List.mem_map, List.mem_filter, List.mem_mergeSort]
  constructor
  · rintro ⟨_, ⟨⟨job, hjob, rfl⟩, hprunable⟩, rfl⟩
    exact ⟨job, hjob, rfl, hprunable⟩
  · rintro ⟨job, hjob, rfl, hprunable⟩
    exact ⟨_, ⟨⟨job, hjob, rfl⟩, hprunable⟩, rfl⟩

namespace Commands

open Lifecycle

/-- A pruning deletes its jobs one after the other, perhaps not all of them. -/
theorem pruneEach_yields {jobs : List JobView} {xs : List Exchange} {result : Except Failure (List String)}
    (h : (pruneEach jobs).Yields xs result) : DeletedInTurn (jobs.map JobView.key) xs := by
  induction jobs generalizing xs result with
  | nil =>
    obtain ⟨rfl, -⟩ := Program.done_yields_iff.1 h
    exact .none
  | cons job rest ih =>
    obtain ⟨ys, deleted, zs, hdelete, hrest, rfl⟩ := Program.andThen_yields_iff.1 h
    have hdeleted : Deleted job.key.space job.key.name ys := delete_yields hdelete
    cases deleted with
    | ok u =>
      obtain ⟨us, names, vs, hlater, hend, rfl⟩ := Program.andThen_yields_iff.1 hrest
      obtain ⟨rfl, -⟩ := Program.done_yields_iff.1 hend
      have hnotes : Noted [] := .inl rfl
      have hturn := DeletedInTurn.next hdeleted hnotes (ih hlater)
      rw [List.nil_append] at hturn
      rw [List.append_nil]
      exact hturn
    | error e =>
      cases e with
      | notFound name =>
        obtain ⟨reply, us, rfl, hlater⟩ := Program.ask_andThen_yields_iff.1 hrest
        exact .next hdeleted (.inr ⟨_, rfl⟩) (ih hlater)
      | _ =>
        -- Any other failure is the last thing that happens.
        obtain ⟨rfl, -⟩ := Program.done_yields_iff.1 hrest
        rw [List.append_nil]
        exact .last hdeleted

/-- The exchanges of a pruning are those of deletions of its candidates. -/
theorem prune_deletedInTurn (w : World) (s : Snapshot) (olderThan : Duration) :
    DeletedInTurn ((pruneCandidates (JobView.ofSnapshot s) s.takenAt olderThan).map JobView.key)
      ((prune (pure (.ok s)) olderThan).exchanges w) :=
  pruneEach_yields ((prune (pure (.ok s)) olderThan).run_yields w)

end Commands

/-! ## Worlds in which nothing fails -/

/-- A world in which the server can be reached, no failure is to come and the installer does what it is asked for. -/
structure World.Calm (w : World) : Prop where
  reachable : w.reachable = true
  faults : w.server.faults = []
  installer : ∀ calls call, ∃ text, w.installer calls call = .ok text

/-- A world with some config maps in which nothing fails. -/
def World.calmWith (maps : MapStore) : World := { server := { maps := maps } }

theorem World.calm_calmWith (maps : MapStore) : (calmWith maps).Calm := ⟨rfl, rfl, fun _ _ => ⟨"", rfl⟩⟩

namespace World.Calm

variable {w : World} (hw : w.Calm)
include hw

theorem answer_getMap (key : ObjectKey) : w.answer (.getMap key) = (.ok (w.held key), w) := by
  change w.contact (·.get key) = _
  rw [contact_of_reachable hw.reachable, Server.get_of_faults_nil hw.faults]
  rfl

/-- A removal takes away what there is. -/
theorem answer_deleteMap {key : ObjectKey} (hkey : w.held key ≠ none) :
    ∃ w' : World, w.answer (.deleteMap key) = (.ok (), w') ∧ w'.Calm ∧
      ∀ k, w'.held k = if k = key then none else w.held k := by
  refine ⟨{ w with server := { w.server with maps := w.server.maps.erase key } }, ?_, ?_, ?_⟩
  · change w.contact (·.delete key) = _
    rw [contact_of_reachable hw.reachable, Server.delete_of_faults_nil hw.faults hkey]
  · exact ⟨hw.reachable, hw.faults, hw.installer⟩
  · intro k
    exact Server.held_erase w.server key k

end World.Calm

namespace Lifecycle

variable {w : World} {space name : String}

/-- Where nothing fails the objects of a manifest are removed. -/
theorem uninstall_calm (hw : w.Calm) (space manifest : String) :
    ∃ w' : World, (uninstall space manifest).run w = (.ok (), w') ∧ w'.Calm ∧ w'.held = w.held := by
  obtain ⟨text, htext⟩ := hw.installer w.calls (.uninstall space manifest)
  refine ⟨{ w with calls := w.calls ++ [.uninstall space manifest] }, ?_, ⟨hw.reachable, hw.faults, hw.installer⟩, rfl⟩
  change (((w.installer w.calls (.uninstall space manifest)).map fun _ => ()), _) = _
  rw [htext]
  rfl

/-- Where nothing fails a record that there is is taken away. -/
theorem remove_calm (hw : w.Calm) (hkey : w.held ⟨space, name⟩ ≠ none) :
    ∃ w' : World, (Registry.remove space name).run w = (.ok (), w') ∧ w'.Calm ∧
      ∀ k, w'.held k = if k = ⟨space, name⟩ then none else w.held k := by
  obtain ⟨w', hanswer, hcalm, hheld⟩ := hw.answer_deleteMap hkey
  exact ⟨w', Program.run_ask_andThen hanswer, hcalm, hheld⟩

/-- A warning fails nowhere. -/
theorem warn_calm (hw : w.Calm) (text : String) :
    ∃ w' : World, (Program.warn text).run w = ((), w') ∧ w'.Calm ∧ w'.held = w.held :=
  ⟨{ w with log := w.log ++ [(.warn, text)] }, rfl, ⟨hw.reachable, hw.faults, hw.installer⟩, rfl⟩

/-- Where nothing fails a deletion takes away whatever is held under its key, and finds out when there is nothing. -/
theorem delete_calm (hw : w.Calm) (space name : String) :
    ∃ w' : World, w'.Calm ∧ (∀ k, w'.held k = if k = ⟨space, name⟩ then none else w.held k) ∧
      (delete space name).run w = (if w.held ⟨space, name⟩ = none then .error (.notFound name) else .ok (), w') := by
  have hlook : (Registry.get? space name).run w =
      (.ok ((w.held ⟨space, name⟩).map fun found => Record.ofConfigMap name space found.map), w) :=
    Program.run_ask_andThen (hw.answer_getMap ⟨space, name⟩)
  rw [delete, Program.bind_eq, Program.run_andThen, hlook]
  cases hheld : w.held ⟨space, name⟩ with
  | none =>
    refine ⟨w, hw, fun k => ?_, rfl⟩
    split
    · rename_i hk
      rw [hk, hheld]
    · rfl
  | some found =>
    have hkey : w.held ⟨space, name⟩ ≠ none := by
      rw [hheld]
      exact Option.some_ne_none found
    simp only [Option.map_some, Record.get?_data_ofConfigMap, reduceCtorEq, if_false]
    cases htext : found.map.text? manifestText with
    | some manifest =>
      obtain ⟨w₁, huninstall, hcalm₁, hheld₁⟩ := uninstall_calm hw space manifest
      obtain ⟨w₂, hremove, hcalm₂, hheld₂⟩ := remove_calm hcalm₁ (hheld₁ ▸ hkey)
      refine ⟨w₂, hcalm₂, fun k => by rw [hheld₂, hheld₁], ?_⟩
      simp only [Program.bind_eq, Program.run_andThen, huninstall, hremove]
      rfl
    | none =>
      obtain ⟨w₁, hwarn, hcalm₁, hheld₁⟩ := warn_calm hw (name ++ " has no stored manifest, only its record is removed")
      obtain ⟨w₂, hremove, hcalm₂, hheld₂⟩ := remove_calm hcalm₁ (hheld₁ ▸ hkey)
      refine ⟨w₂, hcalm₂, fun k => by rw [hheld₂, hheld₁], ?_⟩
      simp only [Program.bind_eq, Program.pure_eq, Program.run_andThen, hwarn, Program.run_done, hremove]

end Lifecycle

namespace Commands

/-- Where nothing fails jobs are deleted to the last one, and nothing is held under their keys any more. -/
theorem pruneEach_calm {w : World} (hw : w.Calm) (jobs : List JobView) :
    ∃ (names : List String) (w' : World), (pruneEach jobs).run w = (.ok names, w') ∧
      ∀ k, w'.held k = if k ∈ jobs.map JobView.key then none else w.held k := by
  induction jobs generalizing w with
  | nil => exact ⟨[], w, rfl, fun k => by simp⟩
  | cons job rest ih =>
    obtain ⟨w₁, hcalm₁, hheld₁, hdelete⟩ := Lifecycle.delete_calm hw job.workload.space job.workload.name
    -- What is held behind all deletions, when the others go on from a world with the same config maps.
    have hbehind : ∀ w₂ w' : World, w₂.held = w₁.held →
        (∀ k, w'.held k = if k ∈ rest.map JobView.key then none else w₂.held k) →
        ∀ k, w'.held k = if k ∈ (job :: rest).map JobView.key then none else w.held k := by
      intro w₂ w' hheld₂ hheld k
      have hkey : job.key = ⟨job.workload.space, job.workload.name⟩ := rfl
      rw [hheld, hheld₂, hheld₁, ← hkey]
      simp only [List.map_cons, List.mem_cons]
      by_cases hrest : k ∈ rest.map JobView.key
      · rw [if_pos hrest, if_pos (.inr hrest)]
      · by_cases hk : k = job.key
        · rw [if_neg hrest, if_pos hk, if_pos (.inl hk)]
        · rw [if_neg hrest, if_neg hk, if_neg (not_or.2 ⟨hk, hrest⟩)]
    rw [pruneEach, Program.bind_eq, Program.run_andThen, hdelete]
    by_cases hfree : w.held ⟨job.workload.space, job.workload.name⟩ = none
    · obtain ⟨w₂, hwarn, hcalm₂, hheld₂⟩ :=
        Lifecycle.warn_calm hcalm₁ ("Skipping " ++ job.workload.name ++ ", it was not submitted from this CLI")
      obtain ⟨names, w', hrun, hheld⟩ := ih hcalm₂
      refine ⟨names, w', ?_, hbehind w₂ w' hheld₂ hheld⟩
      simp only [if_pos hfree, Program.bind_eq, Program.run_andThen, hwarn, hrun]
    · obtain ⟨names, w', hrun, hheld⟩ := ih hcalm₁
      refine ⟨job.workload.name :: names, w', ?_, hbehind w₁ w' rfl hheld⟩
      simp only [if_neg hfree, Program.bind_eq, Program.run_andThen, hrun]
      rfl

/-- Where nothing fails a pruning takes away whatever is held under the keys of its candidates. -/
theorem prune_calm {w : World} (hw : w.Calm) (s : Snapshot) (olderThan : Duration) :
    ∃ (names : List String) (w' : World), (prune (pure (.ok s)) olderThan).run w = (.ok names, w') ∧
      ∀ k, w'.held k =
        if k ∈ (pruneCandidates (JobView.ofSnapshot s) s.takenAt olderThan).map JobView.key then none else w.held k :=
  pruneEach_calm hw _

end Commands

end TrainingJobs

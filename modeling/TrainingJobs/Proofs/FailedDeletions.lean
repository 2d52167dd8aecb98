import TrainingJobs.Proofs.Orphans
import TrainingJobs.Proofs.Pruning

/-!
# Deletions that fail

A deletion looks its record up, removes the objects of the manifest that it finds there, and takes the record away last. So one that
fails leaves all config maps as they were, with the manifest that the next one needs, and one that nothing disturbs ends as if there had
been none before it (`deletion_repeatable`).
-/

namespace TrainingJobs

/-! ## Exchanges without an effect -/

/-- Nothing is put, changed or taken away in an exchange, neither by its client nor by others. -/
def Exchange.Idle (x : Exchange) : Prop := x.request.PutsNothing ∧ ∀ key, ¬x.Writes key

@[simp] theorem Exchange.idle_getMap (key : ObjectKey) (reply : Except ApiError (Option StoredMap)) :
    Idle ⟨.getMap key, reply⟩ := ⟨trivial, fun _ => not_false⟩

@[simp] theorem Exchange.idle_uninstalled (space manifest : String) (outcome : Except InstallError String) :
    Idle (Lifecycle.uninstalled space manifest outcome) := ⟨trivial, fun _ => not_false⟩

@[simp] theorem Exchange.idle_warned (note : String) : Idle ⟨.log .warn note, ()⟩ := ⟨trivial, fun _ => not_false⟩

@[simp] theorem Exchange.idle_not_deleted (key : ObjectKey) (e : ApiError) : Idle ⟨.deleteMap key, .error e⟩ :=
  ⟨trivial, fun _ => not_false⟩

/-- All config maps stay behind exchanges without an effect. -/
theorem World.Path.held_eq_of_idle {w w' : World} {xs : List Exchange} (hp : w.Path xs w') (hidle : ∀ x ∈ xs, x.Idle) :
    w'.held = w.held := by
  induction hp with
  | nil w => rfl
  | @cons w w₁ w' x xs ha _ ih =>
    obtain ⟨hputs, hwrites⟩ := hidle x List.mem_cons_self
    rw [ih fun y hy => hidle y (List.mem_cons_of_mem x hy)]
    funext key
    cases hm : w.held key with
    | some m => exact held_answer ha (hwrites key) hm
    | none => exact (grows_of_putsNothing hputs ha).free hm

namespace Lifecycle

variable {xs : List Exchange} {space name : String} {w w' : World} {result : Except LifecycleError Unit}

/-! ## One deletion -/

/-- Of the exchanges only the last can be a removal, and that of a key. -/
def RemovesLast (key : ObjectKey) (xs : List Exchange) : Prop :=
  ∀ before x later k, xs = before ++ x :: later → x.request = .deleteMap k → k = key ∧ later = []

/-- A deletion of a job with some exchanges, a result and the worlds before and behind it. Once the record is found, the objects of the
manifest in it are asked to be removed, in its namespace and once, if it has one; otherwise the installer is not called. The removal of
the record is the last request. The deletion succeeds just when the record was found, the installer did not fail and the record was
taken away; then its config map is gone and all others are as before, and if it fails all are. -/
structure Deletes (w : World) (space name : String) (xs : List Exchange) (result : Except LifecycleError Unit) (w' : World) :
    Prop where
  calls : (∃ found, ⟨.getMap ⟨space, name⟩, .ok (some found)⟩ ∈ xs) →
    (xs.filterMap Exchange.call?).map (·.1) = (w.manifest? ⟨space, name⟩).toList.map (.uninstall space)
  uncalled : (¬∃ found, ⟨.getMap ⟨space, name⟩, .ok (some found)⟩ ∈ xs) → xs.filterMap Exchange.call? = []
  removesLast : RemovesLast ⟨space, name⟩ xs
  ok_iff : result = .ok () ↔ (∃ found, ⟨.getMap ⟨space, name⟩, .ok (some found)⟩ ∈ xs) ∧
    (∀ call ∈ xs.filterMap Exchange.call?, ∃ text, call.2 = .ok text) ∧ ⟨.deleteMap ⟨space, name⟩, .ok ()⟩ ∈ xs
  gone : result = .ok () → w.held ⟨space, name⟩ ≠ none ∧ ∀ k, w'.held k = if k = ⟨space, name⟩ then none else w.held k
  kept : ∀ e, result = .error e → w'.held = w.held

namespace FailedDeletionsAux

theorem Cleared.idle {found : StoredMap} {clearing : Exchange} (h : Cleared space found clearing) : clearing.Idle := by
  cases h with
  | removed text htext => exact Exchange.idle_uninstalled _ _ _
  | bare note htext => exact Exchange.idle_warned note

/-- The installer removes the objects of a manifest without failing, if there is one. -/
theorem Cleared.call?_eq {found : StoredMap} {clearing : Exchange} (h : Cleared space found clearing) :
    clearing.call?.toList.map (·.1) = (found.map.text? manifestText).toList.map (.uninstall space) ∧
      ∀ call ∈ clearing.call?, ∃ text, call.2 = .ok text := by
  cases h with
  | removed text htext =>
    rw [htext]
    refine ⟨rfl, fun call hcall => ?_⟩
    cases hcall
    exact ⟨text, rfl⟩
  | bare note htext =>
    rw [htext]
    exact ⟨rfl, nofun⟩

/-- The config maps behind a deletion. -/
theorem Ended.held (h : Ended space name xs result) (hp : w.Path xs w') :
    (result = .ok () → w.held ⟨space, name⟩ ≠ none ∧ ∀ k, w'.held k = if k = ⟨space, name⟩ then none else w.held k) ∧
      ∀ e, result = .error e → w'.held = w.held := by
  cases h with
  | unread | absent | uncleared e htext => exact ⟨nofun, fun _ _ => hp.held_eq_of_idle (by simp)⟩
  | refused e hcleared => exact ⟨nofun, fun _ _ => hp.held_eq_of_idle (by simp [Cleared.idle hcleared])⟩
  | @gone found clearing hcleared =>
    refine ⟨fun _ => ?_, nofun⟩
    obtain ⟨w₁, hget, hrest⟩ := World.path_cons_iff.1 hp
    obtain ⟨w₂, hclearing, hlast⟩ := World.path_cons_iff.1 hrest
    obtain ⟨w₃, hdelete, hend⟩ := World.path_cons_iff.1 hlast
    have hsame : w₂.held = w.held :=
      World.Path.held_eq_of_idle (.cons hget (.cons hclearing (.nil w₂))) (by simp [Cleared.idle hcleared])
    rw [World.path_nil_iff.1 hend, ← hsame]
    obtain ⟨e, he, -⟩ | ⟨-, hthere, hheld⟩ := World.deleteMap_cases hdelete
    · cases he
    · exact ⟨hthere, hheld⟩

/-- The manifest that a deletion finds is that of the record. -/
theorem manifest?_of_found {found : StoredMap} {later : List Exchange}
    (hp : w.Path (⟨.getMap ⟨space, name⟩, .ok (some found)⟩ :: later) w') :
    found.map.text? manifestText = w.manifest? ⟨space, name⟩ := by
  obtain ⟨w₁, hget, -⟩ := World.path_cons_iff.1 hp
  rw [World.manifest?, (World.getMap_cases hget).2 found rfl]
  rfl

/-- The calls of a deletion that gets to the removal of the record are those by which the way is cleared. -/
theorem filterMap_call?_cleared (key : ObjectKey) (found : StoredMap) (clearing : Exchange) (reply : Except ApiError Unit) :
    [⟨.getMap key, .ok (some found)⟩, clearing, ⟨.deleteMap key, reply⟩].filterMap Exchange.call? = clearing.call?.toList := by
  have hget : Exchange.call? ⟨.getMap key, .ok (some found)⟩ = none := rfl
  have hdelete : Exchange.call? ⟨.deleteMap key, reply⟩ = none := rfl
  rw [List.filterMap_cons_none hget, List.filterMap_cons]
  cases clearing.call? <;> simp [hdelete]

/-- The installer is called once the record is found, for the manifest in it. -/
theorem Ended.calls (h : Ended space name xs result) (hp : w.Path xs w')
    (hfound : ∃ found, ⟨.getMap ⟨space, name⟩, .ok (some found)⟩ ∈ xs) :
    (xs.filterMap Exchange.call?).map (·.1) = (w.manifest? ⟨space, name⟩).toList.map (.uninstall space) := by
  cases h with
  | unread | absent => simp at hfound
  | uncleared e htext =>
    rw [← manifest?_of_found hp, htext]
    rfl
  | refused e hcleared | gone hcleared =>
    rw [← manifest?_of_found hp, filterMap_call?_cleared, (Cleared.call?_eq hcleared).1]

/-- The installer is not called for a record that is not found. -/
theorem Ended.uncalled (h : Ended space name xs result) (hnot : ¬∃ found, ⟨.getMap ⟨space, name⟩, .ok (some found)⟩ ∈ xs) :
    xs.filterMap Exchange.call? = [] := by
  cases h with
  | unread | absent => rfl
  | uncleared e htext => exact absurd ⟨_, List.mem_cons_self⟩ hnot
  | refused e hcleared | gone hcleared => exact absurd ⟨_, List.mem_cons_self⟩ hnot

theorem removesLast_nil (key : ObjectKey) : RemovesLast key [] := by
  intro before x later k hsplit
  simp at hsplit

theorem removesLast_singleton (key : ObjectKey) (reply : Except ApiError Unit) : RemovesLast key [⟨.deleteMap key, reply⟩] := by
  intro before x later k hsplit hx
  obtain ⟨-, rfl, rfl⟩ | ⟨rest, -, hrest⟩ := Exchange.split_cons hsplit
  · cases hx
    exact ⟨rfl, rfl⟩
  · simp at hrest

theorem removesLast_cons {key : ObjectKey} {y : Exchange} (hy : ∀ k, y.request ≠ .deleteMap k) (h : RemovesLast key xs) :
    RemovesLast key (y :: xs) := by
  intro before x later k hsplit hx
  obtain ⟨-, rfl, -⟩ | ⟨rest, -, hrest⟩ := Exchange.split_cons hsplit
  · exact absurd hx (hy k)
  · exact h rest x later k hrest hx

theorem Cleared.request_ne {found : StoredMap} {clearing : Exchange} (h : Cleared space found clearing) (key : ObjectKey) :
    clearing.request ≠ .deleteMap key := by
  cases h <;> exact nofun

/-- The removal of the record is the last request of a deletion. -/
theorem Ended.removesLast (h : Ended space name xs result) : RemovesLast ⟨space, name⟩ xs := by
  cases h with
  | unread | absent => exact removesLast_cons nofun (removesLast_nil _)
  | uncleared e htext => exact removesLast_cons nofun (removesLast_cons nofun (removesLast_nil _))
  | refused e hcleared | gone hcleared =>
    exact removesLast_cons nofun (removesLast_cons (Cleared.request_ne hcleared) (removesLast_singleton _ _))

/-- A deletion succeeds just when it has found the record, the installer has not failed and the record was taken away. -/
theorem Ended.ok_iff (h : Ended space name xs result) :
    result = .ok () ↔ (∃ found, ⟨.getMap ⟨space, name⟩, .ok (some found)⟩ ∈ xs) ∧
      (∀ call ∈ xs.filterMap Exchange.call?, ∃ text, call.2 = .ok text) ∧ ⟨.deleteMap ⟨space, name⟩, .ok ()⟩ ∈ xs := by
  cases h with
  | unread | absent => simp
  | uncleared e htext => simp [uninstalled]
  | refused e hcleared =>
    refine iff_of_false (fun hok => ?_) ?_
    · cases hok
    rintro ⟨-, -, hremoved⟩
    simp only [List.mem_cons, List.not_mem_nil, or_false] at hremoved
    rcases hremoved with heq | heq | heq
    · cases congrArg Exchange.request heq
    · exact Cleared.request_ne hcleared _ (congrArg Exchange.request heq).symm
    · cases heq
  | gone hcleared =>
    refine iff_of_true rfl ⟨⟨_, List.mem_cons_self⟩, fun call hcall => ?_, by simp⟩
    rw [filterMap_call?_cleared] at hcall
    exact (Cleared.call?_eq hcleared).2 call (Option.mem_toList.1 hcall)

end FailedDeletionsAux

open FailedDeletionsAux

/-- A deletion that fails can be repeated. Whatever the server and the installer do, it asks the installer for the objects of the manifest
in the record and for nothing else, takes the record away last, and succeeds just when all of that does; where it fails it leaves the
config maps as they were. So a deletion that nothing disturbs, behind one that has failed, is told and leaves the same as if there had
been none before it. -/
theorem deletion_repeatable (w : World) (space name : String) :
    let w' := ((delete space name).run w).2
    Deletes w space name ((delete space name).exchanges w) ((delete space name).run w).1 w' ∧
      ((∃ e, ((delete space name).run w).1 = .error e) → ∀ v v' : World, v.Calm → v'.Calm → v.held = w'.held → v'.held = w.held →
        ((delete space name).run v).1 = ((delete space name).run v').1 ∧
          ((delete space name).run v).2.held = ((delete space name).run v').2.held) := by
  intro w'
  have hp : w.Path ((delete space name).exchanges w) w' := (delete space name).run_path w
  have hended : Ended space name ((delete space name).exchanges w) ((delete space name).run w).1 :=
    delete_ended ((delete space name).run_yields w)
  obtain ⟨hgone, hkept⟩ := Ended.held hended hp
  refine ⟨⟨Ended.calls hended hp, Ended.uncalled hended, Ended.removesLast hended, Ended.ok_iff hended, hgone, hkept⟩, ?_⟩
  rintro ⟨e, he⟩ v v' hv hv' hheld hheld'
  obtain ⟨u, -, hu, hrun⟩ := delete_calm hv space name
  obtain ⟨u', -, hu', hrun'⟩ := delete_calm hv' space name
  have hsame : v.held = v'.held := hheld.trans ((hkept e he).trans hheld'.symm)
  rw [hrun, hrun', hsame]
  refine ⟨rfl, funext fun key => ?_⟩
  rw [hu, hu', hsame]

/-- The record of a job that was launched. -/
def launchedRecord : Record :=
  { name := "job", space := "team-a", familyName := "job", data := .ofList [(manifestText, "kind: Job")] }

/-- A world in which the first removal of its config map is refused. -/
def refusedOnce : World :=
  { server := { maps := .ofList [(launchedRecord.key, ⟨launchedRecord.toConfigMap, 1⟩)], faults := [{ verb := .delete }] } }

/-- The job is deleted there in vain, with its objects removed all the same, and then as if that had not been. -/
theorem deletion_repeatable_of_refusedOnce :
    let w' := ((delete "team-a" "job").run refusedOnce).2
    let untried := World.calmWith refusedOnce.server.maps
    ((delete "team-a" "job").run refusedOnce).1 = .error (.registry (.api (.status 500))) ∧
      ((delete "team-a" "job").exchanges refusedOnce).filterMap Exchange.call? = [(.uninstall "team-a" "kind: Job", .ok "")] ∧
      Deletes refusedOnce "team-a" "job" ((delete "team-a" "job").exchanges refusedOnce)
        ((delete "team-a" "job").run refusedOnce).1 w' ∧
      w'.Calm ∧ ((delete "team-a" "job").run w').1 = .ok () ∧
      ((delete "team-a" "job").run w').2.held = ((delete "team-a" "job").run untried).2.held := by
  intro w' untried
  have hfailed : ((delete "team-a" "job").run refusedOnce).1 = .error (.registry (.api (.status 500))) := by rfl
  have hcalm : w'.Calm := ⟨rfl, rfl, fun _ _ => ⟨"", rfl⟩⟩
  obtain ⟨hdeletes, hrepeat⟩ := deletion_repeatable refusedOnce "team-a" "job"
  obtain ⟨-, hheld⟩ := hrepeat ⟨_, hfailed⟩ w' untried hcalm (World.calm_calmWith _) rfl rfl
  exact ⟨hfailed, rfl, hdeletes, hcalm, rfl, hheld⟩

end Lifecycle

end TrainingJobs

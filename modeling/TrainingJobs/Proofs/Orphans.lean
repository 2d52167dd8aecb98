import Mathlib.Data.List.Induction
import TrainingJobs.Proofs.SubmittingPaths

/-!
# What was handed to the cluster

Jobs are submitted and deleted one after the other, and any request and any call of the installer can fail. A manifest that was
applied for a job, wholly or in part, and not removed since is outstanding (`Outstanding`). As long as the record of each such job
holds its manifest nothing is lost (`Ledger.Traceable`), and that stays so until a submission can neither apply its manifest nor
remove it again and still takes its record away (`traceable_iff_not_abandoned`, `traceable_of_failing_installer_false`).
-/

namespace TrainingJobs

open Lifecycle

/-! ## Calls for jobs -/

/-- A call of the installer for a job, with its outcome. -/
structure JobCall where
  job : ObjectKey
  call : InstallerCall
  outcome : Except InstallError String

namespace JobCall

/-- A call that hands a manifest to the cluster, whether it succeeded or not. -/
def Applies (c : JobCall) (job : ObjectKey) (manifest : String) : Prop :=
  c.job = job ∧ ∃ space, c.call = .apply space manifest

/-- A call that has removed the objects of a manifest. -/
def Removes (c : JobCall) (job : ObjectKey) (manifest : String) : Prop :=
  c.job = job ∧ c.call = .uninstall job.space manifest ∧ ∃ text, c.outcome = .ok text

end JobCall

/-- A manifest was handed to the cluster for a job and was not removed since. -/
def Outstanding (calls : List JobCall) (job : ObjectKey) (manifest : String) : Prop :=
  ∃ before c later, calls = before ++ c :: later ∧ c.Applies job manifest ∧ ∀ c' ∈ later, ¬c'.Removes job manifest

section Outstanding

variable {calls later : List JobCall} {job : ObjectKey} {manifest : String}

theorem not_outstanding_nil : ¬Outstanding [] job manifest := by
  rintro ⟨before, c, later, h, -⟩
  simp at h

/-- The first of some calls hands the manifest over and no other removes it, or the others leave it outstanding. -/
theorem outstanding_cons {c : JobCall} :
    Outstanding (c :: calls) job manifest ↔
      (c.Applies job manifest ∧ ∀ c' ∈ calls, ¬c'.Removes job manifest) ∨ Outstanding calls job manifest := by
  constructor
  · rintro ⟨before, d, after, h, happlies, hkept⟩
    cases before with
    | nil =>
      cases h
      exact .inl ⟨happlies, hkept⟩
    | cons b before =>
      cases h
      exact .inr ⟨before, d, after, rfl, happlies, hkept⟩
  · rintro (⟨happlies, hkept⟩ | ⟨before, d, after, rfl, happlies, hkept⟩)
    · exact ⟨[], c, calls, rfl, happlies, hkept⟩
    · exact ⟨c :: before, d, after, rfl, happlies, hkept⟩

/-- What is outstanding after later calls was so before and was not removed, or is so by the later ones. -/
theorem outstanding_append :
    Outstanding (calls ++ later) job manifest ↔
      (Outstanding calls job manifest ∧ ∀ c ∈ later, ¬c.Removes job manifest) ∨ Outstanding later job manifest := by
  induction calls with
  | nil => simp [not_outstanding_nil]
  | cons c calls ih =>
    rw [List.cons_append, outstanding_cons, outstanding_cons, ih]
    simp only [List.forall_mem_append, or_and_right, and_assoc, or_assoc]

/-- A call that does not hand it over leaves it to the others whether a manifest is outstanding. -/
theorem outstanding_cons_of_not_applies {c : JobCall} (hc : ¬c.Applies job manifest) :
    Outstanding (c :: calls) job manifest ↔ Outstanding calls job manifest :=
  outstanding_cons.trans (or_iff_right fun h => hc h.1)

end Outstanding

/-! ## Commands -/

/-- A command. -/
inductive Order
  | submit (settings : LifecycleSettings) (request : SubmitRequest) (space : String)
  | delete (space name : String)

/-- A manifest of a job could neither be applied nor be removed again, and the record of the job was taken away. -/
def Abandoned (xs : List Exchange) (job : ObjectKey) (manifest : String) : Prop :=
  ∃ e e', applied job.space manifest (.error e) ∈ xs ∧ uninstalled job.space manifest (.error e') ∈ xs ∧
    ⟨.deleteMap job, .ok ()⟩ ∈ xs

/-- The calls of the installer among some exchanges, for a job. -/
def callsFor (job : ObjectKey) (xs : List Exchange) : List JobCall :=
  (xs.filterMap Exchange.call?).map fun c => ⟨job, c.1, c.2⟩

/-- The job that a list of calls renders. -/
def renderedJob : List (InstallerCall × Except InstallError String) → ObjectKey
  | (.render name space _, _) :: _ => ⟨space, name⟩
  | _ => default

namespace Order

/-- The requests of a command in a world, with the replies. -/
def exchanges : Order → World → List Exchange
  | .submit settings request space, w => (Lifecycle.submit settings request space).exchanges w
  | .delete space name, w => (Lifecycle.delete space name).exchanges w

/-- The world after a command. -/
def after : Order → World → World
  | .submit settings request space, w => ((Lifecycle.submit settings request space).run w).2
  | .delete space name, w => ((Lifecycle.delete space name).run w).2

/-- The job of a command: a submission renders it, by the name that it was granted. -/
def job : Order → World → ObjectKey
  | .submit settings request space, w =>
    renderedJob (((Lifecycle.submit settings request space).exchanges w).filterMap Exchange.call?)
  | .delete space name, _ => ⟨space, name⟩

/-- The calls of the installer of a command. -/
def calls (o : Order) (w : World) : List JobCall := callsFor (o.job w) (o.exchanges w)

/-- A command abandons a manifest of a job in a world. -/
def Abandons (o : Order) (w : World) : Prop := ∃ job manifest, Abandoned (o.exchanges w) job manifest

end Order

/-- A world, and the calls of the installer so far. -/
structure Ledger where
  world : World
  calls : List JobCall := []

namespace Ledger

/-- A ledger after a command. -/
def step (l : Ledger) (o : Order) : Ledger := ⟨o.after l.world, l.calls ++ o.calls l.world⟩

/-- A ledger after some commands, one after the other. -/
def run (l : Ledger) (orders : List Order) : Ledger := orders.foldl step l

theorem run_append (l : Ledger) (orders : List Order) (o : Order) : l.run (orders ++ [o]) = (l.run orders).step o := by
  rw [run, List.foldl_append]
  rfl

end Ledger

/-- The manifest that the record of a job holds. -/
def World.manifest? (w : World) (job : ObjectKey) : Option String := (w.held job).bind (·.map.text? manifestText)

/-- The record of each job for which a manifest is outstanding holds it, so that it can be found. -/
def Ledger.Traceable (l : Ledger) : Prop :=
  ∀ job manifest, Outstanding l.calls job manifest → l.world.manifest? job = some manifest

namespace OrphansAux

variable {w w' : World} {xs : List Exchange} {job : ObjectKey} {manifest : String}

theorem manifest?_eq_some_iff :
    w.manifest? job = some manifest ↔ ∃ m, w.held job = some m ∧ m.map.text? manifestText = some manifest :=
  Option.bind_eq_some_iff

/-- A record to which nothing is written keeps its manifest. -/
theorem manifest?_path (hp : w.Path xs w') (hx : ∀ x ∈ xs, ¬x.Writes job) (h : w.manifest? job = some manifest) :
    w'.manifest? job = some manifest := by
  obtain ⟨m, hm, htext⟩ := manifest?_eq_some_iff.1 h
  exact manifest?_eq_some_iff.2 ⟨m, hp.held hx hm, htext⟩

/-- Drawing a number leaves the manifests. -/
theorem manifest?_counted {space : String} (hc : JobIndex.Counted space xs) (hp : w.Path xs w')
    (h : w.manifest? job = some manifest) : w'.manifest? job = some manifest := by
  obtain ⟨m, hm, htext⟩ := manifest?_eq_some_iff.1 h
  obtain ⟨m', hm', htexts⟩ := hc.path hp hm
  exact manifest?_eq_some_iff.2 ⟨m', hm', (htexts manifestText (by decide)).trans htext⟩

/-- A record whose texts were set holds the manifest. -/
theorem manifest?_populated {key : ObjectKey} {chart values : String}
    (h : w.answer (.patchMap key (texts chart values manifest)) = (.ok (), w')) : w'.manifest? key = some manifest := by
  obtain ⟨e, he, -⟩ | ⟨-, old, v, -, hheld⟩ := World.patchMap_cases h
  · cases he
  · have htext : (texts chart values manifest).get? manifestText = some manifest := by
      rw [texts, SortedTable.ofList, SortedTable.insertAll, List.foldl_cons, List.foldl_cons, List.foldl_cons, List.foldl_nil,
        SortedTable.get?_insert_self]
    rw [World.manifest?, hheld, if_pos rfl, Option.bind_some, ConfigMap.text?_withTexts, htext, Option.some_or]

/-- A launch renders the job of its name. -/
theorem renderedJob_launched {chart space values : String} {identity : JobIdentity}
    {result : Except LifecycleError Submission} (h : Launched chart identity space values xs result) :
    renderedJob (xs.filterMap Exchange.call?) = ⟨space, identity.resolved⟩ := by
  cases h <;> rfl

/-- A call to render hands nothing over. -/
theorem not_applies_rendering {key : ObjectKey} {name space values : String} {outcome : Except InstallError String} :
    ¬(⟨key, .render name space values, outcome⟩ : JobCall).Applies job manifest := by
  rintro ⟨-, space', happly⟩
  cases happly

/-- A call to uninstall hands nothing over. -/
theorem not_applies_uninstalling {key : ObjectKey} {space removed : String} {outcome : Except InstallError String} :
    ¬(⟨key, .uninstall space removed, outcome⟩ : JobCall).Applies job manifest := by
  rintro ⟨-, space', happly⟩
  cases happly

theorem not_outstanding_uninstalling {key : ObjectKey} {space removed : String} {outcome : Except InstallError String} :
    ¬Outstanding [⟨key, .uninstall space removed, outcome⟩] job manifest := by
  rw [outstanding_cons_of_not_applies not_applies_uninstalling]
  exact not_outstanding_nil

/-- A manifest that a launch leaves outstanding is held by the record of its job, unless the launch abandons it. -/
theorem launched_outstanding {chart space values : String} {identity : JobIdentity}
    {result : Except LifecycleError Submission} (h : Launched chart identity space values xs result) (hp : w.Path xs w')
    (hout : Outstanding (callsFor ⟨space, identity.resolved⟩ xs) job manifest) :
    w'.manifest? job = some manifest ∨ Abandoned xs job manifest := by
  cases h with
  | unrendered hreleased =>
    simp only [callsFor, List.filterMap_cons, Exchange.call?, hreleased.filterMap_call?, List.map_cons, List.map_nil] at hout
    exact absurd ((outstanding_cons_of_not_applies not_applies_rendering).1 hout) not_outstanding_nil
  | unstored hreleased =>
    simp only [callsFor, List.filterMap_cons, Exchange.call?, hreleased.filterMap_call?, List.map_cons, List.map_nil] at hout
    exact absurd ((outstanding_cons_of_not_applies not_applies_rendering).1 hout) not_outstanding_nil
  | @unapplied rendered e outcome notes zs hnotes hreleased =>
    rw [callsFor, filterMap_call?_unapplied hnotes hreleased, List.map_cons,
      outstanding_cons_of_not_applies not_applies_rendering] at hout
    obtain ⟨⟨rfl, space', happly⟩, hkept⟩ | hout := outstanding_cons.1 hout
    · cases happly
      obtain ⟨w₁, hrender, hrest⟩ := World.path_cons_iff.1 hp
      obtain ⟨w₂, hpatch, hrest⟩ := World.path_cons_iff.1 hrest
      rw [← List.cons_append, ← List.cons_append] at hrest
      obtain ⟨w₃, hcalling, hrelease⟩ := World.path_append_iff.1 hrest
      have hsilent : ∀ x ∈ applied space manifest (.error e) :: uninstalled space manifest outcome :: notes,
          ¬x.Writes ⟨space, identity.resolved⟩ := by
        intro x hx
        simp only [List.mem_cons] at hx
        rcases hx with rfl | rfl | hx
        · exact not_false
        · exact not_false
        · obtain ⟨text, rfl⟩ := hnotes.cases hx
          exact not_false
      have hmanifest := manifest?_path hcalling hsilent (manifest?_populated hpatch)
      obtain ⟨rfl, -⟩ | ⟨cause, -, hheld⟩ := hreleased.path hrelease
      · cases outcome with
        | ok text => exact absurd ⟨rfl, rfl, text, rfl⟩ (hkept _ List.mem_cons_self)
        | error e' => exact .inr ⟨e, e', by simp, by simp, by simp⟩
      · rw [World.manifest?, hheld]
        exact .inl hmanifest
    · exact absurd hout not_outstanding_uninstalling
  | @started rendered text =>
    simp only [callsFor, List.filterMap_cons, List.filterMap_nil, Exchange.call?, applied, List.map_cons, List.map_nil] at hout
    rw [outstanding_cons_of_not_applies not_applies_rendering] at hout
    obtain ⟨⟨rfl, space', happly⟩, -⟩ | hout := outstanding_cons.1 hout
    · cases happly
      obtain ⟨w₁, hrender, hrest⟩ := World.path_cons_iff.1 hp
      obtain ⟨w₂, hpatch, hrest⟩ := World.path_cons_iff.1 hrest
      refine .inl (manifest?_path hrest (fun x hx => ?_) (manifest?_populated hpatch))
      rw [List.mem_singleton.1 hx]
      exact not_false
    · exact absurd hout not_outstanding_nil

theorem Abandoned.mono {ys : List Exchange} (h : Abandoned xs job manifest) (hsub : ∀ x ∈ xs, x ∈ ys) :
    Abandoned ys job manifest := by
  obtain ⟨e, e', happlied, huninstalled, hdeleted⟩ := h
  exact ⟨e, e', hsub _ happlied, hsub _ huninstalled, hsub _ hdeleted⟩

/-- What a submission that has stored a record does further on leaves the manifests that there were. -/
theorem manifest?_stored {before counting launching : List Exchange} {r : Record} {system : String}
    (hvain : ∀ x ∈ before, Registration.InVain x) (hcounted : JobIndex.Counted system counting)
    (hwrites : ∀ x ∈ launching, ∀ key, x.Writes key → key = r.key)
    (hp : w.Path (before ++ r.stored :: (counting ++ launching)) w') (h : w.manifest? job = some manifest) :
    w'.manifest? job = some manifest := by
  obtain ⟨hfree, w₁, hgrows, -, hrest⟩ := path_registered hvain hp
  obtain ⟨w₂, hcounting, hlaunching⟩ := World.path_append_iff.1 hrest
  obtain ⟨m, hm, htext⟩ := manifest?_eq_some_iff.1 h
  -- The key of the record was free, so it is that of another job.
  have hne : job ≠ r.key := by
    rintro rfl
    rw [hfree] at hm
    cases hm
  have h₁ : w₁.manifest? job = some manifest := manifest?_eq_some_iff.2 ⟨m, hgrows job m hm, htext⟩
  exact manifest?_path hlaunching (fun x hx hw => hne (hwrites x hx job hw)) (manifest?_counted hcounted hcounting h₁)

/-- A submission leaves the manifests that there were, and the record of its job holds what it leaves outstanding, unless it
abandons that. -/
theorem submitted_manifests {settings : LifecycleSettings} {request : SubmitRequest} {space : String}
    {result : Except LifecycleError Submission} (h : Submitted settings request space xs result) (hp : w.Path xs w') :
    (w.manifest? job = some manifest → w'.manifest? job = some manifest) ∧
      (Outstanding (callsFor (renderedJob (xs.filterMap Exchange.call?)) xs) job manifest →
        w'.manifest? job = some manifest ∨ Abandoned xs job manifest) := by
  cases h with
  | refused hvalues =>
    rw [World.path_nil_iff.1 hp]
    exact ⟨id, fun hout => absurd hout not_outstanding_nil⟩
  | unregistered hvain =>
    refine ⟨manifest?_path hp fun x hx => (hvain x hx).not_writes job, fun hout => ?_⟩
    rw [callsFor, Registration.filterMap_call?_of_inVain hvain] at hout
    exact absurd hout not_outstanding_nil
  | @halted values before counting index e hvalues hvain hcounted hhalted =>
    rw [← List.append_nil counting] at hp ⊢
    refine ⟨manifest?_stored hvain hcounted (by simp) hp, fun hout => ?_⟩
    rw [callsFor, filterMap_call?_registered hvain hcounted] at hout
    exact absurd hout not_outstanding_nil
  | @launched values before counting launching index text result number hvalues hvain hcounted hread htext hlaunched =>
    have hwrites : ∀ x ∈ launching, ∀ key, x.Writes key → key = (Record.candidate request.name space index).key :=
      fun x hx key hw => hlaunched.writes hx hw
    refine ⟨manifest?_stored hvain hcounted hwrites hp, fun hout => ?_⟩
    rw [callsFor, filterMap_call?_registered hvain hcounted, renderedJob_launched hlaunched] at hout
    obtain ⟨-, w₁, -, -, hrest⟩ := path_registered hvain hp
    obtain ⟨w₂, -, hlaunching⟩ := World.path_append_iff.1 hrest
    exact (launched_outstanding hlaunched hlaunching hout).imp_right fun h => Abandoned.mono h fun x hx => by simp [hx]

/-- A launch that abandons a manifest leaves it outstanding and the record gone. -/
theorem launched_abandoned {chart space values : String} {identity : JobIdentity}
    {result : Except LifecycleError Submission} {e e' : InstallError} (h : Launched chart identity space values xs result)
    (hp : w.Path xs w') (happly : (.apply job.space manifest, .error e) ∈ xs.filterMap Exchange.call?)
    (huninstall : (.uninstall job.space manifest, .error e') ∈ xs.filterMap Exchange.call?)
    (hdeleted : ⟨.deleteMap job, .ok ()⟩ ∈ xs) :
    Outstanding (callsFor ⟨space, identity.resolved⟩ xs) job manifest ∧ w'.manifest? job = none := by
  cases h with
  | unrendered hreleased =>
    simp only [List.filterMap_cons, Exchange.call?, hreleased.filterMap_call?, List.mem_singleton] at happly
    cases happly
  | unstored hreleased =>
    simp only [List.filterMap_cons, Exchange.call?, hreleased.filterMap_call?, List.mem_singleton] at happly
    cases happly
  | started => simp [Exchange.call?, applied] at huninstall
  | @unapplied rendered cause outcome notes zs hnotes hreleased =>
    rw [filterMap_call?_unapplied hnotes hreleased] at happly huninstall
    simp only [List.mem_cons, Prod.mk.injEq, InstallerCall.apply.injEq, InstallerCall.uninstall.injEq, reduceCtorEq,
      List.not_mem_nil, or_false, false_or, false_and, and_false] at happly huninstall
    obtain ⟨⟨hspace, rfl⟩, -⟩ := happly
    obtain ⟨-, rfl⟩ := huninstall
    have hremoval : ⟨.deleteMap job, .ok ()⟩ ∈ zs := by
      simp only [List.mem_cons, List.mem_append] at hdeleted
      rcases hdeleted with h | h | h | h | h | h
      · cases h
      · cases h
      · cases h
      · cases h
      · obtain ⟨text, heq⟩ := hnotes.cases h
        cases heq
      · exact h
    obtain ⟨rfl, hzs⟩ := hreleased.key_eq hremoval
    constructor
    · rw [callsFor, filterMap_call?_unapplied hnotes hreleased]
      refine outstanding_cons.2 (.inr (outstanding_cons.2 (.inl ⟨⟨rfl, space, rfl⟩, fun c hc hremoves => ?_⟩)))
      rw [List.mem_singleton.1 hc] at hremoves
      obtain ⟨-, -, text, htext⟩ := hremoves
      cases htext
    · rw [← List.cons_append, ← List.cons_append, ← List.cons_append, ← List.cons_append] at hp
      obtain ⟨w₁, -, hrelease⟩ := World.path_append_iff.1 hp
      obtain ⟨-, hheld⟩ | ⟨cause, hkept, -⟩ := hreleased.path hrelease
      · rw [World.manifest?, hheld, if_pos rfl, Option.bind_none]
      · rw [hzs] at hkept
        cases hkept

/-- A submission that abandons a manifest leaves it outstanding and the record gone. -/
theorem submitted_abandoned {settings : LifecycleSettings} {request : SubmitRequest} {space : String}
    {result : Except LifecycleError Submission} (h : Submitted settings request space xs result) (hp : w.Path xs w')
    (hab : Abandoned xs job manifest) :
    Outstanding (callsFor (renderedJob (xs.filterMap Exchange.call?)) xs) job manifest ∧ w'.manifest? job = none := by
  obtain ⟨e, e', happlied, huninstalled, hdeleted⟩ := hab
  have happly : (.apply job.space manifest, .error e) ∈ xs.filterMap Exchange.call? := List.mem_filterMap.2 ⟨_, happlied, rfl⟩
  have huninstall : (.uninstall job.space manifest, .error e') ∈ xs.filterMap Exchange.call? :=
    List.mem_filterMap.2 ⟨_, huninstalled, rfl⟩
  cases h with
  | refused hvalues => cases happlied
  | unregistered hvain =>
    rw [Registration.filterMap_call?_of_inVain hvain] at happly
    cases happly
  | @halted values before counting index e hvalues hvain hcounted hhalted =>
    rw [← List.append_nil counting, filterMap_call?_registered hvain hcounted] at happly
    cases happly
  | @launched values before counting launching index text result number hvalues hvain hcounted hread htext hlaunched =>
    obtain ⟨-, w₁, -, -, hrest⟩ := path_registered hvain hp
    obtain ⟨w₂, -, hlaunching⟩ := World.path_append_iff.1 hrest
    rw [filterMap_call?_registered hvain hcounted] at happly huninstall
    rw [callsFor, filterMap_call?_registered hvain hcounted, renderedJob_launched hlaunched]
    exact launched_abandoned hlaunched hlaunching happly huninstall (deleteMap_mem_launching hvain hcounted hdeleted)

/-- A deletion applies nothing. -/
theorem applied_not_mem {space name space' : String} {outcome : Except InstallError String} (h : Deleted space name xs) :
    applied space' manifest outcome ∉ xs := by
  intro hx
  have happly : (.apply space' manifest, outcome) ∈ xs.filterMap Exchange.call? := List.mem_filterMap.2 ⟨_, hx, rfl⟩
  cases h <;> simp [Exchange.call?, uninstalled] at happly

/-- A deletion writes to the key of its record only. -/
theorem key_eq_of_removal {space name : String} {first : Exchange} {found : Except ApiError (Option StoredMap)}
    {reply : Except ApiError Unit} {x : Exchange} {key : ObjectKey}
    (hx : x ∈ [⟨.getMap ⟨space, name⟩, found⟩, first, ⟨.deleteMap ⟨space, name⟩, reply⟩]) (hfirst : ¬first.Writes key)
    (hw : x.Writes key) :
    key = ⟨space, name⟩ := by
  simp only [List.mem_cons, List.not_mem_nil, or_false] at hx
  rcases hx with rfl | rfl | rfl
  · cases hw
  · exact absurd hw hfirst
  · cases reply with
    | ok u => exact Eq.symm hw
    | error e => cases hw

/-- A deletion hands nothing over, and takes a manifest away only when it has removed its objects. -/
theorem deleted_manifests {space name : String} (h : Deleted space name xs) (hp : w.Path xs w') :
    (w.manifest? job = some manifest → (∀ c ∈ callsFor ⟨space, name⟩ xs, ¬c.Removes job manifest) →
        w'.manifest? job = some manifest) ∧
      ¬Outstanding (callsFor ⟨space, name⟩ xs) job manifest := by
  cases h with
  | unread e =>
    refine ⟨fun hm _ => manifest?_path hp (fun x hx => ?_) hm, not_outstanding_nil⟩
    rw [List.mem_singleton.1 hx]
    exact not_false
  | absent =>
    refine ⟨fun hm _ => manifest?_path hp (fun x hx => ?_) hm, not_outstanding_nil⟩
    rw [List.mem_singleton.1 hx]
    exact not_false
  | kept e htext =>
    refine ⟨fun hm _ => manifest?_path hp (fun x hx => ?_) hm, not_outstanding_uninstalling⟩
    rcases List.mem_cons.1 hx with rfl | hx
    · exact not_false
    · rw [List.mem_singleton.1 hx]
      exact not_false
  | @bare found note reply htext =>
    refine ⟨fun hm _ => manifest?_path hp (fun x hx hw => ?_) hm, not_outstanding_nil⟩
    obtain ⟨w₁, hget, -⟩ := World.path_cons_iff.1 hp
    have hne : job ≠ ⟨space, name⟩ := by
      rintro rfl
      rw [World.manifest?, (World.getMap_cases hget).2 found rfl, Option.bind_some, htext] at hm
      cases hm
    exact hne (key_eq_of_removal hx not_false hw)
  | @removed found removed text reply htext =>
    refine ⟨fun hm hkept => manifest?_path hp (fun x hx hw => ?_) hm, not_outstanding_uninstalling⟩
    obtain ⟨w₁, hget, -⟩ := World.path_cons_iff.1 hp
    have hne : job ≠ ⟨space, name⟩ := by
      rintro rfl
      rw [World.manifest?, (World.getMap_cases hget).2 found rfl, Option.bind_some, htext] at hm
      cases hm
      exact hkept _ List.mem_cons_self ⟨rfl, rfl, text, rfl⟩
    exact hne (key_eq_of_removal hx not_false hw)

end OrphansAux

open OrphansAux

namespace Ledger

variable {l : Ledger} {o : Order}

/-- A command keeps all that is outstanding traceable, unless it abandons something. -/
theorem traceable_step (h : l.Traceable) (ho : ¬o.Abandons l.world) : (l.step o).Traceable := by
  intro job manifest hout
  cases o with
  | submit settings request space =>
    have hp := (submit settings request space).run_path l.world
    have hsubmitted := submit_yields ((submit settings request space).run_yields l.world)
    rcases outstanding_append.1 hout with ⟨hold, -⟩ | hnew
    · exact (submitted_manifests hsubmitted hp).1 (h job manifest hold)
    · exact ((submitted_manifests hsubmitted hp).2 hnew).resolve_right fun hab => ho ⟨job, manifest, hab⟩
  | delete space name =>
    have hp := (delete space name).run_path l.world
    have hdeleted := delete_yields ((delete space name).run_yields l.world)
    rcases outstanding_append.1 hout with ⟨hold, hkept⟩ | hnew
    · exact (deleted_manifests hdeleted hp).1 (h job manifest hold) hkept
    · exact absurd hnew (deleted_manifests hdeleted hp).2

/-- What a command abandons is outstanding and cannot be traced. -/
theorem not_traceable_step (ho : o.Abandons l.world) : ¬(l.step o).Traceable := by
  obtain ⟨job, manifest, hab⟩ := ho
  intro h
  cases o with
  | submit settings request space =>
    have hp := (submit settings request space).run_path l.world
    have hsubmitted := submit_yields ((submit settings request space).run_yields l.world)
    obtain ⟨hout, hnone⟩ := submitted_abandoned hsubmitted hp hab
    have hsome := h job manifest (outstanding_append.2 (.inr hout))
    exact Option.some_ne_none manifest (hsome.symm.trans hnone)
  | delete space name =>
    obtain ⟨e, e', happlied, -, -⟩ := hab
    exact applied_not_mem (delete_yields ((delete space name).run_yields l.world)) happlied

/-- Before the first command nothing is outstanding. -/
theorem traceable_start (w : World) : Traceable ⟨w, []⟩ := fun _ _ hout => absurd hout not_outstanding_nil

end Ledger

/-- Whatever fails, after every command of a run the record of each job holds what is outstanding for it, just when no command
of the run abandons a manifest. -/
theorem traceable_iff_not_abandoned (w : World) (orders : List Order) :
    (∀ before, before <+: orders → (Ledger.run ⟨w, []⟩ before).Traceable) ↔
      ∀ before o, before ++ [o] <+: orders → ¬o.Abandons (Ledger.run ⟨w, []⟩ before).world := by
  constructor
  · intro h before o hprefix hab
    have htraceable := h (before ++ [o]) hprefix
    rw [Ledger.run_append] at htraceable
    exact Ledger.not_traceable_step hab htraceable
  · intro h before hprefix
    induction before using List.reverseRecOn with
    | nil => exact Ledger.traceable_start w
    | append_singleton before o ih =>
      rw [Ledger.run_append]
      exact Ledger.traceable_step (ih ((List.prefix_append before [o]).trans hprefix)) (h before o hprefix)

/-- A job that can be neither applied nor removed is lost: what there may be of it in the cluster is outstanding, and no record
is left that tells of it. -/
theorem traceable_of_failing_installer_false :
    Outstanding (Ledger.run ⟨renderingOnly, []⟩ [.submit {} plainRequest "team-a"]).calls ⟨"team-a", "job"⟩ "kind: Job" ∧
      (Ledger.run ⟨renderingOnly, []⟩ [.submit {} plainRequest "team-a"]).world.held ⟨"team-a", "job"⟩ = none := by
  refine ⟨⟨[_], ⟨⟨"team-a", "job"⟩, .apply "team-a" "kind: Job", .error (.valuesFile "disk full")⟩,
    [⟨⟨"team-a", "job"⟩, .uninstall "team-a" "kind: Job", .error (.valuesFile "disk full")⟩], rfl, ⟨rfl, _, rfl⟩, ?_⟩, rfl⟩
  intro c hc hremoves
  rw [List.mem_singleton.1 hc] at hremoves
  obtain ⟨-, -, text, htext⟩ := hremoves
  cases htext

end TrainingJobs

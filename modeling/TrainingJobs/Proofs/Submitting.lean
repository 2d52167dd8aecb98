import TrainingJobs.Proofs.Registering
import TrainingJobs.Submission.Lifecycle

/-!
# The exchanges of a submission

What a submission and a deletion ask for, whatever replies they get. The exchanges of a submission are those of its registration,
of the counter and of its launch, and end early where one of them fails or the program crashes at the counter (`Submitted`); a launch
renders, stores and applies, and takes back what it has done (`Launched`). A deletion looks at the record first (`Deleted`).
-/

namespace TrainingJobs

variable {xs : List Exchange} {space name : String}

/-! ## The registry -/

/-- The texts of a record are those of its config map. -/
theorem Record.get?_data_ofConfigMap (name space text : String) (m : ConfigMap) :
    (Record.ofConfigMap name space m).data.get? text = m.text? text := by
  cases hdata : m.data <;> simp [Record.ofConfigMap, Record.ofLabels, ConfigMap.text?, hdata]

namespace Registry

/-- Setting texts of a record is one request. -/
theorem populate_yields {texts : Labels} {result : Except RegistryError Unit}
    (h : (populate space name texts).Yields xs result) :
    (xs = [⟨.patchMap ⟨space, name⟩ texts, .ok ()⟩] ∧ result = .ok ()) ∨
      ∃ e, xs = [⟨.patchMap ⟨space, name⟩ texts, .error e⟩] ∧ result = .error (refusal .absent (.notFound name) e) := by
  obtain ⟨reply, ys, rfl, hrest⟩ := Program.ask_andThen_yields_iff.1 h
  cases reply with
  | ok u =>
    obtain ⟨rfl, rfl⟩ := Program.done_yields_iff.1 hrest
    exact .inl ⟨rfl, rfl⟩
  | error e =>
    obtain ⟨rfl, rfl⟩ := Program.done_yields_iff.1 hrest
    exact .inr ⟨e, rfl, rfl⟩

/-- Taking a record away is one request. -/
theorem remove_yields {result : Except RegistryError Unit} (h : (remove space name).Yields xs result) :
    (xs = [⟨.deleteMap ⟨space, name⟩, .ok ()⟩] ∧ result = .ok ()) ∨
      ∃ e, xs = [⟨.deleteMap ⟨space, name⟩, .error e⟩] ∧ result = .error (refusal .absent (.notFound name) e) := by
  obtain ⟨reply, ys, rfl, hrest⟩ := Program.ask_andThen_yields_iff.1 h
  cases reply with
  | ok u =>
    obtain ⟨rfl, rfl⟩ := Program.done_yields_iff.1 hrest
    exact .inl ⟨rfl, rfl⟩
  | error e =>
    obtain ⟨rfl, rfl⟩ := Program.done_yields_iff.1 hrest
    exact .inr ⟨e, rfl, rfl⟩

/-- Looking a record up is one request. -/
theorem get?_yields {result : Except RegistryError (Option Record)} (h : (get? space name).Yields xs result) :
    (∃ found : Option StoredMap, xs = [⟨.getMap ⟨space, name⟩, .ok found⟩] ∧
        result = .ok (found.map fun stored => Record.ofConfigMap name space stored.map)) ∨
      ∃ e, xs = [⟨.getMap ⟨space, name⟩, .error e⟩] ∧ result = .error (.api e) := by
  obtain ⟨reply, ys, rfl, hrest⟩ := Program.ask_andThen_yields_iff.1 h
  cases reply with
  | ok found =>
    obtain ⟨rfl, rfl⟩ := Program.done_yields_iff.1 hrest
    exact .inl ⟨found, rfl, rfl⟩
  | error e =>
    obtain ⟨rfl, rfl⟩ := Program.done_yields_iff.1 hrest
    exact .inr ⟨e, rfl, rfl⟩

end Registry

/-! ## The counter -/

namespace JobIndex

/-- The key of the counter. -/
def key (space : String) : ObjectKey := ⟨space, mapName⟩

/-- The exchanges of one attempt at the counter: it is read, and where that succeeds and there is a next value it is written. -/
inductive Attempted (space : String) : List Exchange → Prop
  | unread (e : ApiError) : Attempted space [⟨.getMap (key space), .error e⟩]
  | created (reply : Except ApiError Unit) :
    Attempted space [⟨.getMap (key space), .ok none⟩, ⟨.createMap (key space) (withValue {} 1), reply⟩]
  | stuck (found : StoredMap) :
    following? found.map = none → Attempted space [⟨.getMap (key space), .ok (some found)⟩]
  | moved (found : StoredMap) {next : Nat} (reply : Except ApiError Unit) :
    following? found.map = some next →
    Attempted space [⟨.getMap (key space), .ok (some found)⟩,
      ⟨.replaceMap (key space) found.version (withValue found.map next), reply⟩]

/-- The counter was read at its greatest value. -/
def ReadGreatest (space : String) (xs : List Exchange) : Prop :=
  ∃ found : StoredMap, following? found.map = none ∧ ⟨.getMap (key space), .ok (some found)⟩ ∈ xs

theorem not_readGreatest_nil : ¬ReadGreatest space [] := by
  rintro ⟨found, -, hx⟩
  cases hx

theorem readGreatest_append {ys : List Exchange} :
    ReadGreatest space (xs ++ ys) ↔ ReadGreatest space xs ∨ ReadGreatest space ys := by
  simp only [ReadGreatest, List.mem_append, and_or_left, exists_or]

/-- A write does not crash. -/
theorem written_ne_crashed (n : Nat) (reply : Except ApiError Unit) : written n reply ≠ .error .crashed := by
  intro h
  cases reply with
  | ok u => cases h
  | error e =>
    rw [written] at h
    split at h <;> cases h

/-- An attempt crashes just when it reads the greatest value. -/
theorem attempt_yields {result : Except JobIndexError (Option Nat)} (h : (attempt space).Yields xs result) :
    Attempted space xs ∧ (result = .error .crashed ↔ ReadGreatest space xs) := by
  obtain ⟨reply, ys, rfl, hrest⟩ := Program.ask_andThen_yields_iff.1 h
  cases reply with
  | error e =>
    obtain ⟨rfl, rfl⟩ := Program.done_yields_iff.1 hrest
    refine ⟨.unread e, iff_of_false nofun ?_⟩
    rintro ⟨found, -, hx⟩
    cases List.mem_singleton.1 hx
  | ok found =>
    cases found with
    | none =>
      obtain ⟨reply, zs, rfl, hend⟩ := Program.ask_andThen_yields_iff.1 hrest
      obtain ⟨rfl, rfl⟩ := Program.done_yields_iff.1 hend
      refine ⟨.created reply, iff_of_false (written_ne_crashed 1 reply) ?_⟩
      rintro ⟨found, -, hx⟩
      simp at hx
    | some found =>
      dsimp only at hrest
      cases hnext : following? found.map with
      | none =>
        rw [hnext] at hrest
        obtain ⟨rfl, rfl⟩ := Program.done_yields_iff.1 hrest
        exact ⟨.stuck found hnext, iff_of_true rfl ⟨found, hnext, List.mem_cons_self⟩⟩
      | some next =>
        rw [hnext] at hrest
        obtain ⟨reply, zs, rfl, hend⟩ := Program.ask_andThen_yields_iff.1 hrest
        obtain ⟨rfl, rfl⟩ := Program.done_yields_iff.1 hend
        refine ⟨.moved found reply hnext, iff_of_false (written_ne_crashed next reply) ?_⟩
        rintro ⟨found', hnone, hx⟩
        simp only [List.mem_cons, List.not_mem_nil, or_false] at hx
        rcases hx with hx | hx
        · cases hx
          rw [hnext] at hnone
          cases hnone
        · cases congrArg Exchange.request hx

/-- The exchanges of some attempts, one after the other. -/
inductive Counted (space : String) : List Exchange → Prop
  | nil : Counted space []
  | attempt {xs ys : List Exchange} : Attempted space xs → Counted space ys → Counted space (xs ++ ys)

/-- The loop over attempts, by induction on those that are left. It crashes just when one of them does. -/
theorem nextWithin_yields {attempts left : Nat} {result : Except JobIndexError Nat}
    (h : (nextWithin space attempts left).Yields xs result) :
    Counted space xs ∧ (result = .error .crashed ↔ ReadGreatest space xs) := by
  induction left generalizing xs with
  | zero =>
    obtain ⟨rfl, rfl⟩ := Program.done_yields_iff.1 h
    exact ⟨.nil, iff_of_false nofun not_readGreatest_nil⟩
  | succ left ih =>
    obtain ⟨ys, outcome, zs, hattempt, hrest, rfl⟩ := Program.andThen_yields_iff.1 h
    obtain ⟨hattempted, hcrashed⟩ := attempt_yields hattempt
    rw [readGreatest_append, ← hcrashed]
    cases outcome with
    | error e =>
      obtain ⟨rfl, rfl⟩ := Program.done_yields_iff.1 hrest
      refine ⟨.attempt hattempted .nil, ?_⟩
      simp only [Except.error.injEq, not_readGreatest_nil, or_false]
    | ok found =>
      cases found with
      | none =>
        obtain ⟨hcounted, hlater⟩ := ih hrest
        refine ⟨.attempt hattempted hcounted, ?_⟩
        simp only [reduceCtorEq, false_or, hlater]
      | some n =>
        obtain ⟨rfl, rfl⟩ := Program.done_yields_iff.1 hrest
        refine ⟨.attempt hattempted .nil, ?_⟩
        simp only [reduceCtorEq, not_readGreatest_nil, or_false]

/-- A number of the counter comes by some attempts. -/
theorem next_yields {retries : Nat} {result : Except JobIndexError Nat} (h : (next space retries).Yields xs result) :
    Counted space xs :=
  (nextWithin_yields h).1

/-- The program crashes just when it reads the greatest value. -/
theorem next_crashed_iff {retries : Nat} {result : Except JobIndexError Nat} (h : (next space retries).Yields xs result) :
    result = .error .crashed ↔ ReadGreatest space xs :=
  (nextWithin_yields h).2

end JobIndex

/-! ## Launching -/

namespace Lifecycle

/-- What the log says of a name that could not be released. -/
def unreleasedNote (name : String) (e : ApiError) : String :=
  "Failed to release the name " ++ name ++ " after a failed submit: " ++
    (Registry.refusal .absent (.notFound name) e).message

/-- The exchanges in which a name is released: its record is taken away, or the log says that it was not. -/
inductive Released (space name : String) : List Exchange → Prop
  | gone : Released space name [⟨.deleteMap ⟨space, name⟩, .ok ()⟩]
  | kept (e : ApiError) :
    Released space name [⟨.deleteMap ⟨space, name⟩, .error e⟩, ⟨.log .warn (unreleasedNote name e), ()⟩]

theorem releaseName_yields {result : Unit} (h : (releaseName space name).Yields xs result) : Released space name xs := by
  obtain ⟨ys, removed, zs, hremove, hrest, rfl⟩ := Program.andThen_yields_iff.1 h
  obtain ⟨rfl, rfl⟩ | ⟨e, rfl, rfl⟩ := Registry.remove_yields hremove
  · obtain ⟨rfl, -⟩ := Program.done_yields_iff.1 hrest
    exact .gone
  · rw [Program.ask_yields_iff.1 hrest]
    exact .kept e

/-- The call of the installer that applies a manifest, with an outcome. -/
def applied (space manifest : String) (outcome : Except InstallError String) : Exchange :=
  ⟨.install (.apply space manifest), outcome⟩

/-- The call of the installer that removes the objects of a manifest, with an outcome. -/
def uninstalled (space manifest : String) (outcome : Except InstallError String) : Exchange :=
  ⟨.install (.uninstall space manifest), outcome⟩

/-- Applying is one call of the installer. -/
theorem apply_yields {manifest : String} {result : Except InstallError Unit}
    (h : (apply space manifest).Yields xs result) :
    ∃ outcome, xs = [applied space manifest outcome] ∧ result = outcome.map fun _ => () := by
  obtain ⟨outcome, ys, rfl, hrest⟩ := Program.ask_andThen_yields_iff.1 h
  obtain ⟨rfl, rfl⟩ := Program.done_yields_iff.1 hrest
  exact ⟨outcome, rfl, rfl⟩

/-- Removing the objects of a manifest is one call of the installer. -/
theorem uninstall_yields {manifest : String} {result : Except InstallError Unit}
    (h : (uninstall space manifest).Yields xs result) :
    ∃ outcome, xs = [uninstalled space manifest outcome] ∧ result = outcome.map fun _ => () := by
  obtain ⟨outcome, ys, rfl, hrest⟩ := Program.ask_andThen_yields_iff.1 h
  obtain ⟨rfl, rfl⟩ := Program.done_yields_iff.1 hrest
  exact ⟨outcome, rfl, rfl⟩

/-- At most a note in the log. -/
def Noted (xs : List Exchange) : Prop := xs = [] ∨ ∃ text, xs = [⟨.log .warn text, ()⟩]

/-- The exchanges after a manifest could not be applied: its objects are removed, which the log says if it fails, and the name
is released. -/
theorem release_yields {manifest : String} {result : Unit} (h : (release space name manifest).Yields xs result) :
    ∃ outcome notes zs, xs = uninstalled space manifest outcome :: (notes ++ zs) ∧
      Noted notes ∧ Released space name zs := by
  obtain ⟨ys, removed, zs, huninstall, hrest, rfl⟩ := Program.andThen_yields_iff.1 h
  obtain ⟨outcome, rfl, rfl⟩ := uninstall_yields huninstall
  cases outcome with
  | ok text => exact ⟨_, [], zs, rfl, .inl rfl, releaseName_yields hrest⟩
  | error e =>
    obtain ⟨reply, us, rfl, hend⟩ := Program.ask_andThen_yields_iff.1 hrest
    exact ⟨_, [⟨.log .warn _, ()⟩], us, rfl, .inr ⟨_, rfl⟩, releaseName_yields hend⟩

/-- The exchanges of a launch. It renders, stores the texts of the record and applies the manifest; where that fails the name is
released, and what may have been applied is removed before. -/
inductive Launched (chart : String) (identity : JobIdentity) (space values : String) :
    List Exchange → Except LifecycleError Submission → Prop
  | unrendered {e : InstallError} {zs : List Exchange} :
    Released space identity.resolved zs →
    Launched chart identity space values
      (⟨.install (.render identity.resolved space values), .error e⟩ :: zs) (.error (.install e))
  | unstored {manifest : String} {e : ApiError} {zs : List Exchange} :
    Released space identity.resolved zs →
    Launched chart identity space values
      (⟨.install (.render identity.resolved space values), .ok manifest⟩ ::
        ⟨.patchMap ⟨space, identity.resolved⟩ (texts chart values manifest), .error e⟩ :: zs)
      (.error (.registry (Registry.refusal .absent (.notFound identity.resolved) e)))
  | unapplied {manifest : String} {e : InstallError} {outcome : Except InstallError String} {notes zs : List Exchange} :
    Noted notes → Released space identity.resolved zs →
    Launched chart identity space values
      (⟨.install (.render identity.resolved space values), .ok manifest⟩ ::
        ⟨.patchMap ⟨space, identity.resolved⟩ (texts chart values manifest), .ok ()⟩ ::
        applied space manifest (.error e) :: uninstalled space manifest outcome :: (notes ++ zs))
      (.error (.install e))
  | started {manifest text : String} :
    Launched chart identity space values
      [⟨.install (.render identity.resolved space values), .ok manifest⟩,
        ⟨.patchMap ⟨space, identity.resolved⟩ (texts chart values manifest), .ok ()⟩,
        applied space manifest (.ok text)]
      (.ok ⟨identity, values⟩)

theorem launch_yields {chart values : String} {identity : JobIdentity} {result : Except LifecycleError Submission}
    (h : (launch chart identity space values).Yields xs result) : Launched chart identity space values xs result := by
  obtain ⟨rendered, ys, rfl, hrest⟩ := Program.ask_andThen_yields_iff.1 h
  cases rendered with
  | error e =>
    obtain ⟨us, _, zs, hrelease, hend, rfl⟩ := Program.andThen_yields_iff.1 hrest
    obtain ⟨rfl, rfl⟩ := Program.done_yields_iff.1 hend
    rw [List.append_nil]
    exact .unrendered (releaseName_yields hrelease)
  | ok manifest =>
    obtain ⟨us, populated, zs, hpopulate, hrest, rfl⟩ := Program.andThen_yields_iff.1 hrest
    obtain ⟨rfl, rfl⟩ | ⟨e, rfl, rfl⟩ := Registry.populate_yields hpopulate
    · obtain ⟨vs, _, ts, happly, hrest, rfl⟩ := Program.andThen_yields_iff.1 hrest
      obtain ⟨outcome, rfl, rfl⟩ := apply_yields happly
      cases outcome with
      | ok text =>
        obtain ⟨rfl, rfl⟩ := Program.done_yields_iff.1 hrest
        exact .started
      | error e =>
        obtain ⟨as, _, bs, hrelease, hend, rfl⟩ := Program.andThen_yields_iff.1 hrest
        obtain ⟨rfl, rfl⟩ := Program.done_yields_iff.1 hend
        obtain ⟨outcome, notes, cs, rfl, hnotes, hreleased⟩ := release_yields hrelease
        rw [List.append_nil]
        exact .unapplied hnotes hreleased
    · obtain ⟨vs, _, ts, hrelease, hend, rfl⟩ := Program.andThen_yields_iff.1 hrest
      obtain ⟨rfl, rfl⟩ := Program.done_yields_iff.1 hend
      rw [List.append_nil]
      exact .unstored (releaseName_yields hrelease)

/-! ## Submitting and deleting -/

/-- Why a submission ends behind some exchanges with the counter: the program crashed at its greatest value, or the values cannot be
written. -/
inductive Halted (system : String) (values : ChartValues) (counting : List Exchange) : LifecycleError → Prop
  | crashed : JobIndex.ReadGreatest system counting → Halted system values counting .crashed
  | unwritable (number : Option Nat) :
    ¬JobIndex.ReadGreatest system counting → { values with jobIndex := number }.render? = none →
    Halted system values counting .unwritableValues

/-- The exchanges of a submission. Nothing is asked for a request that is refused; where no name is granted, nothing was stored;
and a crash at the counter and values that cannot be written end it once the name is registered. -/
inductive Submitted (settings : LifecycleSettings) (request : SubmitRequest) (space : String) :
    List Exchange → Except LifecycleError Submission → Prop
  | refused {e : RequestError} : request.values = .error e → Submitted settings request space [] (.error (.request e))
  | unregistered {e : RegistrationError} {before : List Exchange} :
    (∀ x ∈ before, Registration.InVain x) → Submitted settings request space before (.error (.registration e))
  | halted {values : ChartValues} {before counting : List Exchange} {index : Nat} {e : LifecycleError} :
    request.values = .ok values → (∀ x ∈ before, Registration.InVain x) →
    JobIndex.Counted settings.systemSpace counting → Halted settings.systemSpace values counting e →
    Submitted settings request space (before ++ (Record.candidate request.name space index).stored :: counting) (.error e)
  | launched {values : ChartValues} {before counting launching : List Exchange} {index : Nat} {text : String}
    {result : Except LifecycleError Submission} (number : Option Nat) :
    request.values = .ok values → (∀ x ∈ before, Registration.InVain x) →
    JobIndex.Counted settings.systemSpace counting → ¬JobIndex.ReadGreatest settings.systemSpace counting →
    { values with jobIndex := number }.render? = some text →
    Launched settings.chart ((Record.candidate request.name space index).identity request.name) space text launching
      result →
    Submitted settings request space
      (before ++ (Record.candidate request.name space index).stored :: (counting ++ launching)) result

theorem submit_yields {settings : LifecycleSettings} {request : SubmitRequest} {result : Except LifecycleError Submission}
    (h : (submit settings request space).Yields xs result) : Submitted settings request space xs result := by
  unfold submit at h
  cases hvalues : request.values with
  | error e =>
    rw [hvalues] at h
    obtain ⟨rfl, rfl⟩ := Program.done_yields_iff.1 h
    exact .refused hvalues
  | ok values =>
    rw [hvalues] at h
    obtain ⟨ys, registered, zs, hregister, hrest, rfl⟩ := Program.andThen_yields_iff.1 h
    obtain ⟨⟨e, rfl⟩, hvain⟩ | ⟨before, index, rfl, hvain, rfl⟩ := Registration.register_yields hregister
    · obtain ⟨rfl, rfl⟩ := Program.done_yields_iff.1 hrest
      rw [List.append_nil]
      exact .unregistered hvain
    · obtain ⟨counting, number, launching, hcount, hafter, rfl⟩ := Program.andThen_yields_iff.1 hrest
      have hcounted := JobIndex.next_yields hcount
      have hcrashed := JobIndex.next_crashed_iff hcount
      rw [List.append_assoc, List.singleton_append]
      split at hafter
      · obtain ⟨rfl, rfl⟩ := Program.done_yields_iff.1 hafter
        rw [List.append_nil]
        exact .halted hvalues hvain hcounted (.crashed (hcrashed.1 rfl))
      · rename_i hnumber
        have hread : ¬JobIndex.ReadGreatest settings.systemSpace counting := mt hcrashed.2 hnumber
        generalize number.toOption.or values.jobIndex = j at hafter
        dsimp only at hafter
        cases htext : { values with jobIndex := j }.render? with
        | none =>
          rw [htext] at hafter
          obtain ⟨rfl, rfl⟩ := Program.done_yields_iff.1 hafter
          rw [List.append_nil]
          exact .halted hvalues hvain hcounted (.unwritable j hread htext)
        | some text =>
          rw [htext] at hafter
          exact .launched j hvalues hvain hcounted hread htext (launch_yields hafter)

/-- The exchanges of a deletion. It looks at the record, removes the objects of the manifest that it holds and, where there is
none or that has succeeded, takes the record away. -/
inductive Deleted (space name : String) : List Exchange → Prop
  | unread (e : ApiError) : Deleted space name [⟨.getMap ⟨space, name⟩, .error e⟩]
  | absent : Deleted space name [⟨.getMap ⟨space, name⟩, .ok none⟩]
  | kept {found : StoredMap} {manifest : String} (e : InstallError) :
    found.map.text? manifestText = some manifest →
    Deleted space name [⟨.getMap ⟨space, name⟩, .ok (some found)⟩, uninstalled space manifest (.error e)]
  | bare {found : StoredMap} (note : String) (reply : Except ApiError Unit) :
    found.map.text? manifestText = none →
    Deleted space name [⟨.getMap ⟨space, name⟩, .ok (some found)⟩, ⟨.log .warn note, ()⟩, ⟨.deleteMap ⟨space, name⟩, reply⟩]
  | removed {found : StoredMap} {manifest : String} (text : String) (reply : Except ApiError Unit) :
    found.map.text? manifestText = some manifest →
    Deleted space name [⟨.getMap ⟨space, name⟩, .ok (some found)⟩, uninstalled space manifest (.ok text),
      ⟨.deleteMap ⟨space, name⟩, reply⟩]

/-- The exchange by which the way to the removal of a record is clear: the objects of its manifest have been removed, or it holds none
and the log says so. -/
inductive Cleared (space : String) (found : StoredMap) : Exchange → Prop
  | removed {manifest : String} (text : String) : found.map.text? manifestText = some manifest →
    Cleared space found (uninstalled space manifest (.ok text))
  | bare (note : String) : found.map.text? manifestText = none → Cleared space found ⟨.log .warn note, ()⟩

/-- The exchanges of a deletion and its result. -/
inductive Ended (space name : String) : List Exchange → Except LifecycleError Unit → Prop
  | unread (e : ApiError) : Ended space name [⟨.getMap ⟨space, name⟩, .error e⟩] (.error (.registry (.api e)))
  | absent : Ended space name [⟨.getMap ⟨space, name⟩, .ok none⟩] (.error (.notFound name))
  | uncleared {found : StoredMap} {manifest : String} (e : InstallError) : found.map.text? manifestText = some manifest →
    Ended space name [⟨.getMap ⟨space, name⟩, .ok (some found)⟩, uninstalled space manifest (.error e)] (.error (.install e))
  | refused {found : StoredMap} {clearing : Exchange} (e : ApiError) : Cleared space found clearing →
    Ended space name [⟨.getMap ⟨space, name⟩, .ok (some found)⟩, clearing, ⟨.deleteMap ⟨space, name⟩, .error e⟩]
      (.error (.registry (Registry.refusal .absent (.notFound name) e)))
  | gone {found : StoredMap} {clearing : Exchange} : Cleared space found clearing →
    Ended space name [⟨.getMap ⟨space, name⟩, .ok (some found)⟩, clearing, ⟨.deleteMap ⟨space, name⟩, .ok ()⟩] (.ok ())

theorem delete_ended {result : Except LifecycleError Unit} (h : (delete space name).Yields xs result) :
    Ended space name xs result := by
  obtain ⟨ys, looked, zs, hget, hrest, rfl⟩ := Program.andThen_yields_iff.1 h
  obtain ⟨found, rfl, rfl⟩ | ⟨e, rfl, rfl⟩ := Registry.get?_yields hget
  · cases found with
    | none =>
      obtain ⟨rfl, rfl⟩ := Program.done_yields_iff.1 hrest
      exact .absent
    | some found =>
      simp only [Option.map_some, Record.get?_data_ofConfigMap] at hrest
      cases htext : found.map.text? manifestText with
      | none =>
        rw [htext] at hrest
        obtain ⟨_, us, rfl, hnone⟩ := Program.ask_andThen_yields_iff.1 hrest
        obtain ⟨_, _, us, hnothing, hremoval, rfl⟩ := Program.andThen_yields_iff.1 hnone
        obtain ⟨rfl, rfl⟩ := Program.done_yields_iff.1 hnothing
        obtain ⟨vs, _, ts, hremove, hend, rfl⟩ := Program.andThen_yields_iff.1 hremoval
        obtain ⟨rfl, rfl⟩ | ⟨e, rfl, rfl⟩ := Registry.remove_yields hremove
        · obtain ⟨rfl, rfl⟩ := Program.done_yields_iff.1 hend
          exact .gone (.bare _ htext)
        · obtain ⟨rfl, rfl⟩ := Program.done_yields_iff.1 hend
          exact .refused e (.bare _ htext)
      | some manifest =>
        rw [htext] at hrest
        obtain ⟨us, _, vs, huninstall, hremoval, rfl⟩ := Program.andThen_yields_iff.1 hrest
        obtain ⟨outcome, rfl, rfl⟩ := uninstall_yields huninstall
        cases outcome with
        | error e =>
          obtain ⟨rfl, rfl⟩ := Program.done_yields_iff.1 hremoval
          exact .uncleared e htext
        | ok text =>
          obtain ⟨vs, _, ts, hremove, hend, rfl⟩ := Program.andThen_yields_iff.1 hremoval
          obtain ⟨rfl, rfl⟩ | ⟨e, rfl, rfl⟩ := Registry.remove_yields hremove
          · obtain ⟨rfl, rfl⟩ := Program.done_yields_iff.1 hend
            exact .gone (.removed text htext)
          · obtain ⟨rfl, rfl⟩ := Program.done_yields_iff.1 hend
            exact .refused e (.removed text htext)
  · obtain ⟨rfl, rfl⟩ := Program.done_yields_iff.1 hrest
    exact .unread e

theorem Cleared.deleted {found : StoredMap} {clearing : Exchange} (h : Cleared space found clearing)
    (reply : Except ApiError Unit) :
    Deleted space name [⟨.getMap ⟨space, name⟩, .ok (some found)⟩, clearing, ⟨.deleteMap ⟨space, name⟩, reply⟩] := by
  cases h with
  | removed text htext => exact .removed text reply htext
  | bare note htext => exact .bare note reply htext

theorem delete_yields {result : Except LifecycleError Unit} (h : (delete space name).Yields xs result) :
    Deleted space name xs := by
  cases delete_ended h with
  | unread e => exact .unread e
  | absent => exact .absent
  | uncleared e htext => exact .kept e htext
  | refused e hcleared => exact hcleared.deleted _
  | gone hcleared => exact hcleared.deleted _

end Lifecycle

end TrainingJobs

import TrainingJobs.Proofs.Paths
import TrainingJobs.Registry.Registration

/-!
# The exchanges of a registration

Whatever replies it gets, a registration lists a family and tries to create records of it, in the order that `Registered` and, for
the loop over numbered names, `Tried` tell. It ends with a name just when a creation has succeeded (`Registration.register_yields`):
all its other exchanges are in vain.
-/

namespace TrainingJobs

variable {xs : List Exchange}

/-- The labels of a config map, also of one without any. -/
theorem ConfigMap.get?_labels_getD (m : ConfigMap) (label : String) : (m.labels.getD .empty).get? label = m.label? label := by
  rw [label?]
  cases m.labels <;> rfl

namespace Record

/-- The exchange in which a record is stored. -/
def stored (r : Record) : Exchange := ⟨.createMap r.key r.toConfigMap, .ok ()⟩

/-- The labels of the config map of a record are its family, its number and the mark of the registry. -/
theorem label?_toConfigMap (r : Record) (label : String) :
    r.toConfigMap.label? label =
      if label = Keys.managedByLabel then some Keys.managedByValue
      else if label = Keys.familyIndexLabel then some (toString r.familyIndex)
      else if label = Keys.familyNameLabel then some r.familyName
      else none := by
  simp only [ConfigMap.label?, toConfigMap, labels, Option.bind_some, SortedTable.ofList, SortedTable.insertAll, List.foldl,
    SortedTable.get?_insert, SortedTable.get?_empty, Std.LawfulEqOrd.compare_eq_iff_eq]

/-- The config map of a record carries its family. -/
@[simp] theorem familyName_toConfigMap (r : Record) :
    r.toConfigMap.label? Keys.familyNameLabel = some r.familyName := by
  rw [label?_toConfigMap, if_neg (by decide), if_neg (by decide), if_pos rfl]

/-- The config map of a record carries its number. -/
@[simp] theorem familyIndex_toConfigMap (r : Record) :
    r.toConfigMap.label? Keys.familyIndexLabel = some (toString r.familyIndex) := by
  rw [label?_toConfigMap, if_neg (by decide), if_pos rfl]

end Record

/-- A config map carries the mark of the registry. -/
def ConfigMap.Managed (m : ConfigMap) : Prop := m.label? Keys.managedByLabel = some Keys.managedByValue

instance (m : ConfigMap) : Decidable m.Managed := inferInstanceAs (Decidable (_ = _))

/-- Every record is stored with the mark. -/
theorem Record.managed_toConfigMap (r : Record) : r.toConfigMap.Managed := by
  rw [ConfigMap.Managed, label?_toConfigMap, if_pos rfl]

namespace Registry

/-- The exchange in which the name of a record was found taken. -/
def taken (record : Record) : Exchange := ⟨.createMap record.key record.toConfigMap, .error .conflict⟩

/-- Creating a record is one request. -/
theorem create_yields {record : Record} {result : Except RegistryError Record} (h : (create record).Yields xs result) :
    (xs = [record.stored] ∧ result = .ok record) ∨
      (xs = [taken record] ∧ result = .error (.alreadyExists record.name)) ∨
      ∃ e, e ≠ .conflict ∧ xs = [⟨.createMap record.key record.toConfigMap, .error e⟩] ∧ result = .error (.api e) := by
  obtain ⟨reply, ys, rfl, hrest⟩ := Program.ask_andThen_yields_iff.1 h
  cases reply with
  | ok u =>
    obtain ⟨rfl, rfl⟩ := Program.done_yields_iff.1 hrest
    exact .inl ⟨rfl, rfl⟩
  | error e =>
    obtain ⟨rfl, rfl⟩ := Program.done_yields_iff.1 hrest
    by_cases he : e = .conflict
    · subst he
      exact .inr (.inl ⟨rfl, by rw [refusal, if_pos rfl]⟩)
    · exact .inr (.inr ⟨e, he, rfl, by rw [refusal, if_neg he]⟩)

/-- Listing a family is one request. -/
theorem listFamily_yields {space family : String} {result : Except RegistryError (List Record)}
    (h : (listFamily space family).Yields xs result) :
    (∃ maps, xs = [⟨.listMaps space Keys.familyNameLabel family, .ok maps⟩] ∧
        result = .ok (maps.map fun e => Record.ofConfigMap e.1 space e.2)) ∨
      ∃ e, xs = [⟨.listMaps space Keys.familyNameLabel family, .error e⟩] ∧ result = .error (.api e) := by
  obtain ⟨reply, ys, rfl, hrest⟩ := Program.ask_andThen_yields_iff.1 h
  cases reply with
  | ok maps =>
    obtain ⟨rfl, rfl⟩ := Program.done_yields_iff.1 hrest
    exact .inl ⟨maps, rfl, rfl⟩
  | error e =>
    obtain ⟨rfl, rfl⟩ := Program.done_yields_iff.1 hrest
    exact .inr ⟨e, rfl, rfl⟩

end Registry

namespace Registration

/-- A listing, or a creation that failed. -/
def InVain : Exchange → Prop
  | ⟨.listMaps _ _ _, _⟩ => True
  | ⟨.createMap _ _, .error _⟩ => True
  | _ => False

theorem InVain.not_writes {x : Exchange} (h : InVain x) (key : ObjectKey) : ¬x.Writes key := by
  unfold InVain at h
  split at h
  · exact not_false
  · exact not_false
  · exact h.elim

theorem InVain.call?_eq_none {x : Exchange} (h : InVain x) : x.call? = none := by
  unfold InVain at h
  split at h
  · rfl
  · rfl
  · exact h.elim

theorem stored_not_mem_of_inVain (h : ∀ x ∈ xs, InVain x) (r : Record) : r.stored ∉ xs := fun hx => h _ hx

theorem filterMap_call?_of_inVain (h : ∀ x ∈ xs, InVain x) : xs.filterMap Exchange.call? = [] :=
  List.filterMap_eq_nil_iff.2 fun x hx => (h x hx).call?_eq_none

/-- The exchanges of a registration: all are in vain, and it fails, or all but the last, in which a record of the family was
stored that the name was granted by. -/
def Outcome (requested : JobName) (space : String) (xs : List Exchange) (result : Except RegistrationError JobIdentity) :
    Prop :=
  ((∃ e, result = .error e) ∧ ∀ x ∈ xs, InVain x) ∨
    ∃ before index, xs = before ++ [(Record.candidate requested space index).stored] ∧ (∀ x ∈ before, InVain x) ∧
      result = .ok ((Record.candidate requested space index).identity requested)

variable {requested : JobName} {space : String} {result : Except RegistrationError JobIdentity}

/-- Exchanges in vain before those of a registration change nothing about its outcome. -/
theorem Outcome.append {ys : List Exchange} (hys : ∀ x ∈ ys, InVain x) (h : Outcome requested space xs result) :
    Outcome requested space (ys ++ xs) result := by
  obtain ⟨he, hxs⟩ | ⟨before, index, rfl, hbefore, rfl⟩ := h
  · refine .inl ⟨he, fun x hx => ?_⟩
    exact (List.mem_append.1 hx).elim (hys x) (hxs x)
  · refine .inr ⟨ys ++ before, index, by rw [List.append_assoc], fun x hx => ?_, rfl⟩
    exact (List.mem_append.1 hx).elim (hys x) (hbefore x)

/-- An exchange in which the family of a name is listed. -/
def listed (requested : JobName) (space : String) (maps : List (String × ConfigMap)) : Exchange :=
  ⟨.listMaps space Keys.familyNameLabel requested.text, .ok maps⟩

/-- The record that is tried behind a listing: that of the first number that no sibling has. -/
def nextCandidate (requested : JobName) (space : String) (maps : List (String × ConfigMap)) : Record :=
  .candidate requested space (smallestUnoccupiedIndex (maps.map fun e => .ofConfigMap e.1 space e.2))

/-- The exchanges of the loop over numbered names and its result, by the attempts that are left. -/
inductive Tried (requested : JobName) (space : String) (attempts : Nat) :
    Nat → List Exchange → Except RegistrationError JobIdentity → Prop
  | exhausted : Tried requested space attempts 0 [] (.error (.exhausted requested.text attempts))
  | unlisted {left : Nat} (e : ApiError) :
    Tried requested space attempts (left + 1) [⟨.listMaps space Keys.familyNameLabel requested.text, .error e⟩]
      (.error (.registry (.api e)))
  | granted {left : Nat} (maps : List (String × ConfigMap)) :
    Tried requested space attempts (left + 1) [listed requested space maps, (nextCandidate requested space maps).stored]
      (.ok ((nextCandidate requested space maps).identity requested))
  | refused {left : Nat} (maps : List (String × ConfigMap)) {e : ApiError} : e ≠ .conflict →
    Tried requested space attempts (left + 1)
      [listed requested space maps,
        ⟨.createMap (nextCandidate requested space maps).key (nextCandidate requested space maps).toConfigMap, .error e⟩]
      (.error (.registry (.api e)))
  | lost {left : Nat} (maps : List (String × ConfigMap)) {xs : List Exchange} {result : Except RegistrationError JobIdentity} :
    Tried requested space attempts left xs result →
    Tried requested space attempts (left + 1)
      (listed requested space maps :: Registry.taken (nextCandidate requested space maps) :: xs) result

theorem registerNumbered_tried {attempts left : Nat}
    (h : (registerNumbered requested space attempts left).Yields xs result) : Tried requested space attempts left xs result := by
  induction left generalizing xs with
  | zero =>
    obtain ⟨rfl, rfl⟩ := Program.done_yields_iff.1 h
    exact .exhausted
  | succ left ih =>
    obtain ⟨_, siblings, zs, hlist, h, rfl⟩ := Program.andThen_yields_iff.1 h
    obtain ⟨maps, rfl, rfl⟩ | ⟨e, rfl, rfl⟩ := Registry.listFamily_yields hlist
    · obtain ⟨_, created, us, hcreate, h, rfl⟩ := Program.andThen_yields_iff.1 h
      obtain ⟨rfl, rfl⟩ | ⟨rfl, rfl⟩ | ⟨e, he, rfl, rfl⟩ := Registry.create_yields hcreate
      · obtain ⟨rfl, rfl⟩ := Program.done_yields_iff.1 h
        exact .granted maps
      · exact .lost maps (ih h)
      · obtain ⟨rfl, rfl⟩ := Program.done_yields_iff.1 h
        exact .refused maps he
    · obtain ⟨rfl, rfl⟩ := Program.done_yields_iff.1 h
      exact .unlisted e

/-- The exchanges of a registration and its result. -/
inductive Registered (retries : Nat) (requested : JobName) (space : String) (autoName : Bool) :
    List Exchange → Except RegistrationError JobIdentity → Prop
  | granted : Registered retries requested space autoName [(Record.candidate requested space 0).stored]
      (.ok ((Record.candidate requested space 0).identity requested))
  | refused {e : ApiError} : e ≠ .conflict →
    Registered retries requested space autoName
      [⟨.createMap (Record.candidate requested space 0).key (Record.candidate requested space 0).toConfigMap, .error e⟩]
      (.error (.registry (.api e)))
  | collided : autoName = false →
    Registered retries requested space autoName [Registry.taken (Record.candidate requested space 0)]
      (.error (.nameCollision requested.text))
  | numbered {xs : List Exchange} {result : Except RegistrationError JobIdentity} : autoName = true →
    Tried requested space retries retries xs result →
    Registered retries requested space autoName (Registry.taken (Record.candidate requested space 0) :: xs) result

theorem register_registered {retries : Nat} {autoName : Bool}
    (h : (register retries requested space autoName).Yields xs result) :
    Registered retries requested space autoName xs result := by
  obtain ⟨_, created, zs, hcreate, h, rfl⟩ := Program.andThen_yields_iff.1 h
  obtain ⟨rfl, rfl⟩ | ⟨rfl, rfl⟩ | ⟨e, he, rfl, rfl⟩ := Registry.create_yields hcreate
  · obtain ⟨rfl, rfl⟩ := Program.done_yields_iff.1 h
    exact .granted
  · cases autoName with
    | true => exact .numbered rfl (registerNumbered_tried h)
    | false =>
      obtain ⟨rfl, rfl⟩ := Program.done_yields_iff.1 h
      exact .collided rfl
  · obtain ⟨rfl, rfl⟩ := Program.done_yields_iff.1 h
    exact .refused he

/-- The loop over numbered names grants one by its last creation, or fails. -/
theorem Tried.outcome {attempts left : Nat} (h : Tried requested space attempts left xs result) :
    Outcome requested space xs result := by
  induction h with
  | exhausted => exact .inl ⟨⟨_, rfl⟩, by simp⟩
  | unlisted e => exact .inl ⟨⟨_, rfl⟩, by simp [InVain]⟩
  | granted maps => exact .inr ⟨[listed requested space maps], _, rfl, by simp [InVain, listed], rfl⟩
  | refused maps he => exact .inl ⟨⟨_, rfl⟩, by simp [InVain, listed]⟩
  | @lost left maps xs result _ ih =>
    have hattempt : ∀ x ∈ [listed requested space maps, Registry.taken (nextCandidate requested space maps)], InVain x := by
      simp [InVain, listed, Registry.taken]
    exact ih.append hattempt

/-- A registration ends with a name just when a creation has succeeded, and that was its last request. -/
theorem Registered.outcome {retries : Nat} {autoName : Bool} (h : Registered retries requested space autoName xs result) :
    Outcome requested space xs result := by
  cases h with
  | granted => exact .inr ⟨[], 0, rfl, by simp, rfl⟩
  | refused he => exact .inl ⟨⟨_, rfl⟩, by simp [InVain]⟩
  | collided hauto => exact .inl ⟨⟨_, rfl⟩, by simp [InVain, Registry.taken]⟩
  | numbered hauto htried =>
    have hbare : ∀ x ∈ [Registry.taken (Record.candidate requested space 0)], InVain x := by
      simp [InVain, Registry.taken]
    exact htried.outcome.append hbare

theorem register_yields {retries : Nat} {autoName : Bool}
    (h : (register retries requested space autoName).Yields xs result) : Outcome requested space xs result :=
  (register_registered h).outcome

/-- A registration that fails does nothing but in vain. -/
theorem Outcome.inVain (h : Outcome requested space xs result) {e : RegistrationError} (he : result = .error e) :
    ∀ x ∈ xs, InVain x := by
  subst he
  obtain ⟨-, hxs⟩ | ⟨before, index, -, -, hok⟩ := h
  · exact hxs
  · cases hok

end Registration

/-- The name `job`. -/
def JobName.job : JobName := ⟨"job", by decide, by decide, by decide⟩

end TrainingJobs

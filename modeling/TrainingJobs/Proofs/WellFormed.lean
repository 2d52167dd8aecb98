import TrainingJobs.Commands
import TrainingJobs.Proofs.AutoNaming
import TrainingJobs.Proofs.Keeping
import TrainingJobs.Proofs.Submitting

/-!
# The registry stays well formed

Clients that do commands (`Errand`) take turns in one world. Whatever they find, their programs send proper requests only
(`ProperRequest`, `Proper`): they create records of members of families, set the texts of a submission, and write to counters. So a
request of theirs keeps all config maps fit (`keeps_of_proper`), one turn keeps the crowd in order (`inOrder_step`), and all turns do
(`inOrder_run`). In order, every config map but the counters is the record of a member of a family (`ConfigMap.IsRecord`), and two of
them with the same family and number have the same name.

Numbers of families are words in labels, so the labels tell the number as long as no family outgrows a word (`World.FamiliesFit`).
-/

namespace TrainingJobs

open Lifecycle

/-! ## Commands of clients -/

/-- A command that has to do with the registry. -/
inductive Errand
  | submit (settings : LifecycleSettings) (request : SubmitRequest) (space : String) (format : OutputFormat)
  | delete (space : String) (names : List String)
  | prune (scheduler : String) (space : Option String) (olderThan : Duration)

/-- What a client does for a command. -/
def Errand.program : Errand → Commands.Command
  | .submit settings request space format => Commands.submitJob settings request space format
  | .delete space names => Commands.deleteJobs space names
  | .prune scheduler space olderThan => Commands.pruneJobs (readJobs scheduler space) olderThan

/-- A key under which one of the clients keeps its counter of jobs. -/
def IsCounter (errands : List Errand) (key : ObjectKey) : Prop :=
  ∃ settings request space format, .submit settings request space format ∈ errands ∧ key = JobIndex.key settings.systemSpace

/-! ## Records -/

/-- A config map of a name is the record of a member of a family: its name and its labels tell which, and it has no texts or those of
a submission. -/
structure ConfigMap.IsRecord (m : ConfigMap) (name : String) (family : JobName) (index : Nat) : Prop where
  named : name = candidateName family.text index
  family : m.label? Keys.familyNameLabel = some family.text
  index : m.label? Keys.familyIndexLabel = some (toString index)
  data : m.data = none ∨ ∃ chart values manifest, m.data = some (texts chart values manifest)

namespace WellFormedAux

/-- The record of a member of a family is one, as it is created. -/
theorem isRecord_candidate (family : JobName) (space : String) (index : Nat) :
    (Record.candidate family space index).toConfigMap.IsRecord (candidateName family.text index) family index where
  named := rfl
  family := Record.familyName_toConfigMap _
  index := Record.familyIndex_toConfigMap _
  data := .inl rfl

/-- The labels of what another client makes for a member of a family. -/
theorem label?_rival (family : String) (index : Nat) (label : String) :
    (Server.rival family index).label? label =
      if label = Keys.familyIndexLabel then some (toString index)
      else if label = Keys.familyNameLabel then some family else none := by
  simp only [ConfigMap.label?, Server.rival, Option.bind_some, SortedTable.ofList, SortedTable.insertAll, List.foldl,
    SortedTable.get?_insert, SortedTable.get?_empty, Std.LawfulEqOrd.compare_eq_iff_eq]

/-- What another client makes for a member of a family is its record. -/
theorem isRecord_rival (family : JobName) (index : Nat) :
    (Server.rival family.text index).IsRecord (candidateName family.text index) family index where
  named := rfl
  family := by rw [label?_rival, if_neg (by decide), if_pos rfl]
  index := by rw [label?_rival, if_pos rfl]
  data := .inl rfl

/-- The texts of a submission by name. -/
theorem get?_texts (chart values manifest name : String) :
    (texts chart values manifest).get? name =
      if name = manifestText then some manifest else if name = valuesText then some values
      else if name = chartText then some chart else none := by
  simp only [texts, SortedTable.ofList, SortedTable.insertAll, List.foldl, SortedTable.get?_insert, SortedTable.get?_empty,
    Std.LawfulEqOrd.compare_eq_iff_eq]

/-- The texts of a submission take the place of those of another one. -/
theorem insertAll_texts (chart values manifest chart' values' manifest' : String) :
    (texts chart' values' manifest').insertAll (texts chart values manifest).entries = texts chart values manifest := by
  refine SortedTable.ext_get? fun name => ?_
  rw [SortedTable.get?_insertAll, get?_texts, get?_texts]
  split
  · rfl
  · split
    · rfl
    · split <;> rfl

/-- A record with the texts of a submission set is the record of the same member. -/
theorem isRecord_withTexts {m : ConfigMap} {name : String} {family : JobName} {index : Nat} (h : m.IsRecord name family index)
    (chart values manifest : String) : (m.withTexts (texts chart values manifest)).IsRecord name family index where
  named := h.named
  family := h.family
  index := h.index
  data := by
    refine .inr ⟨chart, values, manifest, ?_⟩
    obtain hnone | ⟨chart', values', manifest', hsome⟩ := h.data
    · exact ConfigMap.data_withTexts_of_none hnone _
    · rw [ConfigMap.withTexts, hsome, Option.getD_some, insertAll_texts]

/-- From the labels of a record its member can be told, as long as its number fits a word. -/
theorem ofConfigMap_of_isRecord {m : ConfigMap} {name space : String} {family : JobName} {index : Nat}
    (h : m.IsRecord name family index) (hindex : index ≤ maxWord) :
    Record.ofConfigMap name space m = { Record.candidate family space index with data := m.data.getD .empty } := by
  rw [Record.ofConfigMap, Record.ofLabels, ConfigMap.get?_labels_getD, ConfigMap.get?_labels_getD, h.family, h.index,
    Option.getD_some, Option.bind_some, readNatural?_toString hindex, Option.getD_some, Record.candidate, h.named]

/-- Two records with the same labels of family and number have the same name. -/
theorem eq_of_isRecord {m m' : ConfigMap} {name name' : String} {family family' : JobName} {index index' : Nat}
    (h : m.IsRecord name family index) (h' : m'.IsRecord name' family' index')
    (hfamily : m.label? Keys.familyNameLabel = m'.label? Keys.familyNameLabel)
    (hindex : m.label? Keys.familyIndexLabel = m'.label? Keys.familyIndexLabel) : name = name' := by
  rw [h.family, h'.family] at hfamily
  rw [h.index, h'.index] at hindex
  rw [h.named, h'.named, Option.some.inj hfamily, toString_inj (Option.some.inj hindex)]

/-! ## Programs that keep to records -/

variable {counter : ObjectKey → Prop} {fits : Nat → Prop}

/-- What lies under a key: that of a counter, or the record of a member of a family with a number that fits. -/
def Fit (counter : ObjectKey → Prop) (fits : Nat → Prop) (key : ObjectKey) (m : ConfigMap) : Prop :=
  counter key ∨ ∃ family index, fits index ∧ m.IsRecord key.name family index

/-- A request lists the records of a family, creates one, sets the texts of a submission, or writes to a counter. -/
def ProperRequest (counter : ObjectKey → Prop) (fits : Nat → Prop) : Request → Prop
  | .createMap key map =>
    counter key ∨ ∃ family space index, fits index ∧ key.name = candidateName family.text index ∧
      map = (Record.candidate family space index).toConfigMap
  | .listMaps _ label value => label = Keys.familyNameLabel ∧ ∃ family : JobName, value = family.text
  | .replaceMap key _ _ => counter key
  | .patchMap _ given => ∃ chart values manifest, given = texts chart values manifest
  | _ => True

/-- A listing tells of so many records only that the next number fits. -/
def FitReply (fits : Nat → Prop) : (r : Request) → r.Reply → Prop
  | .listMaps _ _ _, .ok found => ∀ i, i ≤ found.length + 1 → fits i
  | _, _ => True

/-- A program sends such requests only, whatever replies it gets, as long as they fit. -/
def Proper {α : Type} (counter : ObjectKey → Prop) (fits : Nat → Prop) : Program α → Prop
  | .done _ => True
  | .send r next => ProperRequest counter fits r ∧ ∀ reply, FitReply fits r reply → Proper counter fits (next reply)

variable {α β : Type}

theorem proper_andThen {p : Program α} {f : α → Program β} (hp : Proper counter fits p) (hf : ∀ a, Proper counter fits (f a)) :
    Proper counter fits (p.andThen f) := by
  induction p with
  | done a => exact hf a
  | send r next ih => exact ⟨hp.1, fun reply hreply => ih reply (hp.2 reply hreply)⟩

/-- A proper request stores what fits, and so do others that race with it. -/
theorem keeps_of_proper {r : Request} {s : Server} (h : ProperRequest counter fits r)
    (hfits : ∀ space family i, i ≤ (s.labelled space Keys.familyNameLabel family).length + 1 → fits i) :
    r.Keeps (Fit counter fits) s := by
  cases r with
  | createMap key map =>
    obtain hcounter | ⟨family, space, index, hindex, hname, rfl⟩ := h
    · exact .inl hcounter
    · refine .inr ⟨family, index, hindex, ?_⟩
      rw [hname]
      exact isRecord_candidate family space index
  | listMaps space label value =>
    obtain ⟨rfl, family, rfl⟩ := h
    exact fun i hi => .inr ⟨family, i, hfits _ _ i hi, isRecord_rival family i⟩
  | replaceMap key version map => exact .inl h
  | patchMap key given =>
    obtain ⟨chart, values, manifest, rfl⟩ := h
    rintro m (hcounter | ⟨family, index, hindex, hrecord⟩)
    · exact .inl hcounter
    · exact .inr ⟨family, index, hindex, isRecord_withTexts hrecord chart values manifest⟩
  | getMap | deleteMap | listObjects | install | query | log | print | now => trivial

/-- A listing that succeeds finds the config maps that have the label. -/
theorem eq_labelled_of_answer {w w' : World} {space label value : String} {found : List (String × ConfigMap)}
    (h : w.answer (.listMaps space label value) = (.ok found, w')) : found = w.server.labelled space label value := by
  change w.contact (·.list space label value) = (.ok found, w') at h
  obtain ⟨hunreachable, -⟩ | h := World.contact_cases h
  · cases hunreachable
  · obtain ⟨faults, ⟨status, herror, -⟩ | h⟩ := Server.serve_cases h
    · cases herror
    · exact (Except.ok.inj (Prod.mk.inj h).1).symm

/-- The replies of a world fit as long as its families do. -/
theorem fitReply_answer {w : World} (r : Request) (h : ProperRequest counter fits r)
    (hfits : ∀ space family i, i ≤ (w.server.labelled space Keys.familyNameLabel family).length + 1 → fits i) :
    FitReply fits r (w.answer r).1 := by
  cases r with
  | listMaps space label value =>
    obtain ⟨rfl, family, rfl⟩ := h
    cases hanswer : w.answer (.listMaps space Keys.familyNameLabel family.text) with
    | mk reply w' =>
      cases reply with
      | error e => trivial
      | ok found =>
        intro i hi
        rw [eq_labelled_of_answer hanswer] at hi
        exact hfits space family.text i hi
  | _ => trivial

/-! ### Registering -/

theorem proper_create {family : JobName} {space : String} {index : Nat} (hindex : fits index) :
    Proper counter fits (Registry.create (Record.candidate family space index)) := by
  refine ⟨.inr ⟨family, space, index, hindex, rfl, rfl⟩, fun reply _ => ?_⟩
  cases reply <;> trivial

/-- Behind a listing of a family only so many siblings have to be reckoned with that the next number fits. -/
theorem proper_listFamily_andThen {space : String} {family : JobName} {f : Except RegistryError (List Record) → Program β}
    (herror : ∀ e, Proper counter fits (f (.error e)))
    (hok : ∀ siblings, fits (smallestUnoccupiedIndex siblings) → Proper counter fits (f (.ok siblings))) :
    Proper counter fits ((Registry.listFamily space family.text).andThen f) := by
  refine ⟨⟨rfl, family, rfl⟩, fun reply hreply => ?_⟩
  cases reply with
  | error e => exact herror (.api e)
  | ok maps =>
    refine hok (maps.map fun e => Record.ofConfigMap e.1 space e.2) (hreply _ ?_)
    have hle := smallestUnoccupiedIndex_le (maps.map fun e => Record.ofConfigMap e.1 space e.2)
    rwa [List.length_map] at hle

theorem proper_registerNumbered (requested : JobName) (space : String) (attempts left : Nat) :
    Proper counter fits (Registration.registerNumbered requested space attempts left) := by
  induction left with
  | zero => trivial
  | succ left ih =>
    refine proper_listFamily_andThen (fun e => trivial) fun siblings hindex => ?_
    refine proper_andThen (proper_create hindex) fun created => ?_
    match created with
    | .ok record => trivial
    | .error (.alreadyExists name) => exact ih
    | .error (.notFound name) => trivial
    | .error (.api e) => trivial

theorem proper_register (hzero : fits 0) (retries : Nat) (requested : JobName) (space : String) (autoName : Bool) :
    Proper counter fits (Registration.register retries requested space autoName) := by
  refine proper_andThen (proper_create hzero) fun created => ?_
  match created with
  | .ok record => trivial
  | .error (.alreadyExists name) =>
    cases autoName with
    | true => exact proper_registerNumbered requested space retries retries
    | false => trivial
  | .error (.notFound name) => trivial
  | .error (.api e) => trivial

/-! ### Single requests -/

theorem proper_ask {r : Request} (h : ProperRequest counter fits r) : Proper counter fits (Program.ask r) :=
  ⟨h, fun _ _ => trivial⟩

theorem proper_populate (space name chart values manifest : String) :
    Proper counter fits (Registry.populate space name (texts chart values manifest)) := by
  refine proper_andThen (proper_ask ⟨chart, values, manifest, rfl⟩) fun reply => ?_
  cases reply <;> trivial

theorem proper_remove (space name : String) : Proper counter fits (Registry.remove space name) := by
  refine proper_andThen (proper_ask trivial) fun reply => ?_
  cases reply <;> trivial

theorem proper_get? (space name : String) : Proper counter fits (Registry.get? space name) := by
  refine proper_andThen (proper_ask trivial) fun reply => ?_
  cases reply <;> trivial

theorem proper_uninstall (space manifest : String) : Proper counter fits (uninstall space manifest) :=
  proper_andThen (proper_ask trivial) fun _ => trivial

theorem proper_forM_printLine (lines : List String) : Proper counter fits (lines.forM Program.printLine) := by
  induction lines with
  | nil => trivial
  | cons line rest ih => exact proper_andThen (proper_ask trivial) fun _ => ih

/-! ### The counter -/

theorem proper_nextWithin {space : String} (hcounter : counter (JobIndex.key space)) (attempts left : Nat) :
    Proper counter fits (JobIndex.nextWithin space attempts left) := by
  have hattempt : Proper counter fits (JobIndex.attempt space) := by
    refine proper_andThen (proper_ask trivial) fun reply => ?_
    match reply with
    | .error e => trivial
    | .ok none => exact proper_andThen (proper_ask (.inl hcounter)) fun _ => trivial
    | .ok (some found) =>
      dsimp only
      cases JobIndex.following? found.map with
      | none => trivial
      | some next => exact proper_andThen (proper_ask hcounter) fun _ => trivial
  induction left with
  | zero => trivial
  | succ left ih =>
    refine proper_andThen hattempt fun outcome => ?_
    match outcome with
    | .ok (some n) => trivial
    | .ok none => exact ih
    | .error e => trivial

/-! ### Submitting -/

theorem proper_releaseName (space name : String) : Proper counter fits (releaseName space name) := by
  refine proper_andThen (proper_remove space name) fun removed => ?_
  match removed with
  | .ok () => trivial
  | .error e => exact proper_ask trivial

theorem proper_release (space name manifest : String) : Proper counter fits (release space name manifest) := by
  refine proper_andThen (proper_uninstall space manifest) fun removed => ?_
  match removed with
  | .ok () => exact proper_releaseName space name
  | .error e => exact proper_andThen (proper_ask trivial) fun _ => proper_releaseName space name

theorem proper_launch (chart : String) (identity : JobIdentity) (space values : String) :
    Proper counter fits (launch chart identity space values) := by
  refine proper_andThen (proper_ask trivial) fun rendered => ?_
  match rendered with
  | .error e => exact proper_andThen (proper_releaseName _ _) fun _ => trivial
  | .ok manifest =>
    refine proper_andThen (proper_populate _ _ _ _ _) fun populated => ?_
    match populated with
    | .error e => exact proper_andThen (proper_releaseName _ _) fun _ => trivial
    | .ok () =>
      refine proper_andThen (proper_andThen (proper_ask trivial) fun _ => trivial) fun applied => ?_
      match applied with
      | .ok () => trivial
      | .error e => exact proper_andThen (proper_release _ _ _) fun _ => trivial

theorem proper_submit (hzero : fits 0) {settings : LifecycleSettings} (hcounter : counter (JobIndex.key settings.systemSpace))
    (request : SubmitRequest) (space : String) : Proper counter fits (submit settings request space) := by
  unfold submit
  cases request.values with
  | error e => trivial
  | ok values =>
    refine proper_andThen (proper_register hzero _ _ _ _) fun registered => ?_
    cases registered with
    | error e => trivial
    | ok identity =>
      refine proper_andThen (proper_nextWithin hcounter _ _) fun index => ?_
      split
      · trivial
      · dsimp only
        cases { values with jobIndex := index.toOption.or values.jobIndex }.render? with
        | none => trivial
        | some text => exact proper_launch _ _ _ _

/-! ### Deleting and pruning -/

theorem proper_delete (space name : String) : Proper counter fits (delete space name) := by
  refine proper_andThen (proper_get? space name) fun looked => ?_
  cases looked with
  | error e => trivial
  | ok found =>
    cases found with
    | none => trivial
    | some record =>
      dsimp only
      cases record.data.get? manifestText with
      | none =>
        refine proper_andThen (proper_ask trivial) fun _ => ?_
        rw [Program.pure_eq, Program.bind_eq, Program.done_andThen]
        refine proper_andThen (proper_remove space name) fun removed => ?_
        cases removed <;> trivial
      | some manifest =>
        refine proper_andThen (proper_uninstall space manifest) fun uninstalled => ?_
        cases uninstalled with
        | error e => trivial
        | ok u =>
          refine proper_andThen (proper_remove space name) fun removed => ?_
          cases removed <;> trivial

theorem proper_deleteEach (space : String) (names : List String) : Proper counter fits (Commands.deleteEach space names) := by
  induction names with
  | nil => trivial
  | cons name rest ih =>
    refine proper_andThen (proper_delete space name) fun deleted => ?_
    match deleted with
    | .ok () => exact proper_andThen (proper_ask trivial) fun _ => ih
    | .error e => exact proper_andThen (proper_ask trivial) fun _ => proper_andThen ih fun _ => trivial

theorem proper_pruneEach (jobs : List JobView) : Proper counter fits (Commands.pruneEach jobs) := by
  induction jobs with
  | nil => trivial
  | cons job rest ih =>
    refine proper_andThen (proper_delete _ _) fun deleted => ?_
    match deleted with
    | .ok () => exact proper_andThen ih fun _ => trivial
    | .error (.notFound name) => exact proper_andThen (proper_ask trivial) fun _ => ih
    | .error (.request e) => trivial
    | .error .unwritableValues => trivial
    | .error (.registration e) => trivial
    | .error (.registry e) => trivial
    | .error (.install e) => trivial
    | .error .crashed => trivial

theorem proper_readJobs (scheduler : String) (space : Option String) : Proper counter fits (readJobs scheduler space) := by
  refine proper_andThen (proper_ask trivial) fun jobs => proper_andThen (proper_ask trivial) fun sets =>
    proper_andThen (proper_ask trivial) fun pods => ?_
  have hnotes : ∀ reading : Noting (List Workload × List Pod), Proper counter fits (Reader.withNotes reading) := by
    intro reading
    unfold Reader.withNotes
    generalize reading.run.run [] = outcome
    obtain ⟨result, notes⟩ := outcome
    have hwarn : Proper counter fits (notes.forM Program.warn) := by
      induction notes with
      | nil => trivial
      | cons text rest ih => exact proper_andThen (proper_ask trivial) fun _ => ih
    refine proper_andThen hwarn fun _ => ?_
    cases result <;> trivial
  split
  · trivial
  · trivial
  · trivial
  · refine proper_andThen (proper_ask trivial) fun now => proper_andThen (hnotes _) fun read => ?_
    cases read <;> trivial

/-- Every command is proper. -/
theorem proper_program (hzero : fits 0) {errands : List Errand} {errand : Errand} (h : errand ∈ errands) :
    Proper (IsCounter errands) fits errand.program := by
  cases errand with
  | submit settings request space format =>
    have hcounter : IsCounter errands (JobIndex.key settings.systemSpace) := ⟨settings, request, space, format, h, rfl⟩
    refine proper_andThen (proper_submit hzero hcounter request space) fun submitted => ?_
    cases submitted with
    | error e => cases e <;> trivial
    | ok submission => exact proper_andThen (proper_forM_printLine _) fun _ => trivial
  | delete space names =>
    refine proper_andThen (proper_deleteEach space names) fun failures => ?_
    split <;> trivial
  | prune scheduler space olderThan =>
    have hprune : Proper (IsCounter errands) fits (Commands.prune (readJobs scheduler space) olderThan) := by
      refine proper_andThen (proper_readJobs scheduler space) fun read => ?_
      cases read with
      | error e => trivial
      | ok snapshot => exact proper_pruneEach _
    refine proper_andThen hprune fun pruned => ?_
    cases pruned with
    | error e => trivial
    | ok names => exact proper_andThen (proper_forM_printLine _) fun _ => trivial

/-! ## Crowds -/

/-- All config maps are fit, and what the clients still have to do is proper. -/
structure InOrder (counter : ObjectKey → Prop) (fits : Nat → Prop) (c : Crowd α) : Prop where
  only : c.world.server.Only (Fit counter fits)
  clients : ∀ p ∈ c.clients, Proper counter fits p

/-- A turn of a client keeps order, as long as the families fit. -/
theorem inOrder_step {c : Crowd α} (h : InOrder counter fits c)
    (hfits : ∀ space family i, i ≤ (c.world.server.labelled space Keys.familyNameLabel family).length + 1 → fits i) (i : Nat) :
    InOrder counter fits (c.step (.client i)) := by
  obtain hs | ⟨j, r, next, -, hj, hs⟩ | ⟨deed, hdeed, -⟩ := c.step_cases (.client i)
  · rw [hs]
    exact h
  · rw [hs]
    obtain ⟨hproper, hnext⟩ := h.clients _ (List.mem_of_getElem? hj)
    refine ⟨World.only_answer h.only (keeps_of_proper hproper hfits), fun p hp => ?_⟩
    rcases List.mem_or_eq_of_mem_set hp with hp | rfl
    · exact h.clients p hp
    · exact hnext _ (fitReply_answer r hproper hfits)
  · cases hdeed

/-- The turns of clients keep order, as long as the families fit all the time. -/
theorem inOrder_run {c : Crowd α} (h : InOrder counter fits c) (turns : List Nat)
    (hfits : ∀ before, before <+: turns → ∀ space family i,
      i ≤ ((c.run (before.map .client)).world.server.labelled space Keys.familyNameLabel family).length + 1 → fits i) :
    InOrder counter fits (c.run (turns.map .client)) := by
  induction turns generalizing c with
  | nil => exact h
  | cons i rest ih =>
    refine ih (inOrder_step h (hfits [] (List.nil_prefix)) i) fun before hbefore => ?_
    exact hfits (i :: before) (List.prefix_cons_inj i |>.2 hbefore)

end WellFormedAux

open WellFormedAux

/-- A world after some turns of clients that do their commands in it. -/
def World.afterErrands (w : World) (errands : List Errand) (turns : List Nat) : World :=
  ((Crowd.mk w (errands.map Errand.program)).run (turns.map .client)).world

/-- No family ever has so many members that the next number would not fit a word. -/
def World.FamiliesFit (w : World) (errands : List Errand) (turns : List Nat) : Prop :=
  ∀ before, before <+: turns → ∀ space family,
    ((w.afterErrands errands before).server.labelled space Keys.familyNameLabel family).length < maxWord

/-- The registry stays well formed. However commands of any clients take turns from an empty store on, whatever fails and whoever
registers names in between, every config map but the counters is the record of a member of a family, and can be told to be so by its
labels as long as numbers fit a word. No two records of a namespace have the same family and number. -/
theorem registry_well_formed (w : World) (errands : List Errand) (turns : List Nat) (hempty : w.server.maps = .empty)
    (hraces : ∀ race ∈ w.server.races, ∃ family index, index ≤ maxWord ∧ race.2.IsRecord race.1 family index) :
    (∀ key m, (w.afterErrands errands turns).held key = some m → ¬IsCounter errands key →
      ∃ family index, m.map.IsRecord key.name family index ∧
        (w.FamiliesFit errands turns → Record.ofConfigMap key.name key.space m.map =
          { Record.candidate family key.space index with data := m.map.data.getD .empty })) ∧
      ∀ key key' m m', (w.afterErrands errands turns).held key = some m → (w.afterErrands errands turns).held key' = some m' →
        ¬IsCounter errands key → ¬IsCounter errands key' → key.space = key'.space →
        m.map.label? Keys.familyNameLabel = m'.map.label? Keys.familyNameLabel →
        m.map.label? Keys.familyIndexLabel = m'.map.label? Keys.familyIndexLabel → key = key' := by
  have hstart : InOrder (IsCounter errands) (fun i => w.FamiliesFit errands turns → i ≤ maxWord)
      (Crowd.mk w (errands.map Errand.program)) := by
    refine ⟨⟨fun key m hm => ?_, fun race hrace space => ?_⟩, fun p hp => ?_⟩
    · change w.server.maps.get? key = some m at hm
      rw [hempty] at hm
      cases hm
    · obtain ⟨family, index, hindex, hrecord⟩ := hraces race hrace
      exact .inr ⟨family, index, fun _ => hindex, hrecord⟩
    · obtain ⟨errand, herrand, rfl⟩ := List.mem_map.1 hp
      exact proper_program (fun _ => Nat.zero_le _) herrand
  have hend := inOrder_run hstart turns fun before hbefore space family i hi hfit =>
    Nat.le_trans hi (hfit before hbefore space family)
  have hrecord : ∀ key m, (w.afterErrands errands turns).held key = some m → ¬IsCounter errands key →
      ∃ family index, (w.FamiliesFit errands turns → index ≤ maxWord) ∧ m.map.IsRecord key.name family index := by
    intro key m hm hcounter
    obtain hc | hrecord := hend.only.held key m hm
    · exact absurd hc hcounter
    · exact hrecord
  constructor
  · intro key m hm hcounter
    obtain ⟨family, index, hindex, hrecord⟩ := hrecord key m hm hcounter
    exact ⟨family, index, hrecord, fun hfit => ofConfigMap_of_isRecord hrecord (hindex hfit)⟩
  · intro key key' m m' hm hm' hcounter hcounter' hspace hfamily hindex
    obtain ⟨family, index, -, hrecord₁⟩ := hrecord key m hm hcounter
    obtain ⟨family', index', -, hrecord₂⟩ := hrecord key' m' hm' hcounter'
    have hname := eq_of_isRecord hrecord₁ hrecord₂ hfamily hindex
    cases key
    cases key'
    cases hspace
    cases hname
    rfl

/-- A world in which another client is about to register the name `job`, and the first patch fails. -/
def aboutToRace : World :=
  { server :=
      { races := [("job", (Record.candidate .job "team-a" 0).toConfigMap)]
        faults := [{ verb := .patch }] } }

/-- Two submissions of that name, which may get a number. -/
def twoSubmissions : List Errand :=
  let request : SubmitRequest := { name := .job, autoName := true, image := "ubuntu", project := "team-a" }
  [.submit {} request "team-a" .table, .submit {} request "team-a" .table]

/-- They take turns. -/
def alternating : List Nat := (List.replicate 12 [0, 1]).flatten

/-- In the meantime there are few config maps. -/
theorem familiesFit_twoSubmissions : aboutToRace.FamiliesFit twoSubmissions alternating := by
  have hfew : ∀ n < alternating.length + 1,
      (aboutToRace.afterErrands twoSubmissions (alternating.take n)).server.maps.entries.length ≤ 4 := by decide +kernel
  intro before hbefore space family
  have hlabelled :
      ((aboutToRace.afterErrands twoSubmissions before).server.labelled space Keys.familyNameLabel family).length ≤ 4 := by
    rw [Server.labelled, List.length_map]
    rw [List.prefix_iff_eq_take.1 hbefore]
    exact Nat.le_trans (List.length_filter_le _ _) (hfew before.length (Nat.lt_succ_of_le hbefore.length_le))
  have hword : 4 < maxWord := by decide
  exact Nat.lt_of_le_of_lt hlabelled hword

/-- Another client has the bare name, one of the two submissions stays with its texts under a number, and its record is told by its
labels. -/
theorem registry_well_formed_after_race :
    aboutToRace.server.maps = .empty ∧
      (∀ race ∈ aboutToRace.server.races, ∃ family index, index ≤ maxWord ∧ race.2.IsRecord race.1 family index) ∧
      ∃ m, (aboutToRace.afterErrands twoSubmissions alternating).held ⟨"team-a", "job-2"⟩ = some m ∧ m.map.data ≠ none ∧
        ∃ family index, m.map.IsRecord "job-2" family index ∧
          Record.ofConfigMap "job-2" "team-a" m.map =
            { Record.candidate family "team-a" index with data := m.map.data.getD .empty } := by
  have hraces : ∀ race ∈ aboutToRace.server.races, ∃ family index, index ≤ maxWord ∧ race.2.IsRecord race.1 family index := by
    intro race hrace
    obtain rfl := List.mem_singleton.1 hrace
    exact ⟨.job, 0, Nat.zero_le _, isRecord_candidate .job "team-a" 0⟩
  have hcounter : ¬IsCounter twoSubmissions ⟨"team-a", "job-2"⟩ := by
    rintro ⟨settings, request, space, format, hmem, hkey⟩
    have hsettings : settings = {} := by
      simp only [twoSubmissions, List.mem_cons, List.not_mem_nil, or_false, or_self, Errand.submit.injEq] at hmem
      exact hmem.1
    rw [hsettings] at hkey
    exact absurd hkey (by decide)
  have htexts : (((aboutToRace.afterErrands twoSubmissions alternating).held ⟨"team-a", "job-2"⟩).bind (·.map.data)).isSome := by
    decide +kernel
  obtain ⟨texts, htexts⟩ := Option.isSome_iff_exists.1 htexts
  obtain ⟨m, hm, hdata⟩ := Option.bind_eq_some_iff.1 htexts
  obtain ⟨family, index, hrecord, htold⟩ :=
    (registry_well_formed aboutToRace twoSubmissions alternating rfl hraces).1 _ m hm hcounter
  exact ⟨rfl, hraces, m, hm, by rw [hdata]; exact Option.some_ne_none _, family, index, hrecord, htold familiesFit_twoSubmissions⟩

end TrainingJobs

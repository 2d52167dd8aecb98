import Mathlib
import TrainingJobs.Proofs.SubmittingPaths

/-!
# Submissions that fail

A submission that fails takes back what it has done (`Undone`): its name is free again, or the log says that it is not. There is
one exception (`submit_undone_iff`). Values that cannot be written are found out only when the name is registered, and then the
submission ends without a release (`submit_unwritable_false`). A program that crashes at the counter has failed at nothing, and takes
nothing back either.
-/

namespace TrainingJobs

/-! ## Values that cannot be written -/

namespace Yaml

/-- Entries can be written when their keys and their values can. -/
theorem areWritable_iff (entries : List (Yaml × Yaml)) :
    areWritable entries = true ↔ ∀ e ∈ entries, isWritable e.1 = true ∧ isWritable e.2 = true := by
  induction entries with
  | nil => simp [areWritable]
  | cons e rest ih =>
    obtain ⟨key, value⟩ := e
    simp [areWritable, ih, and_assoc]

/-- A mapping by texts can be written just when its values can: no key of it has a tag or is a mapping. -/
theorem isWritable_mapping_iff (entries : List (String × Yaml)) :
    isWritable (.mapping (entries.map fun e => (.string e.1, e.2))) = true ↔ ∀ e ∈ entries, isWritable e.2 = true := by
  have h : isWritable (.mapping (entries.map fun e => (.string e.1, e.2))) =
      areWritable (entries.map fun e => (.string e.1, e.2)) := by
    rcases entries with _ | ⟨⟨key, value⟩, _ | ⟨_, _⟩⟩ <;> simp [isWritable]
  rw [h, areWritable_iff]
  constructor
  · intro hall e he
    exact (hall (.string e.1, e.2) (List.mem_map.2 ⟨e, he, rfl⟩)).2
  · intro hall e he
    obtain ⟨e', he', rfl⟩ := List.mem_map.1 he
    exact ⟨rfl, hall e' he'⟩

end Yaml

namespace ChartValues

variable {v : ChartValues}

theorem isWritable_of_mem_optional {α : Type} {name : String} {write : α → Yaml} {o : Option α} {e : String × Yaml}
    (hwrite : ∀ a, (write a).isWritable = true) (he : e ∈ optional name write o) : e.2.isWritable = true := by
  cases o with
  | none => cases he
  | some a =>
    rw [List.mem_singleton.1 he]
    exact hwrite a

/-- The environment is a mapping of texts. -/
theorem isWritable_environment (environment : SortedTable String String) :
    (Yaml.mapping (environment.entries.map fun e => (.string e.1, .string e.2))).isWritable = true := by
  have h := Yaml.isWritable_mapping_iff (environment.entries.map fun e => (e.1, .string e.2))
  rw [List.map_map] at h
  refine h.2 fun e he => ?_
  obtain ⟨pair, -, rfl⟩ := List.mem_map.1 he
  rfl

/-- The fields of the values can always be written. -/
theorem isWritable_of_mem_fields {e : String × Yaml} (he : e ∈ v.fields) : e.2.isWritable = true := by
  simp only [fields, List.mem_append, List.mem_singleton] at he
  rcases he with (((((((((((rfl | he) | he) | he) | he) | he) | he) | he) | rfl) | he) | rfl) | he)
  · rfl
  · exact isWritable_of_mem_optional (fun _ => rfl) he
  · exact isWritable_of_mem_optional (fun _ => rfl) he
  · exact isWritable_of_mem_optional (fun _ => rfl) he
  · exact isWritable_of_mem_optional (fun _ => rfl) he
  · exact isWritable_of_mem_optional (fun _ => rfl) he
  · exact isWritable_of_mem_optional (fun _ => rfl) he
  · split at he
    · cases he
    · rw [List.mem_singleton.1 he]
      exact isWritable_environment v.environment
  · rfl
  · exact isWritable_of_mem_optional (fun _ => rfl) he
  · rfl
  · exact isWritable_of_mem_optional (fun _ => rfl) he

/-- Values cannot be written just when one of the extra values cannot. -/
theorem render?_eq_none_iff (v : ChartValues) :
    v.render? = none ↔ ∃ e ∈ v.extra.entries, e.2.isWritable = false := by
  have hall : v.toYaml.isWritable = true ↔ ∀ e ∈ v.extra.entries, e.2.isWritable = true := by
    rw [toYaml, Yaml.isWritable_mapping_iff]
    simp only [entries, List.mem_append]
    constructor
    · intro h e he
      exact h e (.inr he)
    · rintro h e (he | he)
      · exact isWritable_of_mem_fields he
      · exact h e he
  by_cases hw : v.toYaml.isWritable = true
  · simp only [render?, Yaml.render?, if_pos hw, reduceCtorEq, false_iff]
    rintro ⟨e, he, hfalse⟩
    exact Bool.false_ne_true (hfalse.symm.trans (hall.1 hw e he))
  · simp only [render?, Yaml.render?, if_neg hw, true_iff]
    simpa using mt hall.2 hw

end ChartValues

/-! ## What a failed submission leaves -/

namespace Lifecycle

/-- The record under a key could not be taken away, and the log says so. -/
def Unreleased (xs : List Exchange) (key : ObjectKey) : Prop :=
  ∃ e, ⟨.deleteMap key, .error e⟩ ∈ xs ∧ ⟨.log .warn (unreleasedNote key.name e), ()⟩ ∈ xs

/-- The calls of the installer of a submission that failed, with their outcomes. A manifest is removed just when it could not be
applied. -/
inductive CallsTakenBack : List (InstallerCall × Except InstallError String) → Prop
  | none : CallsTakenBack []
  | unrendered (name space values : String) (e : InstallError) : CallsTakenBack [(.render name space values, .error e)]
  | unapplied (name space values manifest : String) : CallsTakenBack [(.render name space values, .ok manifest)]
  | removed (name space values manifest : String) (e : InstallError) (outcome : Except InstallError String) :
    CallsTakenBack [(.render name space values, .ok manifest), (.apply space manifest, .error e),
      (.uninstall space manifest, outcome)]

/-- A submission that failed with some exchanges has taken back what it did: beside the counter, each key holds what it held
before, or what others have put there when it was free, or the record of the name, when that could not be taken away. Nothing is
stored and the installer is not called for a request that is refused or is granted no name. -/
structure Undone (settings : LifecycleSettings) (request : SubmitRequest) (space : String) (w : World) (xs : List Exchange)
    (e : LifecycleError) (w' : World) : Prop where
  store : ∀ key, key ≠ JobIndex.key settings.systemSpace →
    w'.held key = w.held key ∨ (w.held key = none ∧ ∀ x ∈ xs, ¬x.Writes key) ∨
      ∃ index, key = (Record.candidate request.name space index).key ∧
        (Record.candidate request.name space index).stored ∈ xs ∧ Unreleased xs key
  released : ∀ index, (Record.candidate request.name space index).stored ∈ xs →
    w'.held (Record.candidate request.name space index).key = none ∨
      Unreleased xs (Record.candidate request.name space index).key
  untouched : ((∃ cause, e = .request cause) ∨ ∃ cause, e = .registration cause) →
    ∀ x ∈ xs, x.call? = none ∧ ∀ key, ¬x.Writes key
  calls : CallsTakenBack (xs.filterMap Exchange.call?)

namespace UndoingAux

variable {settings : LifecycleSettings} {request : SubmitRequest} {space : String} {w w' : World} {xs : List Exchange}

/-- A launch that fails ends with the release of the name. Its calls of the installer take back what was applied. -/
theorem Launched.failed {chart values : String} {identity : JobIdentity} {e : LifecycleError}
    (h : Launched chart identity space values xs (.error e)) :
    ∃ doing ending, xs = doing ++ ending ∧ Released space identity.resolved ending ∧
      ((∃ cause, e = .install cause) ∨ ∃ cause, e = .registry cause) ∧ CallsTakenBack (xs.filterMap Exchange.call?) := by
  cases h with
  | unrendered hreleased =>
    refine ⟨[_], _, rfl, hreleased, .inl ⟨_, rfl⟩, ?_⟩
    simp only [List.filterMap_cons, Exchange.call?, hreleased.filterMap_call?]
    exact .unrendered _ _ _ _
  | unstored hreleased =>
    refine ⟨[_, _], _, rfl, hreleased, .inr ⟨_, rfl⟩, ?_⟩
    simp only [List.filterMap_cons, Exchange.call?, hreleased.filterMap_call?]
    exact .unapplied _ _ _ _
  | @unapplied manifest e outcome notes zs hnotes hreleased =>
    refine ⟨[_, _, _, _] ++ notes, zs, rfl, hreleased, .inl ⟨_, rfl⟩, ?_⟩
    rw [filterMap_call?_unapplied hnotes hreleased]
    exact .removed _ _ _ _ _ _

/-- What a release says of the record when it has not taken it away. -/
theorem Released.held_or_unreleased {name : String} (h : Released space name xs) (hp : w.Path xs w') :
    w'.held ⟨space, name⟩ = none ∨ Unreleased xs ⟨space, name⟩ := by
  obtain ⟨-, hheld⟩ | ⟨e, rfl, -⟩ := h.path hp
  · exact .inl ((hheld _).trans (if_pos rfl))
  · exact .inr ⟨e, List.mem_cons_self, List.mem_cons_of_mem _ List.mem_cons_self⟩

theorem Unreleased.mono {ys : List Exchange} {key : ObjectKey} (h : Unreleased xs key) (hsub : ∀ x ∈ xs, x ∈ ys) :
    Unreleased ys key := by
  obtain ⟨e, hdelete, hlog⟩ := h
  exact ⟨e, hsub _ hdelete, hsub _ hlog⟩

/-- A registration that is in vain leaves nothing to be taken back. -/
theorem undone_of_inVain {e : LifecycleError} (hvain : ∀ x ∈ xs, Registration.InVain x) (hp : w.Path xs w') :
    Undone settings request space w xs e w' where
  store key _ := by
    have hwrites : ∀ x ∈ xs, ¬x.Writes key := fun x hx => (hvain x hx).not_writes key
    cases hm : w.held key with
    | none => exact .inr (.inl ⟨rfl, hwrites⟩)
    | some m => exact .inl (hp.held hwrites hm)
  released index hx := absurd hx (Registration.stored_not_mem_of_inVain hvain _)
  untouched _ x hx := ⟨(hvain x hx).call?_eq_none, (hvain x hx).not_writes⟩
  calls := by
    rw [Registration.filterMap_call?_of_inVain hvain]
    exact .none

/-- A launch that fails takes back the registration before it. -/
theorem undone_of_launched {before counting launching : List Exchange} {index : Nat} {text : String} {e : LifecycleError}
    (hvain : ∀ x ∈ before, Registration.InVain x) (hcounted : JobIndex.Counted settings.systemSpace counting)
    (hlaunched : Launched settings.chart ((Record.candidate request.name space index).identity request.name) space text
      launching (.error e))
    (hp : w.Path (before ++ (Record.candidate request.name space index).stored :: (counting ++ launching)) w') :
    Undone settings request space w (before ++ (Record.candidate request.name space index).stored :: (counting ++ launching)) e
      w' := by
  obtain ⟨doing, ending, hsplit, hreleased, hcause, hcalls⟩ := Launched.failed hlaunched
  obtain ⟨hfree, w₁, -, -, hlater⟩ := path_registered hvain hp
  obtain ⟨w₂, -, hlaunching⟩ := World.path_append_iff.1 hlater
  rw [hsplit] at hlaunching
  obtain ⟨w₃, -, hending⟩ := World.path_append_iff.1 hlaunching
  set record := Record.candidate request.name space index with hrecord
  set all := before ++ record.stored :: (counting ++ launching) with hall
  have hend : w'.held record.key = none ∨ Unreleased all record.key :=
    (Released.held_or_unreleased hreleased hending).imp_right fun h => Unreleased.mono h fun x hx => by simp [hall, hsplit, hx]
  have hwrites : ∀ x ∈ launching, ∀ key, x.Writes key → key = record.key := fun x hx key hw => hlaunched.writes hx hw
  exact {
    store := fun key hkey => by
      by_cases hrecordKey : key = record.key
      · rw [hrecordKey]
        rcases hend with hgone | hkept
        · exact .inl (hgone.trans hfree.symm)
        · exact .inr (.inr ⟨index, rfl, by rw [hall, hrecord]; simp, hkept⟩)
      · have hnot : ∀ x ∈ all, ¬x.Writes key := fun x hx hw =>
          (writes_registered hvain hcounted (fun x hx => hwrites x hx key) hx hw).elim hrecordKey hkey
        cases hm : w.held key with
        | none => exact .inr (.inl ⟨rfl, hnot⟩)
        | some m => exact .inl (hp.held hnot hm)
    released := fun i hi => by
      rw [key_eq_of_stored_mem hvain hcounted (hlaunched.stored_not_mem _) hi]
      exact hend
    untouched := by
      rintro (⟨cause, rfl⟩ | ⟨cause, rfl⟩) <;> simp at hcause
    calls := by
      rw [hall, filterMap_call?_registered hvain hcounted]
      exact hcalls }

/-- A submission that ends before its launch leaves the record of the name. -/
theorem not_undone_of_halted {before counting : List Exchange} {index : Nat} {e : LifecycleError}
    (hvain : ∀ x ∈ before, Registration.InVain x) (hcounted : JobIndex.Counted settings.systemSpace counting)
    (hp : w.Path (before ++ (Record.candidate request.name space index).stored :: counting) w') :
    ¬Undone settings request space w (before ++ (Record.candidate request.name space index).stored :: counting) e w' := by
  intro hundone
  obtain ⟨-, w₁, -, hheld, hcounting⟩ := path_registered hvain hp
  obtain ⟨m, hm⟩ := Option.ne_none_iff_exists'.1 hheld
  rcases hundone.released index (by simp) with hgone | ⟨cause, hdelete, -⟩
  · obtain ⟨m', hm', -⟩ := hcounted.path hcounting hm
    rw [hgone] at hm'
    cases hm'
  · -- The record is never asked to be taken away.
    rw [← List.append_nil counting] at hdelete
    cases deleteMap_mem_launching hvain hcounted hdelete

end UndoingAux

open UndoingAux

/-- A submission that fails takes back what it has done, whatever the server, other clients and the installer do, with the one
exception of values that cannot be written. It comes to that just when the name was registered, one of the extra values cannot be
written and the program has not crashed before, which it does just when it reads the greatest value of the counter. -/
theorem submit_undone_iff (settings : LifecycleSettings) (request : SubmitRequest) (space : String) (w : World)
    (e : LifecycleError) (h : ((submit settings request space).run w).1 = .error e) :
    let xs := (submit settings request space).exchanges w
    (Undone settings request space w xs e ((submit settings request space).run w).2 ↔ e ≠ .unwritableValues ∧ e ≠ .crashed) ∧
    (e = .unwritableValues ↔ e ≠ .crashed ∧ (∃ index, (Record.candidate request.name space index).stored ∈ xs) ∧
      ∃ values entry, request.values = .ok values ∧ entry ∈ values.extra.entries ∧ entry.2.isWritable = false) ∧
    (e = .crashed ↔ JobIndex.ReadGreatest settings.systemSpace xs) := by
  intro xs
  have hp : w.Path xs ((submit settings request space).run w).2 := Program.run_path _ w
  have hyields : (submit settings request space).Yields xs ((submit settings request space).run w).1 := Program.run_yields _ w
  rw [h] at hyields
  generalize ((submit settings request space).run w).2 = w' at hp ⊢
  generalize xs = xs at hp hyields ⊢
  cases submit_yields hyields with
  | refused hvalues =>
    refine ⟨iff_of_true (undone_of_inVain (by simp) hp) ⟨nofun, nofun⟩, iff_of_false nofun ?_,
      iff_of_false nofun JobIndex.not_readGreatest_nil⟩
    rintro ⟨-, ⟨index, hx⟩, -⟩
    cases hx
  | unregistered hvain =>
    refine ⟨iff_of_true (undone_of_inVain hvain hp) ⟨nofun, nofun⟩, iff_of_false nofun ?_, iff_of_false nofun ?_⟩
    · rintro ⟨-, ⟨index, hx⟩, -⟩
      exact Registration.stored_not_mem_of_inVain hvain _ hx
    · rintro ⟨found, -, hx⟩
      exact (hvain _ hx).elim
  | @halted values before counting index _ hvalues hvain hcounted hhalted =>
    have hundone := not_undone_of_halted (e := e) hvain hcounted hp
    have hstored : (Record.candidate request.name space index).stored ∈
        before ++ (Record.candidate request.name space index).stored :: counting := by simp
    have hread : JobIndex.ReadGreatest settings.systemSpace
          (before ++ (Record.candidate request.name space index).stored :: (counting ++ [])) ↔
        JobIndex.ReadGreatest settings.systemSpace counting := readGreatest_registered hvain fun _ _ => List.not_mem_nil
    rw [List.append_nil] at hread
    cases hhalted with
    | crashed hgreatest =>
      refine ⟨iff_of_false hundone fun hne => hne.2 rfl, iff_of_false nofun fun hne => hne.1 rfl, iff_of_true rfl ?_⟩
      exact hread.2 hgreatest
    | unwritable number hgreatest hnone =>
      obtain ⟨entry, hentry, hfalse⟩ := (ChartValues.render?_eq_none_iff _).1 hnone
      refine ⟨iff_of_false hundone fun hne => hne.1 rfl, iff_of_true rfl ?_, iff_of_false nofun (mt hread.1 hgreatest)⟩
      exact ⟨nofun, ⟨index, hstored⟩, values, entry, hvalues, hentry, hfalse⟩
  | @launched values before counting launching index text _ number hvalues hvain hcounted hgreatest htext hlaunched =>
    obtain ⟨-, -, -, -, hcause, -⟩ := Launched.failed hlaunched
    have hne : e ≠ .unwritableValues := by
      rintro rfl
      simp at hcause
    have hne' : e ≠ .crashed := by
      rintro rfl
      simp at hcause
    refine ⟨iff_of_true (undone_of_launched hvain hcounted hlaunched hp) ⟨hne, hne'⟩, iff_of_false hne ?_, iff_of_false hne' ?_⟩
    · rintro ⟨-, -, values', entry, hvalues', hentry, hfalse⟩
      cases hvalues.symm.trans hvalues'
      have hnone := (ChartValues.render?_eq_none_iff { values with jobIndex := number }).2 ⟨entry, hentry, hfalse⟩
      rw [htext] at hnone
      cases hnone
    · intro hread
      exact hgreatest ((readGreatest_registered hvain hlaunched.getMap_not_mem).1 hread)

/-- A job that can be neither applied nor removed is submitted in vain, and its name is free again. -/
theorem submit_undone_of_full_disk :
    ((submit {} plainRequest "team-a").run renderingOnly).1 = .error (.install (.valuesFile "disk full")) ∧
      Undone {} plainRequest "team-a" renderingOnly ((submit {} plainRequest "team-a").exchanges renderingOnly)
        (.install (.valuesFile "disk full")) ((submit {} plainRequest "team-a").run renderingOnly).2 := by
  have h : ((submit {} plainRequest "team-a").run renderingOnly).1 = .error (.install (.valuesFile "disk full")) := by rfl
  exact ⟨h, (submit_undone_iff {} plainRequest "team-a" renderingOnly _ h).1.2 ⟨nofun, nofun⟩⟩

/-- The same request with an extra value that is a mapping by a text with a tag. -/
def taggedRequest : SubmitRequest := { plainRequest with set := ["x=\x7b!b k: v\x7d"] }

/-- The values of that request. -/
def taggedValues : ChartValues :=
  { image := "ubuntu", gpu := none, gpuFraction := none, cpu := none, memory := none, cpuLimit := none, memoryLimit := none,
    environment := .empty, project := "team-a", user := none, interactive := false, jobIndex := none,
    extra := .ofList [("x", .mapping [(.tagged "b" (.string "k"), .string "v")])] }

theorem values_taggedRequest : taggedRequest.values = .ok taggedValues := by
  have hread : Yaml.read? "\x7b!b k: v\x7d" = some (.mapping [(.tagged "b" (.string "k"), .string "v")]) := by cbv
  have htyped : typedValue "\x7b!b k: v\x7d" = .mapping [(.tagged "b" (.string "k"), .string "v")] := by
    rw [typedValue, hread, Option.getD_some]
  have hset : taggedRequest.set.mapM splitPair = .ok [("x", "\x7b!b k: v\x7d")] := by rfl
  unfold SubmitRequest.values
  rw [hset, taggedValues, ← htyped]
  rfl

/-- Values that cannot be written are not taken back: the submission fails, its record stays where nothing was, nobody has been
asked to take it away, and the log does not say so. -/
theorem submit_unwritable_false :
    ((submit {} taggedRequest "team-a").run {}).1 = .error .unwritableValues ∧
      ({} : World).held ⟨"team-a", "job"⟩ = none ∧
      ((submit {} taggedRequest "team-a").run {}).2.held ⟨"team-a", "job"⟩ ≠ none ∧
      ((submit {} taggedRequest "team-a").run {}).2.log = [] := by
  unfold submit
  rw [values_taggedRequest]
  exact ⟨rfl, rfl, nofun, rfl⟩

end Lifecycle

end TrainingJobs

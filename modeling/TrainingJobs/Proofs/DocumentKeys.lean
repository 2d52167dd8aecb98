import Mathlib
import TrainingJobs.Commands
import TrainingJobs.Proofs.KeyValuePairs

/-!
# Keys of the values document

The document of values has the names of their fields for keys, each once, and behind them the keys of the extra values, each once
(`topKeys_toYaml`). So it has a key twice just when an extra value is called like a field that is there (`document_keys_once_iff`). A
submission hands over one document only, in whatever way it runs, and that is the one of its values with the number that it has drawn.
-/

namespace TrainingJobs

/-- The keys of a mapping. -/
def Yaml.topKeys : Yaml → List Yaml
  | .mapping entries => entries.map (·.1)
  | _ => []

/-! ## Keys -/

namespace SortedTable

variable {ν : Type}

/-- No two bindings of a table have one key. -/
theorem nodup_keys (t : SortedTable String ν) : t.keys.Nodup := by
  refine List.pairwise_map.2 (t.ascending.imp fun {a b} hlt heq => ?_)
  rw [heq, Std.compare_self] at hlt
  cases hlt

/-- The keys of a table are those that bindings were made for. -/
theorem mem_keys_ofList_iff {bindings : List (String × ν)} {k : String} :
    k ∈ (ofList bindings).keys ↔ k ∈ bindings.map (·.1) := by
  have hkeys : k ∈ (ofList bindings).keys ↔ ((ofList bindings).get? k).isSome = true := by
    rw [Option.isSome_iff_exists]
    constructor
    · intro h
      obtain ⟨e, he, rfl⟩ := List.mem_map.1 h
      exact ⟨e.2, mem_entries_iff.1 he⟩
    · rintro ⟨value, hvalue⟩
      exact List.mem_map.2 ⟨(k, value), mem_entries_iff.2 hvalue, rfl⟩
  rw [hkeys, get?_ofList, List.lookup_isSome_iff, List.mem_map]
  constructor
  · rintro ⟨e, he, heq⟩
    exact ⟨e, List.mem_reverse.1 he, (beq_iff_eq.1 heq).symm⟩
  · rintro ⟨e, he, rfl⟩
    exact ⟨e, List.mem_reverse.2 he, beq_self_eq_true _⟩

end SortedTable

namespace ChartValues

/-- The names of all fields, in the order of the document. -/
def fieldNames : List String :=
  ["image"] ++ ["gpu"] ++ ["gpuFraction"] ++ ["cpu"] ++ ["memory"] ++ ["cpuLimit"] ++ ["memoryLimit"] ++ ["environment"] ++
    ["project"] ++ ["user"] ++ ["interactive"] ++ ["jobIndex"]

/-- The names of the fields that are there. -/
def names (v : ChartValues) : List String := v.fields.map (·.1)

variable {v : ChartValues}

/-- A field that can be missing has its name, or is missing. -/
theorem map_optional_sublist {α : Type} (name : String) (write : α → Yaml) (value : Option α) :
    ((optional name write value).map (·.1)).Sublist [name] := by
  cases value with
  | none => exact List.nil_sublist _
  | some a => exact List.Sublist.refl _

/-- The names are among those of all fields, in their order. -/
theorem names_sublist (v : ChartValues) : v.names.Sublist fieldNames := by
  have henvironment : ((if v.environment.isEmpty then []
      else [("environment", Yaml.mapping (v.environment.entries.map fun e => (.string e.1, .string e.2)))]).map
        (·.1)).Sublist ["environment"] := by
    split
    · exact List.nil_sublist _
    · exact List.Sublist.refl _
  simp only [names, fields, List.map_append, fieldNames]
  -- One field after the other, each with its own name.
  repeat' apply List.Sublist.append
  all_goals first
    | exact map_optional_sublist _ _ _
    | exact henvironment
    | exact List.Sublist.refl _

/-- No two fields have one name. -/
theorem nodup_names (v : ChartValues) : v.names.Nodup :=
  (names_sublist v).nodup (by decide)

theorem topKeys_toYaml (v : ChartValues) :
    v.toYaml.topKeys = (v.names ++ v.extra.keys).map Yaml.string := by
  rw [toYaml, Yaml.topKeys, entries, names, SortedTable.keys, List.map_map, ← List.map_append, List.map_map]
  rfl

/-- The keys of a document are distinct just when no extra value is called like a field that is there. -/
theorem nodup_topKeys_iff :
    v.toYaml.topKeys.Nodup ↔ ∀ key ∈ v.extra.keys, key ∉ v.names := by
  have hstring : Function.Injective Yaml.string := fun a b h => by injection h
  rw [topKeys_toYaml, List.nodup_map_iff hstring, List.nodup_append']
  constructor
  · rintro ⟨-, -, hdisjoint⟩ key hextra hfield
    exact hdisjoint hfield hextra
  · intro h
    exact ⟨nodup_names v, v.extra.nodup_keys, fun key hfield hextra => h key hextra hfield⟩

end ChartValues

variable {r : SubmitRequest} {v : ChartValues} {key : String}

/-- The keys of pairs are what their texts are split into. -/
theorem mem_keys_of_mapM {texts : List String} {pairs : List (String × String)} (h : texts.mapM splitPair = .ok pairs) :
    key ∈ pairs.map (·.1) ↔ ∃ text ∈ texts, ∃ value, splitPair text = .ok (key, value) := by
  have hread := RequestAux.mapM_eq_ok_iff.1 h
  clear h
  induction hread with
  | nil => simp
  | @cons text pair texts pairs hhead _ ih =>
    have hfirst : key = pair.1 ↔ ∃ value, splitPair text = .ok (key, value) := by
      rw [hhead]
      constructor
      · rintro rfl
        exact ⟨pair.2, rfl⟩
      · rintro ⟨value, heq⟩
        cases heq
        rfl
    rw [List.map_cons, List.mem_cons, hfirst, List.exists_mem_cons_iff]
    exact or_congr_right ih

/-- The extra values of a request that is accepted have the keys of its pairs. -/
theorem SubmitRequest.mem_extra_iff (h : r.values = .ok v) :
    key ∈ v.extra.keys ↔ ∃ text ∈ r.set, ∃ value, splitPair text = .ok (key, value) := by
  obtain ⟨-, share, environment, set, -, -, hset, rfl⟩ := values_eq_ok_iff.1 h
  rw [← mem_keys_of_mapM hset, valuesOf, SortedTable.mem_keys_ofList_iff, List.map_map]
  rfl

/-! ## Documents -/

/-- The document of values that an exchange hands over: to the installer, to a record or to the output. -/
def Exchange.document? : Exchange → Option String
  | ⟨.install (.render _ _ text), _⟩ => some text
  | ⟨.patchMap _ texts, _⟩ => texts.get? Lifecycle.valuesText
  | ⟨.print text, _⟩ => some text
  | _ => none

namespace DocumentAux

open Lifecycle

variable {x : Exchange} {xs : List Exchange} {space name : String}

theorem document?_of_inVain (h : Registration.InVain x) : x.document? = none := by
  unfold Registration.InVain at h
  split at h
  · rfl
  · rfl
  · exact h.elim

theorem document?_of_counted (h : JobIndex.Counted space xs) (hx : x ∈ xs) : x.document? = none := by
  obtain ⟨reply, rfl⟩ | ⟨reply, rfl⟩ | ⟨version, map, reply, rfl⟩ := h.cases hx <;> rfl

theorem document?_of_released (h : Released space name xs) (hx : x ∈ xs) : x.document? = none := by
  obtain ⟨reply, rfl⟩ | ⟨text, rfl⟩ := h.cases hx <;> rfl

theorem document?_of_noted (h : Noted xs) (hx : x ∈ xs) : x.document? = none := by
  obtain ⟨text, rfl⟩ := h.cases hx
  rfl

theorem get?_valuesText (chart values manifest : String) :
    (texts chart values manifest).get? valuesText = some values := by
  rw [texts, SortedTable.get?_ofList]
  rfl

/-- The documents that a launch hands over are those of its values. -/
theorem document?_of_launched {chart values : String} {identity : JobIdentity} {result : Except LifecycleError Submission}
    (h : Launched chart identity space values xs result) (hx : x ∈ xs) : x.document? = none ∨ x.document? = some values := by
  have hpatch : ∀ manifest reply, (⟨.patchMap ⟨space, identity.resolved⟩ (texts chart values manifest), reply⟩ :
      Exchange).document? = some values := fun manifest _ => get?_valuesText chart values manifest
  cases h with
  | unrendered hreleased =>
    rcases List.mem_cons.1 hx with rfl | hx
    · exact .inr rfl
    · exact .inl (document?_of_released hreleased hx)
  | unstored hreleased =>
    simp only [List.mem_cons] at hx
    rcases hx with rfl | rfl | hx
    · exact .inr rfl
    · exact .inr (hpatch _ _)
    · exact .inl (document?_of_released hreleased hx)
  | unapplied hnotes hreleased =>
    simp only [List.mem_cons, List.mem_append] at hx
    rcases hx with rfl | rfl | rfl | rfl | hx | hx
    · exact .inr rfl
    · exact .inr (hpatch _ _)
    · exact .inl rfl
    · exact .inl rfl
    · exact .inl (document?_of_noted hnotes hx)
    · exact .inl (document?_of_released hreleased hx)
  | started =>
    simp only [List.mem_cons, List.not_mem_nil, or_false] at hx
    rcases hx with rfl | rfl | rfl
    · exact .inr rfl
    · exact .inr (hpatch _ _)
    · exact .inl rfl

/-- All documents that a submission hands over are the one of its values with the number that it has drawn. -/
theorem document?_of_submit {settings : LifecycleSettings} {result : Except LifecycleError Submission}
    (hvalues : r.values = .ok v) (h : (submit settings r space).Yields xs result) :
    ∃ number, ∀ x ∈ xs, ∀ text, x.document? = some text → { v with jobIndex := number }.render? = some text := by
  -- Up to the launch there is no document.
  have hsilent : ∀ {before counting : List Exchange} {index : Nat}, (∀ x ∈ before, Registration.InVain x) →
      JobIndex.Counted settings.systemSpace counting →
      ∀ x ∈ before ++ (Record.candidate r.name space index).stored :: counting, x.document? = none := by
    intro before counting index hvain hcounted x hx
    rcases List.mem_append.1 hx with hx | hx
    · exact document?_of_inVain (hvain x hx)
    · rcases List.mem_cons.1 hx with rfl | hx
      · rfl
      · exact document?_of_counted hcounted hx
  cases submit_yields h with
  | refused hrefused =>
    rw [hvalues] at hrefused
    cases hrefused
  | unregistered hvain =>
    refine ⟨none, fun x hx text htext => ?_⟩
    rw [document?_of_inVain (hvain x hx)] at htext
    cases htext
  | halted _ hvain hcounted _ =>
    refine ⟨none, fun x hx text htext => ?_⟩
    rw [hsilent hvain hcounted x hx] at htext
    cases htext
  | launched number hsame hvain hcounted _ hwritten hlaunched =>
    rw [hvalues] at hsame
    cases hsame
    refine ⟨number, fun x hx text htext => ?_⟩
    rw [← List.cons_append, ← List.append_assoc] at hx
    rcases List.mem_append.1 hx with hx | hx
    · rw [hsilent hvain hcounted x hx] at htext
      cases htext
    · rcases document?_of_launched hlaunched hx with hnone | hdocument
      · rw [hnone] at htext
        cases htext
      · rw [hwritten, ← hdocument, htext]

/-- A dry run prints the document of its values without a number. -/
theorem document?_of_dryRun {result : Except Failure Unit} (hvalues : r.values = .ok v)
    (h : (Commands.dryRun r).Yields xs result) :
    ∀ x ∈ xs, ∀ text, x.document? = some text → v.render? = some text := by
  unfold Commands.dryRun at h
  rw [hvalues] at h
  dsimp only at h
  cases hwritten : v.render? with
  | none =>
    rw [hwritten] at h
    obtain ⟨rfl, -⟩ := Program.done_yields_iff.1 h
    intro x hx
    cases hx
  | some written =>
    rw [hwritten] at h
    obtain ⟨reply, ys, rfl, hend⟩ := Program.ask_andThen_yields_iff.1 h
    obtain ⟨rfl, -⟩ := Program.done_yields_iff.1 hend
    intro x hx text htext
    rw [List.mem_singleton.1 hx] at htext
    exact htext

end DocumentAux

open DocumentAux

/-- The document of a request that is accepted, with a number or without one, has each key once just when no extra value is called like
a field that is there. Whatever happens to a submission, the documents that it hands to the installer and puts into its record are the
one of its values with the number that it got, if it got one, and what a dry run prints is the one without a number. -/
theorem document_keys_once_iff (h : r.values = .ok v) :
    (∀ number, { v with jobIndex := number }.toYaml.topKeys.Nodup ↔
      ∀ text ∈ r.set, ∀ key value, splitPair text = .ok (key, value) →
        key ∉ { v with jobIndex := number }.names) ∧
    (∀ settings space xs result, (Lifecycle.submit settings r space).Yields xs result →
      ∃ number, ∀ x ∈ xs, ∀ text, x.document? = some text →
        Yaml.render? { v with jobIndex := number }.toYaml = some text) ∧
    ∀ xs result, (Commands.dryRun r).Yields xs result →
      ∀ x ∈ xs, ∀ text, x.document? = some text → Yaml.render? { v with jobIndex := none }.toYaml = some text := by
  refine ⟨fun number => ?_, fun settings space xs result hyields => document?_of_submit h hyields, fun xs result hyields => ?_⟩
  · rw [ChartValues.nodup_topKeys_iff]
    constructor
    · intro hapart text htext key value hsplit
      exact hapart key ((SubmitRequest.mem_extra_iff h).2 ⟨text, htext, value, hsplit⟩)
    · intro hapart key hkey
      obtain ⟨text, htext, value, hsplit⟩ := (SubmitRequest.mem_extra_iff h).1 hkey
      exact hapart text htext key value hsplit
  · have hnumber : { v with jobIndex := none } = v := by
      obtain ⟨-, share, environment, set, -, -, -, rfl⟩ := SubmitRequest.values_eq_ok_iff.1 h
      rfl
    rw [hnumber]
    exact document?_of_dryRun h hyields

/-- An extra value with a name of its own: with a number too each key is there once. -/
theorem document_keys_once_of_replicas :
    ∃ v, { Lifecycle.plainRequest with set := ["replicas=2"] }.values = .ok v ∧
      { v with jobIndex := some 1 }.toYaml.topKeys.Nodup ∧ { v with jobIndex := none }.toYaml.topKeys.Nodup := by
  have hvalues : { Lifecycle.plainRequest with set := ["replicas=2"] }.values =
      .ok (Lifecycle.plainRequest.valuesOf .none [] [("replicas", "2")]) := rfl
  have hkey : ∀ text ∈ ["replicas=2"], ∀ key value, splitPair text = .ok (key, value) → key = "replicas" := by
    intro text htext key value hsplit
    have hpair : splitPair "replicas=2" = .ok ("replicas", "2") := rfl
    rw [List.mem_singleton.1 htext, hpair] at hsplit
    cases hsplit
    rfl
  obtain ⟨honce, -⟩ := document_keys_once_iff hvalues
  refine ⟨_, hvalues, (honce (some 1)).2 ?_, (honce none).2 ?_⟩
  · intro text htext key value hsplit
    rw [hkey text htext key value hsplit]
    decide
  · intro text htext key value hsplit
    rw [hkey text htext key value hsplit]
    decide

/-- An extra value called `image`: with any number and without one the document has this key twice, and a dry run prints it so. -/
theorem document_keys_of_image_false :
    ∃ v, { Lifecycle.plainRequest with set := ["image=x"] }.values = .ok v ∧
      (∀ number, ¬ { v with jobIndex := number }.toYaml.topKeys.Nodup) ∧
      ((Commands.dryRun { Lifecycle.plainRequest with set := ["image=x"] }).run {}).2.output =
        "image: ubuntu\nproject: team-a\ninteractive: false\nimage: x\n" := by
  have hread : Yaml.read? "x" = some (.string "x") := by cbv
  have htyped : typedValue "x" = .string "x" := by rw [typedValue, hread, Option.getD_some]
  have hvalues : { Lifecycle.plainRequest with set := ["image=x"] }.values =
      .ok { Lifecycle.plainValues with extra := .ofList [("image", .string "x")] } := by
    rw [← htyped]
    rfl
  refine ⟨_, hvalues, fun number hnodup => ?_, ?_⟩
  · exact ChartValues.nodup_topKeys_iff.1 hnodup "image" List.mem_cons_self List.mem_cons_self
  · have hwritten : { Lifecycle.plainValues with extra := .ofList [("image", .string "x")] }.render? =
        some "image: ubuntu\nproject: team-a\ninteractive: false\nimage: x\n" := by decide +kernel
    rw [Commands.dryRun, hvalues]
    dsimp only
    rw [hwritten]
    rfl

end TrainingJobs
